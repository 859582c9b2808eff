import ComponentScan.Proofs.Resolution
import ComponentScan.Proofs.Termination

/-! # The module that a node comes from

`ComesFrom` says in which ways a node comes from another one, and `NamesModule` which nodes
name a module: an import, or a call of `require`.  Both are rules about single nodes, without
a budget and without a memory of what has been visited.

The search for a module follows these rules to their end.  A node comes from one other node at
most, so where a chain ends at a node that names a module, it passes no node twice, and the
search is not stopped by its guard; where the chain is a cycle, there is no end to be found
(`moduleOf?_eq_some_iff`).
-/
namespace ComponentScan.Tree

/-- The part of an import or of a pattern belongs to the import or declarator `s`: it is inside
`s`, and nothing in between is another of these, a function or a list of parameters. -/
def BelongsTo (t : Tree) (part s : Nat) : Prop :=
  (t.type s = .importStatement ∨ t.type s = .variableDeclarator) ∧
    ∃ inner outer, t.ancestors part = inner ++ s :: outer ∧
      ∀ a ∈ inner, t.type a ≠ .importStatement ∧ t.type a ≠ .variableDeclarator ∧
        t.type a ≠ .formalParameters ∧ (t.type a).isScope = false

/-- The identifier `n` stands in the pattern `p`. -/
structure StandsIn (t : Tree) (n p : Nat) : Prop where
  isIdentifier : t.type n = .identifier
  parent?_eq : t.parent? n = some p
  isPattern : (t.type p).isPattern = true

/-- The unwrapped node `n` comes from another unwrapped node. -/
inductive ComesFrom (t : Tree) : Nat → Nat → Prop
  /-- A declarator comes from its value. -/
  | declarator {n value : Nat} : t.type n = .variableDeclarator →
      t.child? n .value = some value → ComesFrom t n (t.unwrap value)
  /-- A call comes from what it calls, unless this is `require`. -/
  | call {n callee : Nat} : t.type n = .callExpression → t.child? n .function = some callee →
      ¬ (t.type callee = .identifier ∧ t.text callee = "require") →
      ComesFrom t n (t.unwrap callee)
  /-- A part of an import or of a pattern comes from what it belongs to. -/
  | part {n s : Nat} : (t.type n).isImportPart = true ∨ (t.type n).isPattern = true →
      t.BelongsTo n s → ComesFrom t n (t.unwrap s)
  /-- An identifier in a pattern comes from the pattern. -/
  | element {n p : Nat} : t.StandsIn n p → ComesFrom t n (t.unwrap p)
  /-- Any other identifier comes from its value. -/
  | identifier {n : Nat} : t.construct n = .identifier → (∀ p, ¬ t.StandsIn n p) →
      t.value n ≠ n → ComesFrom t n (t.unwrap (t.value n))
  /-- A member access comes from the root of its chain. -/
  | member {n : Nat} : t.type n = .memberExpression →
      ComesFrom t n (t.unwrap (t.accessChain n).1)

/-- The node `n` is a string literal, and `m` is its text without the first and the last
character. -/
inductive IsLiteral (t : Tree) (n : Nat) (m : String) : Prop
  /-- The text is `m` between two quotes. -/
  | quoted {opening closing : Char} : t.type n = .string →
      (t.text n).toList = opening :: (m.toList ++ [closing]) → IsLiteral t n m
  /-- The text is too short for two quotes. -/
  | short : t.type n = .string → (t.text n).toList.length < 2 → m = "" → IsLiteral t n m

/-- The node `n` names the module `m`. -/
inductive NamesModule (t : Tree) : Nat → String → Prop
  /-- An import from `m`. -/
  | byImport {n source : Nat} {m : String} : t.type n = .importStatement →
      t.child? n .source = some source → t.IsLiteral source m → NamesModule t n m
  /-- A call of `require` with `m`. -/
  | byRequire {n callee arguments argument : Nat} {m : String} : t.type n = .callExpression →
      t.child? n .function = some callee → t.type callee = .identifier →
      t.text callee = "require" → t.child? n .arguments = some arguments →
      t.first? arguments = some argument → t.IsLiteral argument m → NamesModule t n m

/-- From the unwrapped node `n` a chain leads to a node that names the module `m`. -/
def OriginatesIn (t : Tree) (n : Nat) (m : String) : Prop :=
  ∃ s, Relation.ReflTransGen t.ComesFrom n s ∧ t.NamesModule s m

/-! ## One step -/

section Steps
variable {t : Tree} {n next s : Nat} {m : String}

theorem bindingStatement?_eq_some_iff : t.bindingStatement? n = some s ↔ t.BelongsTo n s := by
  simp only [bindingStatement?, Option.bind_eq_bind, Option.bind_eq_some_iff,
    List.find?_eq_some_iff_append, Option.guard_eq_some', exists_const, Option.pure_def,
    Option.some.injEq, BelongsTo]
  constructor
  · rintro ⟨stop, ⟨-, inner, outer, hsplit, hinner⟩, htype, rfl⟩
    refine ⟨htype, inner, outer, hsplit, fun a ha => ?_⟩
    simpa [and_assoc] using hinner a ha
  · rintro ⟨htype, inner, outer, hsplit, hinner⟩
    refine ⟨s, ⟨?_, inner, outer, hsplit, fun a ha => ?_⟩, htype, rfl⟩
    · rcases htype with htype | htype <;> simp [htype]
    · simpa [and_assoc] using hinner a ha

/-- What is left of a text without its first and its last character. -/
theorem drop_dropLast_eq_iff {text body : List Char} : (text.drop 1).dropLast = body ↔
    (∃ opening closing, text = opening :: (body ++ [closing])) ∨ text.length < 2 ∧ body = [] := by
  cases text with
  | nil => simp
  | cons opening rest =>
    -- a single character is the first and the last one at once
    rcases List.eq_nil_or_concat rest with rfl | ⟨inner, closing, rfl⟩
    · simp
    · simp

theorem stringLiteral?_eq_some_iff : t.stringLiteral? n = some m ↔ t.IsLiteral n m := by
  have hvalue : String.ofList ((t.text n).toList.drop 1).dropLast = m ↔
      (∃ opening closing, (t.text n).toList = opening :: (m.toList ++ [closing])) ∨
        (t.text n).toList.length < 2 ∧ m = "" := by
    rw [← String.toList_inj, String.toList_ofList, drop_dropLast_eq_iff, String.toList_eq_nil_iff]
  rw [stringLiteral?, Option.ite_none_right_eq_some, Option.some.injEq, hvalue]
  constructor
  · rintro ⟨htype, ⟨opening, closing, htext⟩ | ⟨hshort, hm⟩⟩
    · exact .quoted htype htext
    · exact .short htype hshort hm
  · intro h
    cases h with
    | quoted htype htext => exact ⟨htype, .inl ⟨_, _, htext⟩⟩
    | short htype hshort hm => exact ⟨htype, .inr ⟨hshort, hm⟩⟩

theorem isRequire_iff : t.isRequire n = true ↔ t.type n = .identifier ∧ t.text n = "require" := by
  simp [isRequire]

theorem any_isPattern_iff (hn : t.type n = .identifier) :
    (t.parent? n).any (fun parent => (t.type parent).isPattern) = true ↔ ∃ p, t.StandsIn n p := by
  rw [Option.any_eq_true]
  constructor
  · rintro ⟨p, hp, hpattern⟩
    exact ⟨p, hn, hp, hpattern⟩
  · rintro ⟨p, -, hp, hpattern⟩
    exact ⟨p, hp, hpattern⟩

/-- A step of the search goes along one of the rules. -/
theorem comesFrom_of_originStep (h : t.originStep n = .follow next) :
    t.ComesFrom n (t.unwrap next) := by
  unfold originStep at h
  dsimp only at h
  split at h
  · next htype => exact .declarator htype (OriginStep.ofNode?_eq_follow.mp h)
  split at h
  · next htype =>
    split at h
    · cases h
    · next callee hcallee =>
      split at h
      · cases h
      · next hrequire =>
        cases h
        exact .call htype hcallee fun hr => hrequire (isRequire_iff.mpr hr)
  split at h
  · cases h
  split at h
  · next hpart =>
    have hstatement := OriginStep.ofNode?_eq_follow.mp h
    exact .part (by simpa using hpart) (bindingStatement?_eq_some_iff.mp hstatement)
  split at h
  · next hin =>
    obtain ⟨p, hp⟩ := (any_isPattern_iff hin.1).mp hin.2
    have hparent := OriginStep.ofNode?_eq_follow.mp h
    cases hp.parent?_eq.symm.trans hparent
    exact .element hp
  · next hout =>
    split at h
    · next hidentifier =>
      split at h
      · cases h
      · next hne =>
        cases h
        refine .identifier hidentifier (fun p hp => ?_) hne
        exact hout ⟨hp.isIdentifier, (any_isPattern_iff hp.isIdentifier).mpr ⟨p, hp⟩⟩
    · split at h
      · next htype => cases h; exact .member htype
      · cases h

/-- The rules for a part apply to no other type that has a rule. -/
theorem type_ne_of_part (type : NodeType)
    (hpart : (t.type n).isImportPart = true ∨ (t.type n).isPattern = true)
    (hother : (type.isImportPart || type.isPattern) = false) : t.type n ≠ type := by
  rintro rfl
  simp only [Bool.or_eq_false_iff] at hother
  rcases hpart with hpart | hpart
  · exact absurd (hother.1.symm.trans hpart) (by decide)
  · exact absurd (hother.2.symm.trans hpart) (by decide)

/-- The step of the search at an identifier. -/
theorem originStep_of_isIdentifier (h : (t.type n).isIdentifier = true) : t.originStep n =
    if t.type n = .identifier ∧ (t.parent? n).any (fun parent => (t.type parent).isPattern) then
      .ofNode? (t.parent? n)
    else if t.construct n = .identifier then
      if t.value n = n then .done none else .follow (t.value n)
    else .done none := by
  have htype : t.type n = .identifier ∨ t.type n = .shorthandPropertyIdentifier := by
    revert h
    cases t.type n <;> simp [NodeType.isIdentifier]
  rcases htype with htype | htype <;>
    simp only [originStep, htype, NodeType.isImportPart, reduceCtorEq, if_false] <;> rfl

/-- The search makes a step along every rule. -/
theorem originStep_of_comesFrom {y : Nat} (h : t.ComesFrom n y) :
    ∃ next, t.originStep n = .follow next ∧ y = t.unwrap next := by
  cases h with
  | @declarator value htype hvalue =>
    exact ⟨value, by simp [originStep, htype, hvalue, OriginStep.ofNode?], rfl⟩
  | @call callee htype hcallee hother =>
    have hrequire : t.isRequire callee = false := by
      rw [Bool.eq_false_iff]
      exact fun hr => hother (isRequire_iff.mp hr)
    exact ⟨callee, by simp [originStep, htype, hcallee, hrequire], rfl⟩
  | @part s hpart hbelongs =>
    have hdeclarator := type_ne_of_part .variableDeclarator hpart rfl
    have hcall := type_ne_of_part .callExpression hpart rfl
    have himport := type_ne_of_part .importStatement hpart rfl
    have hstatement := bindingStatement?_eq_some_iff.mpr hbelongs
    refine ⟨s, ?_, rfl⟩
    simp [originStep, hdeclarator, hcall, himport, hpart, hstatement, OriginStep.ofNode?]
  | @element p hp =>
    have hany := (any_isPattern_iff hp.isIdentifier).mpr ⟨p, hp⟩
    refine ⟨p, ?_, rfl⟩
    rw [originStep_of_isIdentifier (by rw [hp.isIdentifier]; rfl),
      if_pos ⟨hp.isIdentifier, hany⟩, hp.parent?_eq]
    rfl
  | identifier hidentifier hout hne =>
    have hany : ¬ (t.type n = .identifier ∧
        (t.parent? n).any (fun parent => (t.type parent).isPattern) = true) := by
      rintro ⟨htype, hany⟩
      obtain ⟨p, hp⟩ := (any_isPattern_iff htype).mp hany
      exact hout p hp
    refine ⟨t.value n, ?_, rfl⟩
    rw [originStep_of_isIdentifier (isIdentifier_type_of_construct hidentifier), if_neg hany,
      if_pos hidentifier, if_neg hne]
  | member htype =>
    refine ⟨(t.accessChain n).1, ?_, rfl⟩
    have hconstruct : t.construct n ≠ .identifier := by
      intro h
      have := isIdentifier_type_of_construct h
      simp [htype, NodeType.isIdentifier] at this
    simp [originStep, htype, hconstruct, NodeType.isImportPart, NodeType.isPattern]

/-- The search ends with the name of a module exactly at the nodes that name it. -/
theorem namesModule_iff : t.NamesModule n m ↔ t.originStep n = .done (some m) := by
  constructor
  · intro h
    cases h with
    | byImport htype hsource hm =>
      simp [originStep, htype, hsource, stringLiteral?_eq_some_iff.mpr hm]
    | byRequire htype hcallee hidentifier htext harguments hargument hm =>
      have hrequire := isRequire_iff.mpr ⟨hidentifier, htext⟩
      have hliteral := stringLiteral?_eq_some_iff.mpr hm
      simp [originStep, htype, hcallee, hrequire, harguments, hargument, hliteral]
  · intro h
    have hgoesOn : ∀ next, OriginStep.ofNode? next ≠ .done (some m) := by
      intro next
      cases next <;> simp [OriginStep.ofNode?]
    unfold originStep at h
    dsimp only at h
    split at h
    · exact absurd h (hgoesOn _)
    split at h
    · next htype =>
      split at h
      · cases h
      · next callee hcallee =>
        split at h
        · next hrequire =>
          obtain ⟨argument, hargument, hm⟩ := Option.bind_eq_some_iff.mp (OriginStep.done.inj h)
          obtain ⟨arguments, harguments, hargument⟩ := Option.bind_eq_some_iff.mp hargument
          obtain ⟨hidentifier, htext⟩ := isRequire_iff.mp hrequire
          exact .byRequire htype hcallee hidentifier htext harguments hargument
            (stringLiteral?_eq_some_iff.mp hm)
        · cases h
    split at h
    · next htype =>
      obtain ⟨source, hsource, hm⟩ := Option.bind_eq_some_iff.mp (OriginStep.done.inj h)
      exact .byImport htype hsource (stringLiteral?_eq_some_iff.mp hm)
    -- everything else comes from another node or from nowhere
    split at h
    · exact absurd h (hgoesOn _)
    split at h
    · exact absurd h (hgoesOn _)
    split at h
    · split at h <;> cases h
    · split at h <;> cases h

end Steps

/-! ## The whole chain -/

section Chains
variable {t : Tree} {n x y budget : Nat} {entered : List Nat} {m : String}

/-- A node comes from one node only. -/
theorem ComesFrom.unique {z : Nat} (h : t.ComesFrom x y) (h' : t.ComesFrom x z) : y = z := by
  obtain ⟨next, hstep, rfl⟩ := originStep_of_comesFrom h
  obtain ⟨next', hstep', rfl⟩ := originStep_of_comesFrom h'
  cases hstep.symm.trans hstep'
  rfl

/-- A node that names a module comes from no other node. -/
theorem NamesModule.not_comesFrom (h : t.NamesModule x m) : ¬ t.ComesFrom x y := by
  intro hfrom
  obtain ⟨next, hstep, -⟩ := originStep_of_comesFrom hfrom
  cases hstep.symm.trans (namesModule_iff.mp h)

/-- A node has the origin of the node that it comes from. -/
theorem ComesFrom.originatesIn_iff (h : t.ComesFrom x y) :
    t.OriginatesIn x m ↔ t.OriginatesIn y m := by
  constructor
  · rintro ⟨s, hchain, hs⟩
    rcases hchain.cases_head with rfl | ⟨z, hz, hchain⟩
    · exact absurd h hs.not_comesFrom
    · exact ⟨s, h.unique hz ▸ hchain, hs⟩
  · rintro ⟨s, hchain, hs⟩
    exact ⟨s, .head h hchain, hs⟩

/-- A chain that leads to a module is no cycle. -/
theorem OriginatesIn.acc (h : t.OriginatesIn x m) : Acc (Function.swap t.ComesFrom) x := by
  obtain ⟨s, hchain, hs⟩ := h
  induction hchain using Relation.ReflTransGen.head_induction_on with
  | refl => exact Acc.intro _ fun y hy => absurd hy hs.not_comesFrom
  | head hstep _ ih => exact Acc.intro _ fun y hy => hstep.unique hy ▸ ih

/-- The module that the search finds is named at the end of the chain. -/
theorem originatesIn_of_moduleWithin (h : t.moduleWithin budget entered n = some (some m)) :
    t.OriginatesIn (t.unwrap n) m := by
  induction budget generalizing entered n with
  | zero => cases h
  | succ budget ih =>
    simp only [moduleWithin] at h
    split at h
    · cases h
    · split at h
      · next module? hstep =>
        cases h
        exact ⟨t.unwrap n, .refl, namesModule_iff.mpr hstep⟩
      · next next hstep => exact (comesFrom_of_originStep hstep).originatesIn_iff.mpr (ih h)

/-- **The guard does not hide a module**: the search finds the one that a chain leads to, if the
chain meets nothing that has been entered. -/
theorem OriginatesIn.eq_of_moduleWithin {found : Option String}
    (h : t.OriginatesIn (t.unwrap n) m) (hclear : Avoids t.ComesFrom (t.unwrap n) entered)
    (hfound : t.moduleWithin budget entered n = some found) : found = some m := by
  induction budget generalizing entered n with
  | zero => cases hfound
  | succ budget ih =>
    simp only [moduleWithin] at hfound
    rw [if_neg hclear.not_mem] at hfound
    split at hfound
    · next module? hstep =>
      obtain ⟨s, hchain, hs⟩ := h
      rcases hchain.cases_head with rfl | ⟨y, hy, -⟩
      · cases hstep.symm.trans (namesModule_iff.mp hs)
        exact (Option.some.inj hfound).symm
      · obtain ⟨next, hstep', -⟩ := originStep_of_comesFrom hy
        cases hstep.symm.trans hstep'
    · next next hstep =>
      have hfrom := comesFrom_of_originStep hstep
      exact ih (hfrom.originatesIn_iff.mp h) (hclear.cons h.acc hfrom) hfound

/-- A node comes from a module exactly if a chain leads to where the module is named. -/
theorem moduleOf?_eq_some_iff : t.moduleOf? n = some m ↔ t.OriginatesIn (t.unwrap n) m := by
  have hfound := t.moduleWithin_eq_moduleOf? n (Nat.lt_succ_self t.size)
  constructor
  · intro h
    rw [h] at hfound
    exact originatesIn_of_moduleWithin hfound
  · intro h
    exact h.eq_of_moduleWithin (.nil _ _) hfound

/-- A chain of member accesses has the origin of its root. -/
theorem originatesIn_accessChain (t : Tree) (n : Nat) (m : String) :
    t.OriginatesIn (t.unwrap n) m ↔ t.OriginatesIn (t.unwrap (t.accessChain n).1) m := by
  by_cases htype : t.type (t.unwrap n) = .memberExpression
  · have hfrom := ComesFrom.member htype
    have hroot : t.accessChain (t.unwrap n) = t.accessChain n := by
      rw [accessChain_eq, accessChain_eq t n, t.unwrap_unwrap]
    rw [hroot] at hfrom
    exact hfrom.originatesIn_iff
  · rw [accessChain_eq, if_neg htype, t.unwrap_unwrap]

/-- **The search for a module is exact.**  It finds the module `m` exactly if the rules lead,
in finitely many steps, from the node to an import from `m` or to a call of `require` with
`m`.  In particular a chain of member accesses comes from the module of its root. -/
theorem module_search_is_exact (t : Tree) (n : Nat) :
    (∀ m, t.moduleOf? n = some m ↔
      ∃ s, Relation.ReflTransGen t.ComesFrom (t.unwrap n) s ∧ t.NamesModule s m) ∧
      t.moduleOf? n = t.moduleOf? (t.accessChain n).1 := by
  refine ⟨fun m => moduleOf?_eq_some_iff, ?_⟩
  refine Option.ext fun m => ?_
  rw [moduleOf?_eq_some_iff, moduleOf?_eq_some_iff]
  exact t.originatesIn_accessChain n m

end Chains

end ComponentScan.Tree
