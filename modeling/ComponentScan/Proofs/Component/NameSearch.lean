import ComponentScan.CommandLine.Run
import ComponentScan.Proofs.Component.Definition
import ComponentScan.Proofs.Tree.Traversal

/-! # Searching for a reported name

A component is reported under a name, and the function of a given name can be searched for.
The report goes from a node to its name and strips quotation marks from it; the search goes
through all nodes and compares the name with what is written there.  It strips the marks
from the key of an entry, but not from the name of a declaration or a method.

So a reported name leads back to a node, except that a method whose name is written in
quotation marks is not found under the name that it is reported by, unless another node
happens to be called so.
-/
namespace ComponentScan.Tree

/-- The node `k` spells the name of the judged node `s`. -/
inductive CarriesName (t : Tree) (s k : Nat) : Prop
  /-- A function declaration, a method or an entry has a name of its own, which is not
  computed. -/
  | own : (t.type s).isFunctionDeclaration = true ∨ t.type s = .methodDefinition ∨
        t.type s = .pair →
      ((t.child? s .name).or (t.child? s .key)).or (t.child? s .property) = some k →
      t.type k ≠ .computedPropertyName → CarriesName t s k
  /-- A function without a name of its own is the value of a variable. -/
  | declarator {v : Nat} : (t.construct s).isFunction = true → t.ownName? s = none →
      t.parent? s = some v → t.type v = .variableDeclarator → t.child? v .value = some s →
      t.child? v .name = some k → t.type k = .identifier → CarriesName t s k

/-- What `k` spells, without quotation marks, is what the search looks for at the node `s`. -/
inductive IsSought (t : Tree) (s k : Nat) : Prop
  /-- A declaration or a method is sought by its name, as it is written. -/
  | name : (t.type s).isFunctionDeclaration = true ∨ t.type s = .methodDefinition →
      t.child? s .name = some k → stripQuotes (t.text k) = t.text k → IsSought t s k
  /-- An entry is sought by its key without quotation marks. -/
  | key {k' : Nat} : t.type s = .pair → t.child? s .key = some k' →
      stripQuotes (t.text k') = stripQuotes (t.text k) → IsSought t s k
  /-- What has no name of its own is sought by the variable that it is the value of. -/
  | declarator {v : Nat} : t.ownName? s = none → t.parent? s = some v →
      t.type v = .variableDeclarator → t.child? v .value = some s → t.child? v .name = some k →
      t.type k = .identifier → IsSought t s k

section Report
variable {t : Tree} {n s k v : Nat} {name : String}

/-! ## The reported name -/

theorem ownName?_of_carried
    (hk : ((t.child? s .name).or (t.child? s .key)).or (t.child? s .property) = some k)
    (hcomputed : t.type k ≠ .computedPropertyName) :
    t.ownName? s = some (stripQuotes (t.text k)) := by
  rw [ownName?, hk]
  simp [hcomputed]

/-- The value of a declarator is called like the variable. -/
theorem holderName?_of_declarator (hv : t.parent? s = some v)
    (htype : t.type v = .variableDeclarator) (hk : t.child? v .name = some k)
    (hid : t.type k = .identifier) : t.holderName? s = some (t.text k) := by
  simp [holderName?, ancestors_of_parent? hv, htype, isValueWrapper, hk, hid]

theorem componentName?_of_ownName? (htype : t.type s ≠ .callExpression)
    (h : t.ownName? s = some name) : t.componentName? s = some name := by
  simp [componentName?, htype, h]

theorem type_ne_call_of_isFunction (h : (t.construct s).isFunction = true) :
    t.type s ≠ .callExpression := by
  intro htype
  cases hnamed : t.isNamed s <;>
    simp [construct, hnamed, htype, NodeType.construct, Construct.isFunction] at h

/-! ## The search -/

theorem isSome_named?_iff :
    (t.named? name).isSome = true ↔ ∃ m ∈ t.nodesInOrder, (t.namedAt? name m).isSome = true := by
  simp [named?, List.isSome_findSome?]

/-- A declaration or a method is searched for as its name is written. -/
theorem isSome_namedAt?_iff_name
    (htype : (t.type s).isFunctionDeclaration = true ∨ t.type s = .methodDefinition) :
    (t.namedAt? name s).isSome = true ↔ ∃ k, t.child? s .name = some k ∧ t.text k = name := by
  have hcases : t.type s = .functionDeclaration ∨ t.type s = .generatorFunctionDeclaration ∨
      t.type s = .methodDefinition := by
    rcases htype with h | h
    · cases hs : t.type s <;> simp [hs, NodeType.isFunctionDeclaration] at h ⊢
    · exact .inr (.inr h)
  rcases hcases with h | h | h <;> simp [namedAt?, h, Option.any_eq_true]

/-- An entry is searched for by its key without quotation marks. -/
theorem isSome_namedAt?_iff_key (htype : t.type s = .pair) :
    (t.namedAt? name s).isSome = true ↔
      ∃ k, t.child? s .key = some k ∧ stripQuotes (t.text k) = name := by
  simp [namedAt?, htype, Option.any_eq_true]

theorem isSome_namedAt?_of_declarator (htype : t.type v = .variableDeclarator)
    (hvalue : t.child? v .value = some s) (hk : t.child? v .name = some k) :
    (t.namedAt? name v).isSome = true ↔ t.text k = name := by
  by_cases hname : t.text k = name <;> simp [namedAt?, htype, hvalue, hk, hname]

/-- A node with a name of its own is found at itself if the search looks for that name
there. -/
theorem isSome_namedAt?_iff_isSought
    (htype : (t.type s).isFunctionDeclaration = true ∨ t.type s = .methodDefinition ∨
      t.type s = .pair)
    (hk : ((t.child? s .name).or (t.child? s .key)).or (t.child? s .property) = some k)
    (hcomputed : t.type k ≠ .computedPropertyName) :
    (t.namedAt? (stripQuotes (t.text k)) s).isSome = true ↔ t.IsSought s k := by
  have hown := ownName?_of_carried hk hcomputed
  by_cases hpair : t.type s = .pair
  · rw [isSome_namedAt?_iff_key hpair]
    constructor
    · rintro ⟨k', hk', hname⟩
      exact .key hpair hk' hname
    · rintro (⟨hdeclaration | hmethod, -, -⟩ | ⟨-, hk', hname⟩ | ⟨hnone, -⟩)
      · simp [hpair, NodeType.isFunctionDeclaration] at hdeclaration
      · simp [hpair] at hmethod
      · exact ⟨_, hk', hname⟩
      · simp [hown] at hnone
  · have htype : (t.type s).isFunctionDeclaration = true ∨ t.type s = .methodDefinition := by
      rcases htype with h | h | h
      · exact .inl h
      · exact .inr h
      · exact absurd h hpair
    rw [isSome_namedAt?_iff_name htype]
    constructor
    · rintro ⟨k', hk', hname⟩
      have hsame : k' = k := by simpa [hk'] using hk
      subst hsame
      exact .name htype hk' hname.symm
    · rintro (⟨-, hk', hname⟩ | ⟨hkey, -, -⟩ | ⟨hnone, -⟩)
      · exact ⟨k, hk', hname.symm⟩
      · exact absurd hkey hpair
      · simp [hown] at hnone

/-! ## What is judged -/

/-- A stateless component is judged at the node that is visited, or at its parent. -/
theorem subject_of_definitionAt? {d : Definition} (h : t.definitionAt? n = some d)
    (hform : d.form = .stateless) : d.subject = n ∨ t.parent? n = some d.subject := by
  cases definedAt_of_definitionAt? h with
  | function _ hjudged => exact judgedNode?_cases hjudged
  | method => exact .inl rfl
  | classBased | createClass => cases hform

/-- What is judged is visited by the search as well. -/
theorem subject_mem_nodesInOrder {d : Definition} (hd : d ∈ t.definitions)
    (hform : d.form = .stateless) : d.subject ∈ t.nodesInOrder := by
  obtain ⟨n, hn, hat⟩ := List.mem_filterMap.mp hd
  rcases subject_of_definitionAt? hat hform with hself | hparent
  · rw [hself]
    exact hn
  · exact parent_mem_nodesInOrder hn hparent

/-- The command that judges a name succeeds exactly if the name is found. -/
theorem exit_checkNamed_iff {read : CommandLine.Reader} {file : String} {language : Language}
    (hread : read file = .ok (some ⟨language, t⟩)) (verbose : Bool) :
    (CommandLine.checkNamed read verbose file (some name)).exit = 0 ↔
      (t.named? name).isSome = true := by
  unfold CommandLine.checkNamed
  simp only [hread, Option.bind_some]
  cases h : t.named? name <;> simp

end Report

/-- **When a reported name is found again.**  A stateless component that carries its name in
one of the ways above is reported under a name.  The search finds this name if it looks for
it at the component, or if another node has it; it does not where the name of a declaration
or a method is written in quotation marks and no other node has it.  Where it is found, the
command that judges a name does not fail. -/
theorem reported_name_is_found_iff {t : Tree} {d : Definition} {k : Nat} (hd : d ∈ t.definitions)
    (hform : d.form = .stateless) (hname : t.CarriesName d.subject k) :
    ∃ name, t.componentName? d.subject = some name ∧
      ((t.named? name).isSome = true ↔ t.IsSought d.subject k ∨
        ∃ m ∈ t.nodesInOrder, m ≠ d.subject ∧ (t.namedAt? name m).isSome = true) ∧
      ∀ read verbose file language, read file = .ok (some ⟨language, t⟩) →
        ((CommandLine.checkNamed read verbose file (some name)).exit = 0 ↔
          (t.named? name).isSome = true) := by
  have hvisited := subject_mem_nodesInOrder hd hform
  generalize d.subject = s at hvisited hname
  cases hname with
  | own htype hk hcomputed =>
    refine ⟨_, componentName?_of_ownName? ?_ (ownName?_of_carried hk hcomputed), ?_,
      fun _ verbose _ _ hread => exit_checkNamed_iff hread verbose⟩
    · rintro hcall
      simp [hcall, NodeType.isFunctionDeclaration] at htype
    · rw [isSome_named?_iff, ← isSome_namedAt?_iff_isSought htype hk hcomputed]
      constructor
      · rintro ⟨m, hm, hfound⟩
        by_cases hms : m = s
        · exact .inl (hms ▸ hfound)
        · exact .inr ⟨m, hm, hms, hfound⟩
      · rintro (hfound | ⟨m, hm, -, hfound⟩)
        · exact ⟨s, hvisited, hfound⟩
        · exact ⟨m, hm, hfound⟩
  | @declarator v hfunction hown hv htype hvalue hk hid =>
    have hreport : t.componentName? s = some (t.text k) := by
      simp [componentName?, type_ne_call_of_isFunction hfunction, hown,
        holderName?_of_declarator hv htype hk hid]
    refine ⟨_, hreport, iff_of_true ?_ (.inl (.declarator hown hv htype hvalue hk hid)),
      fun _ verbose _ _ hread => exit_checkNamed_iff hread verbose⟩
    -- found at the declarator, which is visited as the parent of the function
    refine isSome_named?_iff.mpr ⟨v, parent_mem_nodesInOrder hvisited hv, ?_⟩
    exact (isSome_namedAt?_of_declarator htype hvalue hk).mpr rfl

/-- The tree of `x={'a':()=><b/>}`. -/
def quotedKey : Tree :=
  Table.toTree {
    source := Utf8.encode "x=\x7b'a':()=><b/>\x7d"
    nodes := #[
      ⟨.program, none, 0, 16, none, true⟩,
      ⟨.expressionStatement, some 0, 0, 16, none, true⟩,
      ⟨.assignmentExpression, some 1, 0, 16, none, true⟩,
      ⟨.identifier, some 2, 0, 1, some .left, true⟩,
      ⟨.object, some 2, 2, 16, some .right, true⟩,
      ⟨.pair, some 4, 3, 15, none, true⟩,
      ⟨.string, some 5, 3, 6, some .key, true⟩,
      ⟨.arrowFunction, some 5, 7, 15, some .value, true⟩,
      ⟨.formalParameters, some 7, 7, 9, some .parameters, true⟩,
      ⟨.jsxSelfClosingElement, some 7, 11, 15, some .body, true⟩]
    nonempty := by decide
    ordered := by decide }

/-- The entry is reported under its key without quotation marks, and found by it. -/
theorem quoted_key_is_found : quotedKey.definitions = [⟨.stateless, 5, 7⟩] ∧
    ∃ name, quotedKey.componentName? 5 = some name ∧ (quotedKey.named? name).isSome = true := by
  have hdefinitions : quotedKey.definitions = [⟨.stateless, 5, 7⟩] := by decide +kernel
  have htype : quotedKey.type 5 = .pair := by decide +kernel
  have hcarries : quotedKey.CarriesName 5 6 :=
    .own (.inr (.inr htype)) (by decide +kernel) (by decide +kernel)
  obtain ⟨name, hreport, hfound, -⟩ := reported_name_is_found_iff (d := ⟨.stateless, 5, 7⟩)
    (by simp [hdefinitions]) rfl hcarries
  exact ⟨hdefinitions, name, hreport, hfound.mpr (.inl (.key htype (by decide +kernel) rfl))⟩

/-- The tree of `x={'a'(){return <b/>}}`. -/
def quotedMethod : Tree :=
  Table.toTree {
    source := Utf8.encode "x=\x7b'a'()\x7breturn <b/>\x7d\x7d"
    nodes := #[
      ⟨.program, none, 0, 22, none, true⟩,
      ⟨.expressionStatement, some 0, 0, 22, none, true⟩,
      ⟨.assignmentExpression, some 1, 0, 22, none, true⟩,
      ⟨.identifier, some 2, 0, 1, some .left, true⟩,
      ⟨.object, some 2, 2, 22, some .right, true⟩,
      ⟨.methodDefinition, some 4, 3, 21, none, true⟩,
      ⟨.string, some 5, 3, 6, some .name, true⟩,
      ⟨.formalParameters, some 5, 6, 8, some .parameters, true⟩,
      ⟨.statementBlock, some 5, 8, 21, some .body, true⟩,
      ⟨.returnStatement, some 8, 9, 20, none, true⟩,
      ⟨.jsxSelfClosingElement, some 9, 16, 20, none, true⟩]
    nonempty := by decide
    ordered := by decide }

/-- A method whose name is written in quotation marks is reported without them, and not
found by what is reported. -/
theorem quoted_method_is_not_found :
    quotedMethod.definitions = [⟨.stateless, 5, 5⟩] ∧ quotedMethod.CarriesName 5 6 ∧
      quotedMethod.componentName? 5 = some "a" ∧ quotedMethod.named? "a" = none :=
  ⟨by decide +kernel,
    .own (.inr (.inl (by decide +kernel))) (by decide +kernel) (by decide +kernel),
    by decide +kernel, by decide +kernel⟩

end ComponentScan.Tree
