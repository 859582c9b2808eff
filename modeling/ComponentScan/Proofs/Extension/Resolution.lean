import ComponentScan.Proofs.Extension.Basic
import ComponentScan.Proofs.Resolution
import ComponentScan.Proofs.Termination

/-! # Names and values in an extended program

A lookup in the extended program comes to the new declaration at the root only, where it asks
for its name; this is none of the names that are looked up.  Hoisting passes it by, for it is
a function, and it assigns nothing.  So every name is bound where it was, and every node has
the value that it had and comes from the module that it came from.
-/
namespace ComponentScan.Tree

/-- Some identifier of the tree is spelled `name`. -/
def Spells (t : Tree) (name : String) : Prop :=
  ∃ m < t.size, (t.type m).isIdentifier = true ∧ t.text m = name

namespace Extends
variable {t t' : Tree} (h : t'.Extends t) {n : Nat} {name : String}
include h

/-! ## Targets -/

theorem patternBinding?_eq (hn : n < t.size) :
    t'.patternBinding? name n = t.patternBinding? name n := by
  induction hk : t.size - n using Nat.strongRecOn generalizing n with
  | ind k ih =>
    have hchild {c : Nat} (hp : t.parent? c = some n) :
        t'.patternBinding? name c = t.patternBinding? name c :=
      ih _ (hk ▸ size_sub_lt hp) (Table.lt_size_of_parent? hp) rfl
    rw [Tree.patternBinding?_eq t', Tree.patternBinding?_eq t, h.type_eq hn, h.text_eq hn]
    cases htype : t.type n with
    | pairPattern =>
      have hinner := h.inner_of_type hn (by simp [htype])
      simp only [h.child?_eq hinner]
      refine Option.bind_congr fun value hvalue => ?_
      have hp := parent?_of_child? hvalue
      rw [h.type_eq (Table.lt_size_of_parent? hp), h.text_eq (Table.lt_size_of_parent? hp),
        hchild hp]
    | assignmentPattern | objectAssignmentPattern =>
      have hinner := h.inner_of_type hn (by simp [htype])
      simp only [h.child?_eq hinner]
      exact Option.bind_congr fun left hleft => hchild (parent?_of_child? hleft)
    | objectPattern | arrayPattern | restPattern =>
      have hinner := h.inner_of_type hn (by simp [htype])
      simp only [h.contents_eq hinner]
      exact findSome?_congr fun element helement => hchild (mem_contents.mp helement).1
    | _ => rfl

theorem declaratorBinding?_eq (hn : t.IsInner n) :
    t'.declaratorBinding? name n = t.declaratorBinding? name n := by
  unfold declaratorBinding?
  rw [h.child?_eq hn]
  refine Option.bind_congr fun target htarget => ?_
  have hlt := lt_size_of_child? htarget
  rw [h.type_eq hlt, h.text_eq hlt, h.patternBinding?_eq hlt]

theorem declarationBinding?_eq (hn : t.IsInner n) :
    t'.declarationBinding? name n = t.declarationBinding? name n := by
  rw [declarationBinding?, h.contents_eq hn, declarationBinding?]
  rw [List.filter_congr fun c hc => by rw [h.type_eq (IsInner.of_mem_contents hc).1]]
  refine findSome?_congr fun c hc => h.declaratorBinding?_eq ?_
  exact .of_mem_contents (List.mem_filter.mp hc).1

theorem parameterBinding?_eq (hn : n < t.size) :
    t'.parameterBinding? name n = t.parameterBinding? name n := by
  unfold parameterBinding?
  rw [h.type_eq hn]
  cases htype : t.type n with
  | assignmentPattern | requiredParameter | optionalParameter =>
    have hinner := h.inner_of_type hn (by simp [htype])
    simp only [h.child?_eq hinner]
    refine Option.bind_congr fun pattern hpattern => ?_
    have hlt := lt_size_of_child? hpattern
    rw [h.type_eq hlt, h.text_eq hlt, h.patternBinding?_eq hlt]
  | _ => exact h.patternBinding?_eq hn

theorem parametersBinding?_eq (hn : t.IsInner n) :
    t'.parametersBinding? name n = t.parametersBinding? name n := by
  unfold parametersBinding?
  rw [h.child?_eq hn, h.child?_eq hn]
  cases hsingle : t.child? n .parameter with
  | some single => simp only [h.text_eq (lt_size_of_child? hsingle)]
  | none =>
    refine Option.bind_congr fun parameters hparameters => ?_
    rw [h.contents_eq (.of_child? hparameters)]
    exact findSome?_congr fun parameter hparameter =>
      h.parameterBinding?_eq (Table.lt_size_of_parent? (mem_contents.mp hparameter).1)

theorem specifierLocal?_eq (hn : t.IsInner n) : t'.specifierLocal? n = t.specifierLocal? n := by
  rw [specifierLocal?, h.child?_eq hn, h.child?_eq hn, specifierLocal?]

theorem importPartBinding?_eq {statement : Nat} (hn : n < t.size) :
    t'.importPartBinding? name statement n = t.importPartBinding? name statement n := by
  unfold importPartBinding?
  rw [h.type_eq hn, h.text_eq hn]
  cases htype : t.type n with
  | namespaceImport =>
    have hinner := h.inner_of_type hn (by simp [htype])
    simp only [h.first?_eq hinner]
    refine Option.bind_congr fun identifier hidentifier => ?_
    rw [h.text_eq (lt_size_of_first? hidentifier)]
  | namedImports =>
    have hinner := h.inner_of_type hn (by simp [htype])
    simp only [h.contents_eq hinner]
    rw [List.filter_congr fun c hc => by rw [h.type_eq (IsInner.of_mem_contents hc).1]]
    refine List.find?_congr fun specifier hspecifier => ?_
    rw [h.specifierLocal?_eq (.of_mem_contents (List.mem_filter.mp hspecifier).1)]
    refine any_congr fun c hlocal => ?_
    have hlt : c < t.size := by
      rcases Option.or_eq_some_iff.mp hlocal with hc | ⟨-, hc⟩ <;> exact lt_size_of_child? hc
    rw [h.text_eq hlt]
  | _ => rfl

theorem importBinding?_eq (hn : t.IsInner n) :
    t'.importBinding? name n = t.importBinding? name n := by
  unfold importBinding?
  rw [h.contents_eq hn]
  rw [List.find?_congr fun c hc => by rw [h.type_eq (IsInner.of_mem_contents hc).1]]
  refine Option.bind_congr fun clause hclause => ?_
  rw [h.contents_eq (.of_mem_contents (List.mem_of_find?_eq_some hclause))]
  exact findSome?_congr fun part hmem => h.importPartBinding?_eq (IsInner.of_mem_contents hmem).1

/-! ## Blocks -/

theorem declaration?_eq (hn : n < t.size) : t'.declaration? n = t.declaration? n := by
  unfold declaration?
  rw [h.type_eq hn]
  split
  · next htype => exact h.child?_eq (h.inner_of_type hn (by simp [htype])) _
  · rfl

theorem any_text_child?_eq (hn : t.IsInner n) (field : Field) :
    (t'.child? n field).any (t'.text · = name) = (t.child? n field).any (t.text · = name) := by
  rw [h.child?_eq hn]
  refine any_congr fun c hc => ?_
  rw [h.text_eq (lt_size_of_child? hc)]

theorem statementBinding?_eq (hn : n < t.size) :
    t'.statementBinding? name n = t.statementBinding? name n := by
  unfold statementBinding?
  rw [h.declaration?_eq hn]
  refine Option.bind_congr fun declaration hdeclaration => ?_
  have hlt := (encloses_declaration? hdeclaration).lt_size hn
  dsimp only
  rw [h.type_eq hlt]
  -- the root declares nothing, whatever its children are
  by_cases hprogram : t.type declaration = .program
  · rw [hprogram]
    rfl
  · have hinner := h.inner_of_type hlt hprogram
    rw [h.declarationBinding?_eq hinner, h.any_text_child?_eq hinner, h.importBinding?_eq hinner]

/-- The new declaration does not bind a name that the old tree spells. -/
theorem statementBinding?_declaration (hname : t.Spells name) :
    t'.statementBinding? name t.size = none := by
  obtain ⟨m, hm, hidentifier, rfl⟩ := hname
  have hany : (t'.child? t.size .name).any (t'.text · = t.text m) = false := by
    cases hc : t'.child? t.size .name with
    | none => rfl
    | some c =>
      have hle := Nat.le_of_lt (Table.parent?_lt (parent?_of_child? hc))
      simpa using h.fresh c m hle (.inr hc) hm hidentifier
  simp [statementBinding?, declaration?, h.declaration.2.1, NodeType.isDeclaration,
    NodeType.isFunctionDeclaration, hany]

theorem blockBinding?_eq (hn : n < t.size) (hname : t.Spells name) :
    t'.blockBinding? name n = t.blockBinding? name n := by
  have hold : (t.contents n).findSome? (t'.statementBinding? name) =
      (t.contents n).findSome? (t.statementBinding? name) :=
    findSome?_congr fun c hc =>
      h.statementBinding?_eq (Table.lt_size_of_parent? (mem_contents.mp hc).1)
  rw [blockBinding?, h.contents_eq_append hn, List.findSome?_append, hold, blockBinding?]
  split <;> simp [h.statementBinding?_declaration hname]

/-! ## Hoisting -/

theorem isHoistingBlock_eq (hn : n < t.size) : t'.isHoistingBlock n = t.isHoistingBlock n := by
  have hany : (t.parent? n).any (fun parent => (t'.type parent).isScope) =
      (t.parent? n).any (fun parent => (t.type parent).isScope) :=
    any_congr fun p hp => by rw [h.type_eq (parent_lt_size hp)]
  rw [isHoistingBlock, isHoistingBlock, h.type_eq hn, h.parent?_eq hn, hany]

theorem outsideFunctions_next_eq (hn : t.IsInner n) :
    t'.outsideFunctions.next n = t.outsideFunctions.next n := by
  rw [outsideFunctions_next, outsideFunctions_next, h.type_eq hn.1, h.namedChildren_eq hn]

/-- Nothing is hoisted out of the new declaration, which is a function. -/
theorem hoistedDeclarations_eq (hn : n < t.size) :
    t'.hoistedDeclarations n = t.hoistedDeclarations n := by
  have hinner {c : Nat} (hc : c ∈ t.namedChildren n) : t.IsInner c :=
    .of_parent? (mem_namedChildren.mp hc).1
  have hold : (t.namedChildren n).flatMap t'.outsideFunctions.preorder =
      (t.namedChildren n).flatMap t.outsideFunctions.preorder :=
    List.flatMap_congr fun c hc =>
      Descent.preorder_congr (fun _ => h.outsideFunctions_next_eq) (hinner hc)
  have hnew : t'.outsideFunctions.preorder t.size = [t.size] := by
    have hnext : t'.outsideFunctions.next t.size = [] := by
      rw [outsideFunctions_next, h.declaration.2.1]
      rfl
    rw [Descent.preorder_eq, hnext, List.flatMap_nil]
  rw [Tree.hoistedDeclarations_eq, Tree.hoistedDeclarations_eq, h.namedChildren_eq_append hn,
    List.flatMap_append, hold, List.filter_append]
  have hlast : ((if n = Table.root then [t.size] else []).flatMap
      t'.outsideFunctions.preorder).filter (t'.type · = .variableDeclaration) = [] := by
    split <;> simp [hnew, h.declaration.2.1]
  rw [hlast, List.append_nil]
  refine List.filter_congr fun m hm => ?_
  obtain ⟨c, hc, hmc⟩ := List.mem_flatMap.mp hm
  rw [h.type_eq ((t.outsideFunctions.mem_preorder.mp hmc).lt_size (hinner hc).1)]

theorem hoistedBinding?_eq (hn : n < t.size) :
    t'.hoistedBinding? name n = t.hoistedBinding? name n := by
  unfold hoistedBinding?
  rw [h.isHoistingBlock_eq hn, h.hoistedDeclarations_eq hn]
  split
  · refine findSome?_congr fun declaration hmem => h.declarationBinding?_eq ?_
    have hlt := (encloses_of_mem_hoistedDeclarations hmem).lt_size hn
    exact h.inner_of_type hlt (by simp [type_of_mem_hoistedDeclarations hmem])
  · rfl

/-! ## Bindings -/

theorem ownNameBinding?_eq (hn : t.IsInner n) :
    t'.ownNameBinding? name n = t.ownNameBinding? name n := by
  rw [ownNameBinding?, ownNameBinding?, h.construct_eq hn.1, h.any_text_child?_eq hn]

theorem scopeBinding?_eq (hn : n < t.size) (hname : t.Spells name) :
    t'.scopeBinding? name n = t.scopeBinding? name n := by
  unfold scopeBinding?
  rw [h.type_eq hn]
  dsimp only
  split
  · rw [h.blockBinding?_eq hn hname, h.hoistedBinding?_eq hn]
  · next hblock =>
    have hinner := h.inner_of_type hn fun hprogram => hblock (by rw [hprogram]; rfl)
    rw [h.parametersBinding?_eq hinner, h.ownNameBinding?_eq hinner]

/-- **Every identifier is bound where it was.** -/
theorem binding?_eq (hn : n < t.size) (hidentifier : (t.type n).isIdentifier = true) :
    t'.binding? n = t.binding? n := by
  have hname : t.Spells (t.text n) := ⟨n, hn, hidentifier, rfl⟩
  rw [binding?, h.ancestors_eq hn, h.text_eq hn, binding?]
  refine findSome?_congr fun a ha => h.scopeBinding?_eq ?_ hname
  exact Nat.lt_of_le_of_lt (le_of_mem_ancestors (List.mem_cons_of_mem _ ha)) hn

/-! ## Object literals and assignments -/

theorem isEntryNamed_eq (hn : t.IsInner n) : t'.isEntryNamed name n = t.isEntryNamed name n := by
  have hkey (field : Field) : (t'.child? n field).bind t'.keyName? =
      (t.child? n field).bind t.keyName? := by
    rw [h.child?_eq hn]
    exact Option.bind_congr fun c hc => h.keyName?_eq (lt_size_of_child? hc)
  rw [isEntryNamed, isEntryNamed, h.type_eq hn.1, hkey, hkey, h.text_eq hn.1]

theorem entryValue?_eq (hn : t.IsInner n) : t'.entryValue? n = t.entryValue? n := by
  rw [entryValue?, entryValue?, h.type_eq hn.1, h.child?_eq hn]

/-- A function declaration is no entry of an object literal. -/
theorem property?_eq (hn : n < t.size) : t'.property? n name = t.property? n name := by
  have hnew : (if n = Table.root then [t.size] else []).filter (t'.isEntryNamed name) = [] := by
    split <;> simp [isEntryNamed, h.declaration.2.1]
  rw [property?, h.contents_eq_append hn, List.filter_append, hnew, List.append_nil, property?,
    List.filter_congr fun c hc => h.isEntryNamed_eq (.of_mem_contents hc)]
  refine Option.bind_congr fun entry hentry => ?_
  have hmem := (List.mem_filter.mp (List.mem_of_getLast? hentry)).1
  exact h.entryValue?_eq (.of_mem_contents hmem)

theorem assignment?_eq (hn : n < t.size) : t'.assignment? name n = t.assignment? name n := by
  unfold assignment?
  rw [h.type_eq hn]
  refine Option.bind_congr fun _ hguard => ?_
  have htype := (Option.guard_eq_some' _).mp hguard
  have hinner := h.inner_of_type hn (by simp [htype])
  rw [h.first?_eq hinner]
  refine Option.bind_congr fun assignment hassignment => ?_
  have hassigns : t.IsInner assignment := .of_first? hassignment
  rw [h.type_eq hassigns.1, h.child?_eq hassigns]
  refine Option.bind_congr fun _ _ => Option.bind_congr fun left hleft => ?_
  rw [h.type_eq (lt_size_of_child? hleft), h.text_eq (lt_size_of_child? hleft)]

theorem lastAssigned?_eq (hn : n < t.size) :
    t'.lastAssigned? name n = t.lastAssigned? name n := by
  have hold : (t.contents n).filterMap (t'.assignment? name) =
      (t.contents n).filterMap (t.assignment? name) :=
    List.filterMap_congr fun c hc =>
      h.assignment?_eq (Table.lt_size_of_parent? (mem_contents.mp hc).1)
  have hnew : (if n = Table.root then [t.size] else []).filterMap (t'.assignment? name) = [] := by
    split <;> simp [assignment?, h.declaration.2.1]
  rw [lastAssigned?, h.contents_eq_append hn, List.filterMap_append, hold, hnew, List.append_nil,
    lastAssigned?]
  refine Option.bind_congr fun assignment hlast => h.child?_eq ?_ _
  obtain ⟨statement, -, hassignment⟩ := List.mem_filterMap.mp (List.mem_of_getLast? hlast)
  simp only [assignment?, Option.bind_eq_bind, Option.bind_eq_some_iff, Option.guard_eq_some',
    exists_const, Option.pure_def, Option.some.injEq] at hassignment
  obtain ⟨-, _, hfirst, -, -, -, -, rfl⟩ := hassignment
  exact .of_first? hfirst

theorem assignedLater?_eq (hn : t.IsInner n) : t'.assignedLater? n = t.assignedLater? n := by
  have hgrandparent : (t'.parent? n).bind t'.parent? = (t.parent? n).bind t.parent? := by
    rw [h.parent?_eq hn.1]
    exact Option.bind_congr fun p hp => h.parent?_eq (parent_lt_size hp)
  unfold assignedLater?
  rw [h.child?_eq hn, hgrandparent]
  refine Option.bind_congr fun target htarget => ?_
  rw [h.type_eq (lt_size_of_child? htarget), h.text_eq (lt_size_of_child? htarget)]
  refine Option.bind_congr fun _ _ => Option.bind_congr fun block hblock => ?_
  obtain ⟨p, hp, hblock⟩ := Option.bind_eq_some_iff.mp hblock
  have hlt := (Table.parent?_lt hblock).trans (Table.parent?_lt hp)
  exact h.lastAssigned?_eq (hlt.trans hn.1)

/-! ## Values -/

theorem valueStep_eq (hn : n < t.size) : t'.valueStep n = t.valueStep n := by
  unfold valueStep
  rw [h.type_eq hn]
  cases htype : t.type n with
  | variableDeclarator =>
    have hinner := h.inner_of_type hn (by simp [htype])
    simp only [h.child?_eq hinner, h.assignedLater?_eq hinner]
  | assignmentExpression =>
    have hinner := h.inner_of_type hn (by simp [htype])
    simp only [h.child?_eq hinner]
  | identifier | shorthandPropertyIdentifier =>
    simp only [h.isNamed_eq hn, h.binding?_eq hn (by rw [htype]; rfl)]
  | memberExpression =>
    have hinner := h.inner_of_type hn (by simp [htype])
    simp only [h.child?_eq hinner]
    split
    · next hproperty => rw [h.text_eq (lt_size_of_child? hproperty)]
    · rfl
  | _ => rfl

theorem valueWithin_eq (hn : n < t.size) (budget : Nat) (entered : List Nat) :
    t'.valueWithin budget entered n = t.valueWithin budget entered n := by
  induction budget generalizing n entered with
  | zero => rfl
  | succ budget ih =>
    rw [valueWithin, valueWithin]
    dsimp only
    rw [h.unwrap_eq hn, h.valueStep_eq (unwrap_lt_size hn)]
    split
    · rfl
    · cases hstep : t.valueStep (t.unwrap n) with
      | done => rfl
      | follow next => exact ih (lt_size_of_valueStep_follow hstep) _
      | entry object name =>
        -- two nested resolutions: of the object, and of the entry found in it
        have hobject := lt_size_of_child? (valueStep_entry hstep).2.1
        simp only
        rw [ih hobject]
        refine Option.bind_congr fun o ho => ?_
        have hlt := lt_size_of_valueWithin hobject ho
        rw [h.construct_eq hlt]
        split
        · rw [h.property?_eq hlt]
          cases hentry : t.property? o name with
          | none => rfl
          | some value => exact ih ((encloses_property? hentry).lt_size hlt) _
        · rfl

/-- **Every node has the value that it had.** -/
theorem value_eq (hn : n < t.size) : t'.value n = t.value n := by
  -- the larger budget of the larger tree is enough for the smaller one as well
  have hvalue' := t'.valueWithin_eq_value n (Nat.lt_succ_self _)
  have hvalue := t.valueWithin_eq_value n (h.size_lt.trans (Nat.lt_succ_self _))
  rw [h.valueWithin_eq hn, hvalue] at hvalue'
  exact (Option.some.inj hvalue').symm

/-! ## Modules -/

theorem accessChain_eq (hn : n < t.size) : t'.accessChain n = t.accessChain n := by
  induction hk : t.size - n using Nat.strongRecOn generalizing n with
  | ind k ih =>
    have hunwrap := unwrap_lt_size hn
    rw [Tree.accessChain_eq t', Tree.accessChain_eq t, h.unwrap_eq hn, h.type_eq hunwrap]
    split
    · next hmember =>
      have hinner := h.inner_of_type hunwrap (by simp [hmember])
      have hname : (t'.child? (t.unwrap n) .property).map t'.text =
          (t.child? (t.unwrap n) .property).map t.text := by
        rw [h.child?_eq hinner]
        exact Option.map_congr fun c hc => h.text_eq (lt_size_of_child? hc)
      dsimp only
      rw [hname, h.child?_eq hinner]
      congr 1
      refine Option.map_congr fun object hobject => ?_
      have hlt := size_sub_lt (parent?_of_child? hobject)
      have hle := t.le_unwrap n
      rw [ih _ (by omega) (lt_size_of_child? hobject) rfl]
    · rfl

theorem bindingStatement?_eq (hn : n < t.size) :
    t'.bindingStatement? n = t.bindingStatement? n := by
  unfold bindingStatement?
  rw [h.ancestors_eq hn]
  rw [List.find?_congr fun a ha => by rw [h.type_eq (lt_size_of_mem_ancestors ha)]]
  refine Option.bind_congr fun stop hstop => ?_
  rw [h.type_eq (lt_size_of_mem_ancestors (List.mem_of_find?_eq_some hstop))]

theorem isRequire_eq (hn : n < t.size) : t'.isRequire n = t.isRequire n := by
  rw [isRequire, isRequire, h.type_eq hn, h.text_eq hn]

/-- The first argument of a call. -/
theorem firstArgument_eq (hn : t.IsInner n) : (t'.child? n .arguments).bind t'.first? =
    (t.child? n .arguments).bind t.first? := by
  rw [h.child?_eq hn]
  exact Option.bind_congr fun arguments harguments =>
    h.first?_eq (.of_child? harguments)

theorem originStep_eq (hn : n < t.size) : t'.originStep n = t.originStep n := by
  have hpattern : (t.parent? n).any (fun parent => (t'.type parent).isPattern) =
      (t.parent? n).any (fun parent => (t.type parent).isPattern) :=
    any_congr fun p hp => by rw [h.type_eq (parent_lt_size hp)]
  unfold originStep
  dsimp only
  rw [h.type_eq hn, h.bindingStatement?_eq hn, h.parent?_eq hn, hpattern, h.construct_eq hn,
    h.value_eq hn, h.accessChain_eq hn]
  split
  · next htype => rw [h.child?_eq (h.inner_of_type hn (by simp [htype]))]
  · split
    · next htype =>
      have hinner := h.inner_of_type hn (by simp [htype])
      rw [h.firstArgument_eq hinner, h.child?_eq hinner]
      split
      · rfl
      · next function hfunction =>
        rw [h.isRequire_eq (lt_size_of_child? hfunction)]
        congr 2
        refine Option.bind_congr fun argument hargument => h.stringLiteral?_eq ?_
        obtain ⟨arguments, -, hfirst⟩ := Option.bind_eq_some_iff.mp hargument
        exact lt_size_of_first? hfirst
    · split
      · next htype =>
        rw [h.child?_eq (h.inner_of_type hn (by simp [htype]))]
        congr 1
        exact Option.bind_congr fun source hsource =>
          h.stringLiteral?_eq (lt_size_of_child? hsource)
      · rfl

theorem moduleWithin_eq (hn : n < t.size) (budget : Nat) (entered : List Nat) :
    t'.moduleWithin budget entered n = t.moduleWithin budget entered n := by
  induction budget generalizing n entered with
  | zero => rfl
  | succ budget ih =>
    have hunwrap := unwrap_lt_size hn
    rw [moduleWithin, moduleWithin, h.unwrap_eq hn, h.originStep_eq hunwrap]
    split
    · rfl
    · cases hstep : t.originStep (t.unwrap n) with
      | done => rfl
      | follow next => exact ih (lt_size_of_originStep_follow hunwrap hstep) _

/-- **Every node comes from the module that it came from.** -/
theorem moduleOf?_eq (hn : n < t.size) : t'.moduleOf? n = t.moduleOf? n := by
  have hmodule' := t'.moduleWithin_eq_moduleOf? n (Nat.lt_succ_self _)
  have hmodule := t.moduleWithin_eq_moduleOf? n (h.size_lt.trans (Nat.lt_succ_self _))
  rw [h.moduleWithin_eq hn, hmodule] at hmodule'
  exact (Option.some.inj hmodule').symm

theorem exportNameAt?_eq (hn : n < t.size) : t'.exportNameAt? n = t.exportNameAt? n := by
  unfold exportNameAt?
  rw [h.type_eq hn, h.text_eq hn]
  cases htype : t.type n with
  | importSpecifier =>
    simp only [h.child?_eq (h.inner_of_type hn (by simp [htype]))]
    exact Option.map_congr fun c hc => h.text_eq (lt_size_of_child? hc)
  | pairPattern =>
    simp only [h.child?_eq (h.inner_of_type hn (by simp [htype]))]
    exact Option.bind_congr fun c hc => h.keyName?_eq (lt_size_of_child? hc)
  | _ => rfl

theorem exportName?_eq (hn : n < t.size) : t'.exportName? n = t.exportName? n := by
  have hunwrap := unwrap_lt_size hn
  unfold exportName?
  rw [h.unwrap_eq hn]
  dsimp only
  rw [h.construct_eq hunwrap]
  split
  · next hconstruct =>
    rw [h.binding?_eq hunwrap (isIdentifier_type_of_construct hconstruct)]
    exact Option.bind_congr fun b hb => h.exportNameAt?_eq (lt_size_of_binding? hb)
  · rfl

end Extends

end ComponentScan.Tree
