import ComponentScan.Component.Name
import ComponentScan.Proofs.Component.Definition
import ComponentScan.Proofs.Component.SpecEntries
import ComponentScan.Proofs.Extension.Flow

/-! # Components of an extended program

A function declaration whose name and identifiers are new does not interfere with the program
that it is appended to.  An entry of an object literal looks for the calls that take the
variable of the literal, and may search the whole program for them, but it finds no new ones:
none of the new identifiers is spelled like the variable.  So each old node is judged as
before, and the old components are found in the old order, under the old names.  All that the
declaration adds comes behind them.
-/
namespace ComponentScan.Tree

/-- What an entry belongs to is the parent of some node. -/
theorem exists_parent?_of_mem_containers {t : Tree} {n k : Nat} (h : k ∈ t.containers n) :
    ∃ m, t.parent? m = some k := by
  unfold containers at h
  split at h
  · cases h
  · next parent hparent =>
    split at h
    · exact ⟨parent, Option.mem_toList.mp h⟩
    · split at h
      · split at h
        · rw [List.mem_singleton.mp h]
          exact ⟨n, hparent⟩
        · next holder hholder =>
          split at h
          · next call _ hcall =>
            rw [List.mem_singleton.mp h]
            exact ⟨holder, hcall⟩
          · rcases List.mem_cons.mp h with rfl | h
            · exact ⟨n, hparent⟩
            · split at h
              · obtain ⟨i, -, arguments, -, -, hcall⟩ := mem_callsTaking.mp h
                exact ⟨arguments, hcall⟩
              · cases h
          · rw [List.mem_singleton.mp h]
            exact ⟨n, hparent⟩
      · cases h

namespace Extends
variable {t t' : Tree} (h : t'.Extends t) {n : Nat}
include h

/-! ## Calls that take a variable -/

theorem contents_preorder_eq_append (hn : n < t.size) : (Descent.contents t').preorder n =
    (Descent.contents t).preorder n ++
      if n = Table.root then (Descent.contents t').preorder t.size else [] := by
  have hnext : ∀ m, t.IsInner m → (Descent.contents t').next m = (Descent.contents t).next m :=
    fun _ => h.contents_eq
  split
  · next hroot =>
    rw [hroot]
    refine Descent.preorder_root_of_append hnext ?_
    have hcontents := h.contents_eq_append t.root_lt_size
    rwa [if_pos rfl] at hcontents
  · next hroot => rw [List.append_nil, Descent.preorder_congr hnext ⟨hn, hroot⟩]

theorem callsTaking_eq (hn : t.IsInner n) : t'.callsTaking n = t.callsTaking n := by
  unfold callsTaking
  rw [h.child?_eq hn, h.ancestors_eq hn.1,
    List.find?_congr fun a ha => by rw [h.type_eq (lt_size_of_mem_ancestors ha)]]
  split
  · next name block hname hblock =>
    have hname := lt_size_of_child? hname
    have hblock := lt_size_of_mem_ancestors (List.mem_of_find?_eq_some hblock)
    rw [h.type_eq hname, h.text_eq hname]
    split
    · next hidentifier =>
      have hvisit' : visit t'.contents t'.size [block] = _ :=
        (Descent.contents t').visit_eq_preorder block
      have hvisit : visit t.contents t.size [block] = _ :=
        (Descent.contents t).visit_eq_preorder block
      rw [hvisit', hvisit, h.contents_preorder_eq_append hblock, List.filterMap_append]
      refine (congrArg₂ (· ++ ·) (List.filterMap_congr fun i hi => ?_) ?_).trans
        (List.append_nil _)
      · -- an old identifier stands where it stood, and is bound where it was
        have hi := ((Descent.contents t).mem_preorder.mp hi).lt_size hblock
        rw [h.type_eq hi, h.text_eq hi, h.parent?_eq hi]
        refine Option.bind_congr fun _ hguard => Option.bind_congr fun arguments harguments => ?_
        obtain ⟨htype, -⟩ := (Option.guard_eq_some' _).mp hguard
        have hlt := parent_lt_size harguments
        rw [h.type_eq hlt, h.parent?_eq hlt, h.binding?_eq hi (by rw [htype]; rfl)]
      · -- the identifiers of the new declaration are spelled differently
        refine List.filterMap_eq_nil_iff.mpr fun i hi => ?_
        split at hi
        · have hle := le_of_mem_ancestors
            ((Descent.contents t').mem_preorder.mp hi).mem_ancestors
          refine Option.bind_eq_none_iff.mpr fun _ hguard => ?_
          obtain ⟨htype, htext⟩ := (Option.guard_eq_some' _).mp hguard
          exact absurd htext (h.fresh i name hle (.inl htype) hname (by rw [hidentifier]; rfl))
        · cases hi
    · rfl
  · rfl

theorem containers_eq (hn : n < t.size) : t'.containers n = t.containers n := by
  unfold containers
  rw [h.parent?_eq hn]
  split
  · rfl
  · next parent hparent =>
    have hlt := parent_lt_size hparent
    rw [h.type_eq hlt, h.parent?_eq hlt, h.construct_eq hlt]
    split
    · rfl
    · split
      · split
        · rfl
        · next holder hholder =>
          have hlt := parent_lt_size hholder
          rw [h.type_eq hlt, h.parent?_eq hlt]
          split
          · rfl
          · next htype =>
            have hinner := h.inner_of_type hlt (by simp [htype])
            rw [h.child?_eq hinner, h.callsTaking_eq hinner]
          · rfl
      · rfl

/-! ## Stateless components -/

theorem isPartOfComponent_eq (hn : n < t.size) :
    t'.isPartOfComponent n = t.isPartOfComponent n := by
  have hclass {k : Nat} (hk : k ∈ t.containers n) :
      (t'.createsClass k || t'.isComponentClass k) =
        (t.createsClass k || t.isComponentClass k) := by
    obtain ⟨m, hm⟩ := exists_parent?_of_mem_containers hk
    have hlt := parent_lt_size hm
    rw [h.createsClass_eq hlt, h.isComponentClass_eq hlt]
  rw [isPartOfComponent, h.containers_eq hn, isPartOfComponent, Bool.eq_iff_iff, List.any_eq_true,
    List.any_eq_true]
  constructor
  · rintro ⟨k, hk, hpart⟩
    exact ⟨k, hk, hclass hk ▸ hpart⟩
  · rintro ⟨k, hk, hpart⟩
    exact ⟨k, hk, (hclass hk).symm ▸ hpart⟩

/-- **Every old node is judged as before.** -/
theorem isStateless_eq (hn : n < t.size) : t'.isStateless n = t.isStateless n := by
  rw [isStateless, isStateless, h.construct_eq hn, h.isPartOfComponent_eq hn,
    h.mayReturnElement_eq hn]

/-! ## Definitions -/

theorem judgedNode?_eq (hn : n < t.size) : t'.judgedNode? n = t.judgedNode? n := by
  unfold judgedNode?
  rw [h.parent?_eq hn]
  split
  · rfl
  · next parent hparent =>
    have hlt := parent_lt_size hparent
    have hclass : (t.parent? parent).any (t'.type · = .classBody) =
        (t.parent? parent).any (t.type · = .classBody) :=
      any_congr fun p hp => by rw [h.type_eq (parent_lt_size hp)]
    rw [h.construct_eq hlt, h.parent?_eq hlt, hclass]

theorem definitionAt?_eq (hn : n < t.size) : t'.definitionAt? n = t.definitionAt? n := by
  unfold definitionAt?
  rw [h.construct_eq hn]
  cases hconstruct : t.construct n with
  | functionDeclaration | functionExpression | arrowFunction =>
    simp only [h.judgedNode?_eq hn]
    refine Option.bind_congr fun candidate hcandidate => ?_
    have hlt : candidate < t.size := by
      rcases judgedNode?_cases hcandidate with rfl | hparent
      · exact hn
      · exact parent_lt_size hparent
    rw [h.isStateless_eq hlt]
  | property =>
    have hobject : (t.parent? n).any (t'.construct · = .object) =
        (t.parent? n).any (t.construct · = .object) :=
      any_congr fun p hp => by rw [h.construct_eq (parent_lt_size hp)]
    simp only [h.type_eq hn, h.parent?_eq hn, hobject, h.isStateless_eq hn]
  | classDefinition => simp only [h.isComponentClass_eq hn]
  | call =>
    have hinner := h.inner_of_construct (n := n) (by simp [hconstruct])
    simp only [h.createsClass_eq hn, h.specObject?_eq hinner]
  | _ => rfl

theorem nodesInOrder_eq_append :
    t'.nodesInOrder = t.nodesInOrder ++ (Descent.namedChildren t').preorder t.size := by
  have hchildren := h.namedChildren_eq_append t.root_lt_size
  rw [if_pos rfl] at hchildren
  calc t'.nodesInOrder
    _ = (Descent.namedChildren t').preorder Table.root :=
      (Descent.namedChildren t').visit_eq_preorder _
    _ = (Descent.namedChildren t).preorder Table.root ++
        (Descent.namedChildren t').preorder t.size :=
      Descent.preorder_root_of_append (fun _ => h.namedChildren_eq) hchildren
    _ = t.nodesInOrder ++ (Descent.namedChildren t').preorder t.size := by
      rw [← (Descent.namedChildren t).visit_eq_preorder]
      rfl

/-- The old definitions come first. -/
theorem definitions_eq_append : t'.definitions = t.definitions ++
    ((Descent.namedChildren t').preorder t.size).filterMap t'.definitionAt? := by
  rw [definitions, h.nodesInOrder_eq_append, List.filterMap_append, definitions,
    List.filterMap_congr fun n hn => h.definitionAt?_eq ?_]
  exact (mem_nodesInOrder.mp hn).lt_size t.root_lt_size

/-! ## Names -/

theorem ownName?_eq (hn : t.IsInner n) : t'.ownName? n = t.ownName? n := by
  unfold ownName?
  rw [h.child?_eq hn, h.child?_eq hn, h.child?_eq hn]
  refine Option.bind_congr fun name hname => ?_
  have hlt : name < t.size := by
    rcases Option.or_eq_some_iff.mp hname with hname | ⟨-, hname⟩
    · rcases Option.or_eq_some_iff.mp hname with hname | ⟨-, hname⟩ <;>
        exact lt_size_of_child? hname
    · exact lt_size_of_child? hname
  rw [h.type_eq hlt, h.text_eq hlt]

theorem holderName?_eq (hn : n < t.size) : t'.holderName? n = t.holderName? n := by
  unfold holderName?
  rw [h.ancestors_eq hn]
  rw [List.find?_congr fun a ha => by rw [h.type_eq (lt_size_of_mem_ancestors ha)]]
  refine Option.bind_congr fun holder hholder => ?_
  have hholder := lt_size_of_mem_ancestors (List.mem_of_find?_eq_some hholder)
  rw [h.type_eq hholder]
  cases htype : t.type holder with
  | variableDeclarator =>
    simp only [h.child?_eq (h.inner_of_type hholder (by simp [htype]))]
    refine Option.bind_congr fun name hname => ?_
    rw [h.type_eq (lt_size_of_child? hname), h.text_eq (lt_size_of_child? hname)]
  | assignmentExpression | pair =>
    simp only [h.child?_eq (h.inner_of_type hholder (by simp [htype]))]
    refine Option.map_congr fun c hc => ?_
    rw [h.text_eq (lt_size_of_child? hc)]
  | _ => rfl

/-- An old definition is reported as before. -/
theorem component_eq {d : Definition} (hd : d ∈ t.definitions) :
    t'.component d = t.component d := by
  obtain ⟨n, hn, hat⟩ := List.mem_filterMap.mp hd
  have hn := (mem_nodesInOrder.mp hn).lt_size t.root_lt_size
  have hnodes : t.IsInner d.subject ∧ d.site < t.size := by
    cases definedAt_of_definitionAt? hat with
    | function _ _ hstateless =>
      refine ⟨h.inner_of_construct fun hother => ?_, hn⟩
      rcases construct_of_isStateless hstateless with hs | hs <;> rw [hother] at hs <;> cases hs
    | method hc | classBased hc => exact ⟨h.inner_of_construct (by simp [hc]), hn⟩
    | createClass hc =>
      refine ⟨h.inner_of_construct (by simp [hc]), ?_⟩
      cases hspec : t.specObject? n with
      | none => simpa using hn
      | some o => simpa using lt_size_of_construct (by simp [construct_of_specObject? hspec])
  rw [component, component, h.span_eq hnodes.2, componentName?, componentName?,
    h.type_eq hnodes.1.1, h.ownName?_eq hnodes.1, h.holderName?_eq hnodes.1.1]

end Extends

/-- **Unrelated code does not interfere.**  If a program is extended by a function declaration
whose name and identifiers are new, then every old node has the same value, comes from the
same module and is judged in the same way.  The components are the old ones, reported as
before, followed by what nodes of the new declaration define. -/
theorem unrelated_function_changes_nothing {t t' : Tree} (h : t'.Extends t) :
    (∀ n < t.size, t'.value n = t.value n ∧ t'.moduleOf? n = t.moduleOf? n ∧
      t'.isStateless n = t.isStateless n) ∧
    ∃ new, t'.definitions = t.definitions ++ new ∧
      t'.components = t.components ++ new.map t'.component ∧
      ∀ d ∈ new, ∃ n, t.size ≤ n ∧ n < t'.size ∧ t'.definitionAt? n = some d := by
  refine ⟨fun n hn => ⟨h.value_eq hn, h.moduleOf?_eq hn, h.isStateless_eq hn⟩, _,
    h.definitions_eq_append, ?_, ?_⟩
  · rw [components, h.definitions_eq_append, List.map_append, components,
      List.map_congr_left fun d hd => h.component_eq hd]
  · intro d hd
    obtain ⟨n, hn, hat⟩ := List.mem_filterMap.mp hd
    have hbelow := (Descent.namedChildren t').mem_preorder.mp hn
    exact ⟨n, le_of_mem_ancestors hbelow.mem_ancestors, hbelow.lt_size h.size_lt, hat⟩

/-- The rows of `var a=()=><b/>;a`. -/
def arrowRows : Array Node := #[
  ⟨.program, none, 0, 16, none, true⟩,
  ⟨.variableDeclaration, some 0, 0, 15, none, true⟩,
  ⟨.variableDeclarator, some 1, 4, 14, none, true⟩,
  ⟨.identifier, some 2, 4, 5, some .name, true⟩,
  ⟨.arrowFunction, some 2, 6, 14, some .value, true⟩,
  ⟨.formalParameters, some 4, 6, 8, some .parameters, true⟩,
  ⟨.jsxSelfClosingElement, some 4, 10, 14, some .body, true⟩,
  ⟨.identifier, some 6, 11, 12, some .name, true⟩,
  ⟨.expressionStatement, some 0, 15, 16, none, true⟩,
  ⟨.identifier, some 8, 15, 16, none, true⟩]

/-- The rows of `function c(){return <d/>}` behind it. -/
def helperRows : Array Node := #[
  ⟨.functionDeclaration, some 0, 16, 41, none, true⟩,
  ⟨.identifier, some 10, 25, 26, some .name, true⟩,
  ⟨.formalParameters, some 10, 26, 28, some .parameters, true⟩,
  ⟨.statementBlock, some 10, 28, 41, some .body, true⟩,
  ⟨.returnStatement, some 13, 29, 40, none, true⟩,
  ⟨.jsxSelfClosingElement, some 14, 36, 40, none, true⟩,
  ⟨.identifier, some 15, 37, 38, some .name, true⟩]

def arrowProgram : Tree :=
  Table.toTree {
    source := Utf8.encode "var a=()=><b/>;a"
    nodes := arrowRows
    nonempty := by decide
    ordered := by decide }

def arrowAndHelper : Tree :=
  Table.toTree {
    source := Utf8.encode "var a=()=><b/>;afunction c()\x7breturn <d/>\x7d"
    nodes := arrowRows ++ helperRows
    nonempty := by decide
    ordered := by decide }

theorem arrowAndHelper_extends : arrowAndHelper.Extends arrowProgram where
  program := rfl
  within := by decide +kernel
  source := ⟨Utf8.encode "function c()\x7breturn <d/>\x7d", by decide +kernel⟩
  rows := ⟨helperRows, rfl⟩
  declaration := by decide +kernel
  inside n p hn hp := by
    have hall : ∀ n < arrowAndHelper.size, arrowProgram.size < n →
        (arrowAndHelper.parent? n).all (arrowProgram.size ≤ ·) = true := by decide +kernel
    simpa [hp] using hall n (Table.lt_size_of_parent? hp) hn
  fresh n m hn hnew hm hidentifier := by
    have hnews : ∀ n < arrowAndHelper.size, arrowProgram.size ≤ n →
        arrowAndHelper.type n = .identifier → arrowAndHelper.text n ∈ ["c", "d"] := by
      decide +kernel
    have holds : ∀ m < arrowProgram.size, (arrowProgram.type m).isIdentifier = true →
        arrowProgram.text m ∈ ["a", "b"] := by decide +kernel
    have hname : arrowAndHelper.child? arrowProgram.size .name = some 11 := by decide +kernel
    have htype : arrowAndHelper.type n = .identifier := by
      rcases hnew with htype | hchild
      · exact htype
      · cases hname.symm.trans hchild
        rfl
    have hdisjoint : ∀ text ∈ ["c", "d"], text ∉ ["a", "b"] := by decide
    have hnew := hnews n (Table.lt_size_of_type (by simp [htype])) hn htype
    intro heq
    exact hdisjoint _ hnew (heq ▸ holds m hm hidentifier)

/-- The alias is resolved through the declarations of the program, to which one was added. -/
theorem alias_resolves_past_the_helper : arrowAndHelper.Extends arrowProgram ∧
    arrowProgram.value 9 = 4 ∧ arrowAndHelper.value 9 = 4 ∧
    arrowProgram.definitions = [⟨.stateless, 4, 4⟩] ∧
    ∃ new, arrowAndHelper.definitions = ⟨.stateless, 4, 4⟩ :: new ∧ new ≠ [] := by
  obtain ⟨hold, new, hdefinitions, -, -⟩ :=
    unrelated_function_changes_nothing arrowAndHelper_extends
  have hvalue : arrowProgram.value 9 = 4 := by decide +kernel
  have hone : arrowProgram.definitions = [⟨.stateless, 4, 4⟩] := by decide +kernel
  have htwo : arrowAndHelper.definitions.length = 2 := by decide +kernel
  rw [hone] at hdefinitions
  refine ⟨arrowAndHelper_extends, hvalue, ?_, hone, new, hdefinitions, ?_⟩
  · rw [(hold 9 (by decide)).1, hvalue]
  · rintro rfl
    rw [hdefinitions] at htwo
    cases htwo

end ComponentScan.Tree
