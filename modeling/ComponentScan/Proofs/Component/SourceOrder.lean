import ComponentScan.Component.Name
import ComponentScan.Proofs.Component.Definition
import ComponentScan.Proofs.Tree.Layout
import ComponentScan.Proofs.Tree.Scope

/-! # Components and the order of the source

Nodes are visited in the order of the source, and most components are said to be at the node
that is visited.  Only a call that makes a class is different: its component is at the object
literal that the call is handed, and the object may stand anywhere, far before the call if a
variable holds it.  So the components are in the order of the source if and only if these
objects are in place (`components_in_source_order_iff`).  They are if every one of them is
written inside its call, with no other component inside the call before it.
-/
namespace ComponentScan

/-- No component starts at an earlier place than one before it in the list. -/
def InSourceOrder (components : List Component) : Prop :=
  components.Pairwise fun a b => a.span.start ≤ b.span.start

instance (components : List Component) : Decidable (InSourceOrder components) :=
  inferInstanceAs (Decidable (components.Pairwise _))

namespace Tree

/-- When the node `n` is visited, a component is found, and said to be at the node `s`. -/
def ReportsAt (t : Tree) (n s : Nat) : Prop :=
  t.Linked n ∧ ∃ d, t.definitionAt? n = some d ∧ d.site = s

/-- The call `c` makes a class from the object literal `s`. -/
structure MakesClassFrom (t : Tree) (c s : Nat) : Prop where
  linked : t.Linked c
  call : t.construct c = .call
  creates : t.createsClass c = true
  object : t.specObject? c = some s

/-- The object literal `s` starts behind the components that are found before the call `c`, and
before those that are found after it. -/
def InPlace (t : Tree) (c s : Nat) : Prop :=
  ∀ m e, t.ReportsAt m e →
    (m < c → (t.span e).start ≤ (t.span s).start) ∧ (c < m → (t.span s).start ≤ (t.span e).start)

/-- The object literal `s` stands inside the call `c`, before all components that are found
inside the call. -/
def WrittenInside (t : Tree) (c s : Nat) : Prop :=
  t.Encloses c s ∧
    ∀ m e, t.ReportsAt m e → t.Encloses c m → (t.span s).start ≤ (t.span e).start

section Order
variable {t : Tree} {c e m n s : Nat}

theorem Linked.lt_size (h : t.Linked n) : n < t.size :=
  Descent.Below.lt_size h t.nonempty

/-- A definition that makes no class from an object is located at its own node. -/
theorem site_cases {d : Definition} (hn : t.Linked n) (h : t.definitionAt? n = some d) :
    d.site = n ∨ d.form = .createClass ∧ t.MakesClassFrom n d.site := by
  cases definedAt_of_definitionAt? h with
  | function | method | classBased => exact .inl rfl
  | createClass hcall hcreates =>
    cases hobject : t.specObject? n with
    | none => exact .inl rfl
    | some s => exact .inr ⟨rfl, hn, hcall, hcreates, hobject⟩

theorem ReportsAt.cases (h : t.ReportsAt n s) : s = n ∨ t.MakesClassFrom n s := by
  obtain ⟨hn, d, hd, rfl⟩ := h
  exact (site_cases hn hd).imp_right And.right

theorem MakesClassFrom.reportsAt (h : t.MakesClassFrom c s) : t.ReportsAt c s := by
  refine ⟨h.linked, ⟨.createClass, c, s⟩, ?_, rfl⟩
  simp [definitionAt?, h.call, h.creates, h.object]

/-! ## From the list to the nodes -/

/-- Of two components, the one that is found at the earlier row comes first. -/
theorem pairwise_components_iff (h : t.LaidOut) {R : Component → Component → Prop} :
    t.components.Pairwise R ↔
      ∀ m n d e, t.Linked m → t.Linked n → m < n → t.definitionAt? m = some d →
        t.definitionAt? n = some e → R (t.component d) (t.component e) := by
  rw [components, definitions, List.pairwise_map, List.pairwise_filterMap,
    pairwise_iff_of_pairwise_lt h.pairwise_lt_nodesInOrder]
  simp only [mem_nodesInOrder]
  constructor
  · intro hpairs m n d e hm hn hlt hd he
    exact hpairs m hm n hn hlt d hd e he
  · intro hpairs m hm n hn hlt d hd e he
    exact hpairs m n d e hm hn hlt hd he

/-- The order of the components is the order of where they are said to be. -/
theorem inSourceOrder_components_iff (h : t.LaidOut) :
    InSourceOrder t.components ↔ ∀ m n e s, t.ReportsAt m e → t.ReportsAt n s → m < n →
      (t.span e).start ≤ (t.span s).start := by
  rw [InSourceOrder, pairwise_components_iff h]
  constructor
  · rintro hpairs m n _ _ ⟨hm, d, hd, rfl⟩ ⟨hn, e, he, rfl⟩ hlt
    exact hpairs m n d e hm hn hlt hd he
  · intro hpairs m n d e hm hn hlt hd he
    exact hpairs m n d.site e.site ⟨hm, d, hd, rfl⟩ ⟨hn, e, he, rfl⟩ hlt

/-- Two components that are said to be at the nodes where they are found are in order. -/
theorem LaidOut.start_span_le (h : t.LaidOut) (hlt : m < n) (hn : t.Linked n) :
    (t.span m).start ≤ (t.span n).start :=
  Tree.start_span_le (h.start_le hlt hn.lt_size)

/-- Without the calls that make classes, the components are in order. -/
theorem inSourceOrder_filter (h : t.LaidOut) :
    InSourceOrder (t.components.filter (·.form ≠ .createClass)) := by
  rw [InSourceOrder, List.pairwise_filter, pairwise_components_iff h]
  intro m n d e hm hn hlt hd he hdform heform
  have hdform : d.form ≠ .createClass := of_decide_eq_true hdform
  have heform : e.form ≠ .createClass := of_decide_eq_true heform
  have hdsite : d.site = m := (site_cases hm hd).resolve_right fun h => hdform h.1
  have hesite : e.site = n := (site_cases hn he).resolve_right fun h => heform h.1
  simpa only [component, hdsite, hesite] using h.start_span_le hlt hn

/-! ## Objects that are written inside their calls -/

/-- Where a component is found, there it starts, if its object is inside its call. -/
theorem LaidOut.within_of_reportsAt (h : t.LaidOut) (hreports : t.ReportsAt n s)
    (hinside : t.MakesClassFrom n s → t.Encloses n s) :
    t.startOffset n ≤ t.startOffset s ∧ t.startOffset s ≤ t.stopOffset n := by
  have hencloses : t.Encloses n s := by
    rcases hreports.cases with rfl | hmakes
    · exact .refl t s
    · exact hinside hmakes
  have hs : s < t.size := hencloses.lt_size hreports.1.lt_size
  obtain ⟨hstart, hstop⟩ := h.nested_of_encloses hs hencloses
  exact ⟨hstart, Nat.le_trans (h.covers s hs).1 hstop⟩

/-- If all objects are written inside their calls, then of two components the one found first
starts first. -/
theorem start_le_of_writtenInside (h : t.LaidOut)
    (hinside : ∀ c s, t.MakesClassFrom c s → t.WrittenInside c s) (hm : t.ReportsAt m e)
    (hn : t.ReportsAt n s) (hlt : m < n) : (t.span e).start ≤ (t.span s).start := by
  have he := h.within_of_reportsAt hm fun hmakes => (hinside m e hmakes).1
  have hs := h.within_of_reportsAt hn fun hmakes => (hinside n s hmakes).1
  rcases h.encloses_or_stop_le hlt hn.1.lt_size with hencloses | hends
  · rcases hm.cases with rfl | hmakes
    · exact Tree.start_span_le (Nat.le_trans (h.start_le hlt hn.1.lt_size) hs.1)
    · -- the second component is inside the call, where the object comes first
      exact (hinside m e hmakes).2 n s hn hencloses
  · apply Tree.start_span_le
    omega

end Order

/-- **When the components are in the order of the source.**  In the tree of a parse, the
components that are no calls are always in order.  All of them are if and only if the objects
that classes are made from are in place.  For this it is enough that each of them is written
inside its call, before any other component there. -/
theorem components_in_source_order_iff {t : Tree} (h : t.LaidOut) :
    InSourceOrder (t.components.filter (·.form ≠ .createClass)) ∧
    (InSourceOrder t.components ↔ ∀ c s, t.MakesClassFrom c s → t.InPlace c s) ∧
    ((∀ c s, t.MakesClassFrom c s → t.WrittenInside c s) → InSourceOrder t.components) := by
  refine ⟨inSourceOrder_filter h, ?_, fun hinside => ?_⟩
  · rw [inSourceOrder_components_iff h]
    constructor
    · intro hpairs c s hmakes m e hm
      exact ⟨hpairs m c e s hm hmakes.reportsAt, hpairs c m s e hmakes.reportsAt hm⟩
    · intro hplace m n e s hm hn hlt
      rcases hm.cases with rfl | hmakes
      · rcases hn.cases with rfl | hmakes
        · exact h.start_span_le hlt hn.1
        · exact (hplace n s hmakes e e hm).1 hlt
      · exact (hplace m e hmakes n s hn).2 hlt
  · rw [inSourceOrder_components_iff h]
    intro m n e s hm hn hlt
    exact start_le_of_writtenInside h hinside hm hn hlt

/-- The tree of `var A=()=><b/>,s={};require('react').createClass(s)`. -/
def objectBehindComponent : Tree :=
  Table.toTree {
    source := Utf8.encode "var A=()=><b/>,s=\x7b\x7d;require('react').createClass(s)"
    nodes := #[
      ⟨.program, none, 0, 51, none, true⟩,
      ⟨.variableDeclaration, some 0, 0, 20, none, true⟩,
      ⟨.variableDeclarator, some 1, 4, 14, none, true⟩,
      ⟨.identifier, some 2, 4, 5, some .name, true⟩,
      ⟨.arrowFunction, some 2, 6, 14, some .value, true⟩,
      ⟨.formalParameters, some 4, 6, 8, some .parameters, true⟩,
      ⟨.jsxSelfClosingElement, some 4, 10, 14, some .body, true⟩,
      ⟨.identifier, some 6, 11, 12, some .name, true⟩,
      ⟨.variableDeclarator, some 1, 15, 19, none, true⟩,
      ⟨.identifier, some 8, 15, 16, some .name, true⟩,
      ⟨.object, some 8, 17, 19, some .value, true⟩,
      ⟨.expressionStatement, some 0, 20, 51, none, true⟩,
      ⟨.callExpression, some 11, 20, 51, none, true⟩,
      ⟨.memberExpression, some 12, 20, 48, some .function, true⟩,
      ⟨.callExpression, some 13, 20, 36, some .object, true⟩,
      ⟨.identifier, some 14, 20, 27, some .function, true⟩,
      ⟨.arguments, some 14, 27, 36, some .arguments, true⟩,
      ⟨.string, some 16, 28, 35, none, true⟩,
      ⟨.other "string_fragment", some 17, 29, 34, none, true⟩,
      ⟨.propertyIdentifier, some 13, 37, 48, some .property, true⟩,
      ⟨.arguments, some 12, 48, 51, some .arguments, true⟩,
      ⟨.identifier, some 20, 49, 50, none, true⟩]
    nonempty := by decide
    ordered := by decide }

/-- The object is not in the call, but still between the function and the call. -/
theorem object_behind_component_in_place :
    objectBehindComponent.LaidOut ∧
    InSourceOrder objectBehindComponent.components ∧
    objectBehindComponent.InPlace 12 10 := by
  have hlaid : objectBehindComponent.LaidOut := by
    refine ⟨?_, by decide +kernel, by decide +kernel, by decide +kernel⟩
    rw [← Descent.visit_eq_preorder]
    decide +kernel
  have horder : InSourceOrder objectBehindComponent.components := by decide +kernel
  have hmakes : objectBehindComponent.MakesClassFrom 12 10 :=
    ⟨by decide +kernel, by decide +kernel, by decide +kernel, by decide +kernel⟩
  exact ⟨hlaid, horder, (components_in_source_order_iff hlaid).2.1.mp horder 12 10 hmakes⟩

/-- The tree of `var s={},A=()=><b/>;require('react').createClass(s)`. -/
def objectBeforeComponent : Tree :=
  Table.toTree {
    source := Utf8.encode "var s=\x7b\x7d,A=()=><b/>;require('react').createClass(s)"
    nodes := #[
      ⟨.program, none, 0, 51, none, true⟩,
      ⟨.variableDeclaration, some 0, 0, 20, none, true⟩,
      ⟨.variableDeclarator, some 1, 4, 8, none, true⟩,
      ⟨.identifier, some 2, 4, 5, some .name, true⟩,
      ⟨.object, some 2, 6, 8, some .value, true⟩,
      ⟨.variableDeclarator, some 1, 9, 19, none, true⟩,
      ⟨.identifier, some 5, 9, 10, some .name, true⟩,
      ⟨.arrowFunction, some 5, 11, 19, some .value, true⟩,
      ⟨.formalParameters, some 7, 11, 13, some .parameters, true⟩,
      ⟨.jsxSelfClosingElement, some 7, 15, 19, some .body, true⟩,
      ⟨.identifier, some 9, 16, 17, some .name, true⟩,
      ⟨.expressionStatement, some 0, 20, 51, none, true⟩,
      ⟨.callExpression, some 11, 20, 51, none, true⟩,
      ⟨.memberExpression, some 12, 20, 48, some .function, true⟩,
      ⟨.callExpression, some 13, 20, 36, some .object, true⟩,
      ⟨.identifier, some 14, 20, 27, some .function, true⟩,
      ⟨.arguments, some 14, 27, 36, some .arguments, true⟩,
      ⟨.string, some 16, 28, 35, none, true⟩,
      ⟨.other "string_fragment", some 17, 29, 34, none, true⟩,
      ⟨.propertyIdentifier, some 13, 37, 48, some .property, true⟩,
      ⟨.arguments, some 12, 48, 51, some .arguments, true⟩,
      ⟨.identifier, some 20, 49, 50, none, true⟩]
    nonempty := by decide
    ordered := by decide }

/-- The object stands before the function, yet its component is found after it. -/
theorem object_before_component_out_of_order :
    objectBeforeComponent.LaidOut ∧
    objectBeforeComponent.components.map Component.span =
      [⟨⟨0, 11⟩, ⟨0, 19⟩⟩, ⟨⟨0, 6⟩, ⟨0, 8⟩⟩] ∧
    ¬ InSourceOrder objectBeforeComponent.components := by
  refine ⟨⟨?_, by decide +kernel, by decide +kernel, by decide +kernel⟩, by decide +kernel,
    by decide +kernel⟩
  rw [← Descent.visit_eq_preorder]
  decide +kernel

end Tree

end ComponentScan
