import ComponentScan.Proofs.Component.Definition
import ComponentScan.Proofs.Flow.Graph
import ComponentScan.Proofs.Tree.Scope

/-! # The function of an entry

An entry of an object literal or a member of a class is judged by its function: its value,
with parentheses and type annotations taken off.  The list of definitions goes the other way
round.  It comes to a function, and judges the entry in its place if the function is the value
of one; the values of class members are not judged at all.

The way back looks at the parent of the function only.  So the two ways agree on a function
that is the value of its entry as it stands.  A function inside a wrapper is not brought back
to its entry but judged by itself, so that it is reported whatever its entry belongs to
(`function_of_entry_is_reported_iff`); a pair of parentheses is enough to make a component of
the member of a class.
-/
namespace ComponentScan.Tree

/-- A stateless component is said to be at the node `f`. -/
def ReportsStatelessAt (t : Tree) (f : Nat) : Prop :=
  ∃ d ∈ t.definitions, d.form = .stateless ∧ d.site = f

/-- The entry `e` is a member of a class. -/
def IsClassMember (t : Tree) (e : Nat) : Prop :=
  ∃ body, t.parent? e = some body ∧ t.type body = .classBody

section Functions
variable {t : Tree} {e f s w : Nat}

/-! ## From a function to what is judged -/

theorem definitionAt?_of_judgedNode? (hf : (t.construct f).isFunction = true)
    (hjudged : t.judgedNode? f = some s) (hs : t.isStateless s = true) :
    t.definitionAt? f = some ⟨.stateless, s, f⟩ := by
  unfold definitionAt?
  cases hc : t.construct f with
  | functionDeclaration | functionExpression | arrowFunction => simp [hjudged, hs]
  | _ => rw [hc] at hf; cases hf

/-- A function is reported if it is visited and what is judged in its place is a stateless
component. -/
theorem reportsStatelessAt_iff (hf : (t.construct f).isFunction = true) :
    t.ReportsStatelessAt f ↔
      t.Linked f ∧ ∃ s, t.judgedNode? f = some s ∧ t.isStateless s = true := by
  constructor
  · rintro ⟨d, hd, hform, hsite⟩
    obtain ⟨n, hn, hat⟩ := List.mem_filterMap.mp hd
    cases definedAt_of_definitionAt? hat with
    | function _ hjudged hstateless =>
      obtain rfl : n = f := hsite
      exact ⟨mem_nodesInOrder.mp hn, _, hjudged, hstateless⟩
    | method hproperty =>
      -- a method is no function of its own
      obtain rfl : n = f := hsite
      rw [hproperty] at hf
      cases hf
    | classBased | createClass => cases hform
  · rintro ⟨hlinked, s, hjudged, hstateless⟩
    have hat := definitionAt?_of_judgedNode? hf hjudged hstateless
    exact ⟨_, List.mem_filterMap.mpr ⟨f, mem_nodesInOrder.mpr hlinked, hat⟩, rfl, rfl⟩

/-- In the place of the value of an entry, the entry is judged, unless it is the member of a
class. -/
theorem judgedNode?_of_entry (hentry : t.construct e = .property) (hparent : t.parent? f = some e) :
    t.judgedNode? f = some s ↔ ¬ t.IsClassMember e ∧ s = e := by
  have hmember : (t.parent? e).any (t.type · = .classBody) = true ↔ t.IsClassMember e := by
    simp [Option.any_eq_true, IsClassMember]
  rw [judgedNode?, hparent]
  dsimp only
  rw [if_pos hentry]
  by_cases h : t.IsClassMember e
  · rw [if_pos (hmember.mpr h)]
    simp [h]
  · rw [if_neg fun hany => h (hmember.mp hany)]
    simp [h, eq_comm]

/-- A function inside a wrapper is judged by itself. -/
theorem judgedNode?_of_wrapper (hw : (t.type w).isTransparent = true)
    (hparent : t.parent? f = some w) : t.judgedNode? f = some f := by
  have hother := construct_of_isTransparent hw
  simp [judgedNode?, hparent, hother]

/-! ## From an entry to its function -/

/-- The function of an entry is its value without wrappers. -/
theorem value_of_decidingFunction? (hentry : t.construct e = .property)
    (hf : t.decidingFunction? e = some f) (hne : f ≠ e) :
    (t.construct f).isFunction = true ∧ ∃ v, t.child? e .value = some v ∧ t.unwrap v = f := by
  have hself : t.unwrap e = e := unwrap_of_construct (by simp [hentry])
  cases decidingFunction?_eq_some_iff.mp hf with
  | function h | method h => exact absurd (h.symm.trans hself) hne
  | value h _ _ hv hunwrap hfunction =>
    rw [hself] at h
    subst h
    exact ⟨hfunction, _, hv, hunwrap⟩

/-- An entry is a stateless component if its function is one, and the entry is no part of
another component. -/
theorem isStateless_entry_iff (hentry : t.construct e = .property)
    (hf : t.decidingFunction? e = some f) (hfunction : (t.construct f).isFunction = true) :
    t.isStateless e = true ↔ t.isStateless f = true ∧ t.isPartOfComponent e = false := by
  have hreturns : t.mayReturnElement e = t.mayReturnElement f := by
    rw [mayReturnElement, mayReturnElement, hf,
      decidingFunction?_of_isFunctionNode (.inl hfunction)]
  rw [isStateless_iff, isStateless_iff, hreturns]
  constructor
  · rintro ⟨hself | ⟨-, hpart⟩, helement⟩
    · rw [hentry] at hself
      cases hself
    · exact ⟨⟨.inl hfunction, helement⟩, hpart⟩
  · rintro ⟨⟨-, helement⟩, hpart⟩
    exact ⟨.inr ⟨hentry, hpart⟩, helement⟩

end Functions

/-- **When the function of an entry is reported.**  A function that is the value of its entry
is reported as a stateless component if the entry is one, and no member of a class.  A
function inside a wrapper is reported if it is a stateless component by itself, whatever its
entry is.  The entry is a stateless component if its function is one and the entry is no part
of another component. -/
theorem function_of_entry_is_reported_iff {t : Tree} {e f : Nat}
    (hentry : t.construct e = .property) (hf : t.decidingFunction? e = some f) (hne : f ≠ e) :
    (t.child? e .value = some f → (t.ReportsStatelessAt f ↔
      t.Linked f ∧ ¬ t.IsClassMember e ∧ t.isStateless e = true)) ∧
    (t.child? e .value ≠ some f → (t.ReportsStatelessAt f ↔
      t.Linked f ∧ t.isStateless f = true)) ∧
    (t.isStateless e = true ↔ t.isStateless f = true ∧ t.isPartOfComponent e = false) := by
  obtain ⟨hfunction, v, hv, hunwrap⟩ := value_of_decidingFunction? hentry hf hne
  refine ⟨?_, ?_, isStateless_entry_iff hentry hf hfunction⟩
  · intro hdirect
    rw [reportsStatelessAt_iff hfunction]
    simp only [judgedNode?_of_entry hentry (parent?_of_child? hdirect)]
    constructor
    · rintro ⟨hlinked, s, ⟨hmember, rfl⟩, hstateless⟩
      exact ⟨hlinked, hmember, hstateless⟩
    · rintro ⟨hlinked, hmember, hstateless⟩
      exact ⟨hlinked, e, ⟨hmember, rfl⟩, hstateless⟩
  · intro hwrapped
    rcases t.unwrap_eq_or_inside_wrapper v with hself | ⟨w, hparent, hw⟩
    · -- nothing was taken off, so the function is the value
      rw [← hself, hunwrap] at hv
      exact absurd hv hwrapped
    · rw [hunwrap] at hparent
      rw [reportsStatelessAt_iff hfunction, judgedNode?_of_wrapper hw hparent]
      simp

/-- The tree of `class A{a=()=><b/>}`. -/
def memberFunction : Tree :=
  Table.toTree {
    source := Utf8.encode "class A\x7ba=()=><b/>\x7d"
    nodes := #[
      ⟨.program, none, 0, 19, none, true⟩,
      ⟨.classDeclaration, some 0, 0, 19, none, true⟩,
      ⟨.identifier, some 1, 6, 7, some .name, true⟩,
      ⟨.classBody, some 1, 7, 19, some .body, true⟩,
      ⟨.fieldDefinition, some 3, 8, 18, none, true⟩,
      ⟨.propertyIdentifier, some 4, 8, 9, some .property, true⟩,
      ⟨.arrowFunction, some 4, 10, 18, some .value, true⟩,
      ⟨.formalParameters, some 6, 10, 12, some .parameters, true⟩,
      ⟨.jsxSelfClosingElement, some 6, 14, 18, some .body, true⟩,
      ⟨.identifier, some 8, 15, 16, some .name, true⟩]
    nonempty := by decide
    ordered := by decide }

/-- The function of the member can return an element, but it is not reported. -/
theorem member_function_is_not_reported :
    memberFunction.isStateless 6 = true ∧ ¬ memberFunction.ReportsStatelessAt 6 := by
  have hmember : memberFunction.IsClassMember 4 := ⟨3, by decide +kernel, by decide +kernel⟩
  have hreported := (function_of_entry_is_reported_iff (t := memberFunction) (e := 4) (f := 6)
    (by decide +kernel) (by decide +kernel) (by decide)).1 (by decide +kernel)
  refine ⟨by decide +kernel, ?_⟩
  rw [hreported]
  rintro ⟨-, hfree, -⟩
  exact hfree hmember

/-- The tree of `class A{a=(()=><b/>)}`. -/
def memberInParentheses : Tree :=
  Table.toTree {
    source := Utf8.encode "class A\x7ba=(()=><b/>)\x7d"
    nodes := #[
      ⟨.program, none, 0, 21, none, true⟩,
      ⟨.classDeclaration, some 0, 0, 21, none, true⟩,
      ⟨.identifier, some 1, 6, 7, some .name, true⟩,
      ⟨.classBody, some 1, 7, 21, some .body, true⟩,
      ⟨.fieldDefinition, some 3, 8, 20, none, true⟩,
      ⟨.propertyIdentifier, some 4, 8, 9, some .property, true⟩,
      ⟨.parenthesizedExpression, some 4, 10, 20, some .value, true⟩,
      ⟨.arrowFunction, some 6, 11, 19, none, true⟩,
      ⟨.formalParameters, some 7, 11, 13, some .parameters, true⟩,
      ⟨.jsxSelfClosingElement, some 7, 15, 19, some .body, true⟩,
      ⟨.identifier, some 9, 16, 17, some .name, true⟩]
    nonempty := by decide
    ordered := by decide }

/-- In parentheses, the function of a member is reported as a component of its own. -/
theorem member_in_parentheses_is_reported :
    memberInParentheses.construct 4 = .property ∧
      memberInParentheses.decidingFunction? 4 = some 7 ∧ memberInParentheses.IsClassMember 4 ∧
      memberInParentheses.ReportsStatelessAt 7 :=
  ⟨by decide +kernel, by decide +kernel, ⟨3, by decide +kernel, by decide +kernel⟩,
    ⟨.stateless, 7, 7⟩, by decide +kernel, rfl, rfl⟩

end ComponentScan.Tree
