import ComponentScan.Tree.Expression

/-! # What a construct tells about a node

A construct other than `other` tells that a node is a named node of the table, and most
constructs tell its type as well.
-/
namespace ComponentScan

/-- The type of all nodes of a construct, if there is only one. -/
def Construct.soleType? : Construct → Option NodeType
  | .arrowFunction => some .arrowFunction
  | .returnStatement => some .returnStatement
  | .conditional => some .ternaryExpression
  | .logical => some .binaryExpression
  | .call => some .callExpression
  | .member => some .memberExpression
  | .object => some .object
  | .importStatement => some .importStatement
  | .declarator => some .variableDeclarator
  | _ => none

theorem NodeType.eq_of_construct {type type' : NodeType} {logical : Bool}
    (h : (type.construct logical).soleType? = some type') : type = type' := by
  revert h
  cases logical <;> cases type <;> simp [NodeType.construct, Construct.soleType?]

namespace Tree
variable {t : Tree} {n : Nat}

/-- Only named nodes are of interest. -/
theorem isNamed_of_construct (h : t.construct n ≠ .other) : t.isNamed n = true := by
  unfold construct at h
  split at h
  · assumption
  · exact absurd rfl h

/-- Only nodes of the table are of interest. -/
theorem lt_size_of_construct (h : t.construct n ≠ .other) : n < t.size := by
  refine Classical.byContradiction fun hn => ?_
  have hnone : t.nodes[n]? = none := Array.getElem?_eq_none (Nat.not_lt.mp hn)
  have hnamed := isNamed_of_construct h
  simp [Table.isNamed, hnone] at hnamed

/-- The type of a node whose construct has a single one. -/
theorem type_of_construct {c : Construct} {type : NodeType} (h : t.construct n = c)
    (hsole : c.soleType? = some type) : t.type n = type := by
  subst h
  unfold construct at hsole
  split at hsole
  · exact NodeType.eq_of_construct hsole
  · cases hsole

/-- JSX literals are the nodes with an element's type. -/
theorem isElement_type_of_construct (h : t.construct n = .element) :
    (t.type n).isElement = true := by
  unfold construct at h
  split at h
  · cases htype : t.type n <;> simp [htype, NodeType.construct, NodeType.isElement] at h ⊢
    split at h <;> cases h
  · cases h

/-- Identifiers are the nodes with an identifier's type. -/
theorem isIdentifier_type_of_construct (h : t.construct n = .identifier) :
    (t.type n).isIdentifier = true := by
  unfold construct at h
  split at h
  · cases htype : t.type n <;> simp [htype, NodeType.construct, NodeType.isIdentifier] at h ⊢
    split at h <;> cases h
  · cases h

/-- What is no wrapper is not unwrapped. -/
theorem unwrap_eq_self (h : (t.type n).isTransparent = false) : t.unwrap n = n := by
  rw [unwrap]
  simp [h]

/-- Wrappers are of no interest. -/
theorem construct_of_isTransparent (h : (t.type n).isTransparent = true) :
    t.construct n = .other := by
  unfold construct
  split
  · cases htype : t.type n <;> simp [htype, NodeType.isTransparent, NodeType.construct] at h ⊢
  · rfl

/-- What is of interest is not unwrapped. -/
theorem unwrap_of_construct (h : t.construct n ≠ .other) : t.unwrap n = n := by
  refine unwrap_eq_self (Bool.eq_false_iff.mpr ?_)
  intro htransparent
  exact h (construct_of_isTransparent htransparent)

/-- A wrapper is unwrapped as the first of its contents. -/
theorem unwrap_eq_getD (h : (t.type n).isTransparent = true) :
    t.unwrap n = ((t.first? n).map t.unwrap).getD n := by
  rw [unwrap, if_pos h]
  split <;> simp [*]

/-- What is left after unwrapping is the node itself, or stands right inside a wrapper. -/
theorem unwrap_eq_or_inside_wrapper (t : Tree) (n : Nat) : t.unwrap n = n ∨
    ∃ w, t.parent? (t.unwrap n) = some w ∧ (t.type w).isTransparent = true := by
  fun_induction unwrap t n with
  | case1 n htransparent c hc ih =>
    refine .inr ?_
    rcases ih with hself | hinside
    · rw [hself]
      exact ⟨n, parent?_of_first? hc, htransparent⟩
    · exact hinside
  | case2 n | case3 n => exact .inl rfl

/-- What is left after unwrapping is not unwrapped further. -/
theorem unwrap_unwrap (t : Tree) (n : Nat) : t.unwrap (t.unwrap n) = t.unwrap n := by
  fun_induction unwrap t n with
  | case1 n _ c _ ih => exact ih
  | case2 n htransparent hnone =>
    rw [unwrap_eq_getD htransparent, hnone]
    rfl
  | case3 n htransparent => exact unwrap_eq_self (by simpa using htransparent)

/-- A chain of member accesses, by its last link. -/
theorem accessChain_eq (t : Tree) (n : Nat) : t.accessChain n =
    if t.type (t.unwrap n) = .memberExpression then
      let name := (t.child? (t.unwrap n) .property).map t.text
      ((t.child? (t.unwrap n) .object).map fun object =>
        ((t.accessChain object).1, (t.accessChain object).2 ++ [name])).getD (t.unwrap n, [name])
    else (t.unwrap n, []) := by
  rw [accessChain]
  dsimp only
  split
  · split <;> simp [*]
  · rfl

end Tree

end ComponentScan
