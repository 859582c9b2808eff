import ComponentScan.Proofs.Binding.Place
import ComponentScan.Proofs.Tree.Scope

/-! # Hoisting and scopes

Where a function ends is decided twice.  The search for `var` declarations goes down from a
body and turns back at every function; the owners are computed in one pass over the table, and
scopes are read off them.  The two agree: the declarations that are found below a node are
those that have the scope of the node (`hoisting_agrees_with_scopes`).

What the search reaches has the scope it started in, functions apart
(`scope_of_outsideFunctions`).  What it misses is inside a function that it did not enter, and
has that function or one further inside as its scope (`scope_ne_of_below_function`).
-/
namespace ComponentScan.Tree

/-- The `var` declarations strictly below `b`, through named nodes, that have the scope of
`b`, in source order. -/
def declarationsInScope (t : Tree) (b : Nat) : List Nat :=
  ((Descent.namedChildren t).preorder b).filter fun d =>
    d ≠ b ∧ t.type d = .variableDeclaration ∧ t.scope d = t.scope b

section Hoisting
variable {t : Tree} {b c m s : Nat}

/-- Outside the functions inside, everything has the scope of the body. -/
theorem scope_of_outsideFunctions (hb : t.Linked b) (hc : c ∈ t.namedChildren b)
    (hm : t.outsideFunctions.Below c m) :
    t.scope m = if (t.type m).isScope then m else t.scope b := by
  induction hm with
  | refl => exact hb.scope_child hc
  | @tail a m ha hm ih =>
    rw [outsideFunctions_next] at hm
    by_cases hfunction : (t.type a).isScope = true
    · rw [if_pos hfunction] at hm
      cases hm
    · rw [if_neg hfunction] at hm ih
      have hlinked := (hb.child hc).of_below (Descent.Below.of_prune _ ha)
      rw [hlinked.scope_child hm, ih]

/-- A function below a node keeps all that it holds out of the scope of the node. -/
theorem scope_ne_of_below_function (hb : t.Linked b) (hinside : b < s) (hs : t.Linked s)
    (hfunction : (t.type s).isScope = true) (hm : (Descent.namedChildren t).Below s m) :
    t.scope m ≠ t.scope b := by
  have hle := hb.scope_le
  refine hs.scope_ne_of_below (Nat.lt_of_le_of_lt hle hinside) ?_ hm
  rw [hs.scope_eq_self hfunction]
  omega

/-- From a child on, the search finds the declarations that have the scope of its parent. -/
theorem filter_outsideFunctions (hb : t.Linked b) (hc : c ∈ t.namedChildren b) :
    (t.outsideFunctions.preorder c).filter (t.type · = .variableDeclaration) =
      ((Descent.namedChildren t).preorder c).filter fun d =>
        t.type d = .variableDeclaration ∧ t.scope d = t.scope b := by
  have hreached : (t.outsideFunctions.preorder c).filter (t.type · = .variableDeclaration) =
      (t.outsideFunctions.preorder c).filter fun d =>
        t.type d = .variableDeclaration ∧ t.scope d = t.scope b := by
    refine List.filter_congr fun d hd => decide_eq_decide.mpr ?_
    constructor
    · intro htype
      have hscope := scope_of_outsideFunctions hb hc ((Descent.mem_preorder _).mp hd)
      rw [htype] at hscope
      exact ⟨htype, hscope⟩
    · intro h
      exact h.1
  rw [hreached]
  refine Descent.filter_preorder_prune _ ?_
  -- nothing from a function on has the scope
  intro s hs hfunction m hm
  have hinside := hs.lt_of_parent? (mem_namedChildren.mp hc).1
  have hlinked := (hb.child hc).of_below hs
  have hne := scope_ne_of_below_function hb hinside hlinked hfunction hm
  simp [hne]

theorem nodup_declarationsInScope (t : Tree) (b : Nat) : (t.declarationsInScope b).Nodup :=
  ((Descent.namedChildren t).nodup_preorder b).filter _

/-- The declarations in the scope of a node, one child at a time. -/
theorem declarationsInScope_eq (t : Tree) (b : Nat) : t.declarationsInScope b =
    (t.namedChildren b).flatMap fun c => ((Descent.namedChildren t).preorder c).filter fun d =>
      t.type d = .variableDeclaration ∧ t.scope d = t.scope b := by
  rw [declarationsInScope, Descent.preorder_eq, List.filter_cons_of_neg (by simp),
    List.filter_flatMap]
  refine List.flatMap_congr fun c hc => List.filter_congr fun d hd => ?_
  have hlt := ((Descent.mem_preorder _).mp hd).lt_of_parent? (mem_namedChildren.mp hc).1
  simp [Nat.ne_of_gt hlt]

end Hoisting

/-- **Hoisting agrees with the scopes.**  Below the root, or a node that is linked to it, the
search finds exactly the `var` declarations strictly below that have the scope of the node,
once each and in source order. -/
theorem hoisting_agrees_with_scopes (t : Tree) (b : Nat) (hb : t.Linked b) :
    t.hoistedDeclarations b = t.declarationsInScope b ∧ (t.declarationsInScope b).Nodup := by
  refine ⟨?_, t.nodup_declarationsInScope b⟩
  rw [hoistedDeclarations_eq, declarationsInScope_eq, List.filter_flatMap]
  exact List.flatMap_congr fun c hc => filter_outsideFunctions hb hc

/-- The tree of `function f(){{var a}return function(){var b}}`. -/
def nestedVariables : Tree :=
  Table.toTree {
    source := Utf8.encode "function f()\x7b\x7bvar a\x7dreturn function()\x7bvar b\x7d\x7d"
    nodes := #[
      ⟨.program, none, 0, 45, none, true⟩,
      ⟨.functionDeclaration, some 0, 0, 45, none, true⟩,
      ⟨.identifier, some 1, 9, 10, some .name, true⟩,
      ⟨.formalParameters, some 1, 10, 12, some .parameters, true⟩,
      ⟨.statementBlock, some 1, 12, 45, some .body, true⟩,
      ⟨.statementBlock, some 4, 13, 20, none, true⟩,
      ⟨.variableDeclaration, some 5, 14, 19, none, true⟩,
      ⟨.variableDeclarator, some 6, 18, 19, none, true⟩,
      ⟨.identifier, some 7, 18, 19, some .name, true⟩,
      ⟨.returnStatement, some 4, 20, 44, none, true⟩,
      ⟨.functionExpression, some 9, 27, 44, none, true⟩,
      ⟨.formalParameters, some 10, 35, 37, some .parameters, true⟩,
      ⟨.statementBlock, some 10, 37, 44, some .body, true⟩,
      ⟨.variableDeclaration, some 12, 38, 43, none, true⟩,
      ⟨.variableDeclarator, some 13, 42, 43, none, true⟩,
      ⟨.identifier, some 14, 42, 43, some .name, true⟩]
    nonempty := by decide
    ordered := by decide }

/-- Below the outer function, which is its own scope, the declaration in the inner block is
found, and the one in the inner function is not. -/
theorem inner_block_is_hoisted_inner_function_is_not :
    nestedVariables.Linked 1 ∧ nestedVariables.declarationsInScope 1 = [6] := by
  have hlinked : nestedVariables.Linked 1 := by decide +kernel
  refine ⟨hlinked, ?_⟩
  rw [← (hoisting_agrees_with_scopes nestedVariables 1 hlinked).1]
  decide +kernel

end ComponentScan.Tree
