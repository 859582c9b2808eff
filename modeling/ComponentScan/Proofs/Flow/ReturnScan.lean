import ComponentScan.Proofs.Flow.Budget
import ComponentScan.Proofs.Flow.Graph
import ComponentScan.Proofs.Tree.Scope

/-! # Which returns are considered

A function is searched by way of its return statements.  They are collected in one traversal of
all that is below the function, nested functions included; a return statement counts if it has
the scope of the function, and one that does not is left out with all that it holds.

For a function that is linked to the root this gives exactly the return statements whose
innermost function it is, once each and in source order (`ownedReturns_eq`).  What is left out
holds none of them: below a return of another function, the scope is that function or one
inside it (`Linked.scope_ne_of_below`).

The search from the function is a search through what these returns give, in this order, each
with the memo that the ones before have left.  It ends without success exactly if all of them
have been searched and failed (`searchAny_eq_unreached_iff`).
-/
namespace ComponentScan.Tree

/-- The return statements below `f` whose innermost function is `f`, in source order. -/
def returnsOf (t : Tree) (f : Nat) : List Nat :=
  ((Descent.contents t).preorder f).filter fun r =>
    t.type r = .returnStatement ∧ t.enclosingFunction? r = some f

section Returns
variable {t : Tree} {f n r : Nat}

theorem construct_eq_returnStatement_iff (h : t.isNamed n = true) :
    t.construct n = .returnStatement ↔ t.type n = .returnStatement := by
  constructor
  · intro hconstruct
    exact type_of_construct hconstruct rfl
  · intro htype
    simp [construct, h, htype, NodeType.construct]

/-- Inside a linked function, the return statements of its scope are those whose innermost
function it is. -/
theorem isOwned_iff (hf : (t.type f).isScope = true) (hlinked : t.Linked f)
    (hr : (Descent.contents t).Below f r) :
    t.construct r = .returnStatement ∧ t.scope r = t.scope f ↔
      t.type r = .returnStatement ∧ t.enclosingFunction? r = some f := by
  rcases Relation.ReflTransGen.cases_tail hr with rfl | ⟨b, hb, hc⟩
  · -- a function is no return statement
    have htype : t.type r ≠ .returnStatement := by
      intro h
      rw [h] at hf
      cases hf
    constructor
    · rintro ⟨h, -⟩
      exact absurd (type_of_construct h rfl) htype
    · rintro ⟨h, -⟩
      exact absurd h htype
  · obtain ⟨hparent, hnamed, -⟩ := mem_contents.mp hc
    rw [construct_eq_returnStatement_iff hnamed]
    refine and_congr_right fun htype => ?_
    have hmem : f ∈ t.ancestors r := by
      rw [ancestors_of_parent? hparent]
      exact Descent.Below.mem_ancestors hb
    obtain ⟨g, hg⟩ : ∃ g, t.enclosingFunction? r = some g :=
      Option.isSome_iff_exists.mp (List.find?_isSome.mpr ⟨f, hmem, hf⟩)
    have hscope : t.scope r = g := by
      rw [(hlinked.of_below hr.of_contents).scope_eq, htype, hg]
      rfl
    rw [hscope, hlinked.scope_eq_self hf, hg, Option.some.injEq]

/-- **The traversal finds exactly the returns whose innermost function it started from**, in
source order. -/
theorem ownedReturns_eq (hf : (t.type f).isScope = true) (hlinked : t.Linked f) :
    t.ownedReturns f = t.returnsOf f := by
  have hnodes : t.functionNodes f = (t.inFunction f).preorder f :=
    (t.inFunction f).visit_eq_preorder f
  rw [ownedReturns, hnodes, inFunction, Descent.filter_preorder_prune, returnsOf]
  · refine List.filter_congr fun r hr => ?_
    exact decide_eq_decide.mpr (isOwned_iff hf hlinked ((Descent.mem_preorder _).mp hr))
  · rintro s hs ⟨hreturn, hforeign⟩ m hm
    have hinside : f < s := by
      refine Nat.lt_of_le_of_ne (le_of_mem_ancestors hs.mem_ancestors) ?_
      rintro rfl
      exact hforeign rfl
    rw [hlinked.scope_eq_self hf] at hforeign ⊢
    have hne := (hlinked.of_below hs.of_contents).scope_ne_of_below hinside hforeign hm.of_contents
    simp [hne]

theorem nodup_returnsOf (t : Tree) (f : Nat) : (t.returnsOf f).Nodup :=
  ((Descent.contents t).nodup_preorder f).filter _

end Returns

/-! ## The search through them -/

/-- The goals are searched one after the other, each with the memo that the one before has
left, and all of them fail. -/
inductive AllFail (search : Goal → Memo → Outcome × Memo) : List Goal → Memo → Memo → Prop
  | nil {memo : Memo} : AllFail search [] memo memo
  | cons {goal : Goal} {goals : List Goal} {memo between after : Memo} :
      search goal memo = (.unreached, between) → AllFail search goals between after →
      AllFail search (goal :: goals) memo after

/-- **A search through goals ends without success exactly if it has gone through all of them
and all have failed.** -/
theorem searchAny_eq_unreached_iff {search : Goal → Memo → Outcome × Memo} {goals : List Goal}
    {memo after : Memo} :
    searchAny search goals memo = (.unreached, after) ↔ AllFail search goals memo after := by
  constructor
  · intro h
    fun_induction searchAny search goals memo with
    | case1 memo =>
      cases h
      exact .nil
    | case2 goal goals memo between hfail ih => exact .cons hfail (ih h)
    | case3 goal goals memo hended => exact absurd h (hended after)
  · intro h
    induction h with
    | nil => rfl
    | cons hfail _ ih =>
      rw [searchAny, hfail]
      exact ih

section Scans
variable {t : Tree} {f : Nat}

/-- A function leads to what it returns, unless it is an arrow function with an expression, or
nothing, as its body. -/
theorem functionGoals_eq_returnGoals (hbody : t.construct f = .arrowFunction →
      ∃ body, t.child? f .body = some body ∧ t.type body = .statementBlock) :
    t.functionGoals f = .ok (t.returnGoals f) := by
  rcases t.functionGoals_cases f with ⟨b, hexpression, -⟩ | ⟨harrow, hnone, -⟩ | ⟨-, hgoals⟩
  · obtain ⟨harrow, hb, hne⟩ := hexpression
    obtain ⟨body, hchild, hblock⟩ := hbody harrow
    cases hb.symm.trans hchild
    exact absurd hblock hne
  · obtain ⟨body, hchild, -⟩ := hbody harrow
    cases hnone.symm.trans hchild
  · exact hgoals

/-- **A search considers exactly the returns that a function owns.**  The return statements
of a linked function that has no mere expression as its body are those below it whose innermost
function it is, once each and in source order.  A search that enters the function searches
through what each of them returns, in this order, and remembers how this ended; and it ends
without success exactly if each of them has been searched and has failed. -/
theorem search_considers_owned_returns (t : Tree) (f : Nat) (hf : (t.type f).isScope = true)
    (hlinked : t.Linked f) (hbody : t.construct f = .arrowFunction →
      ∃ body, t.child? f .body = some body ∧ t.type body = .statementBlock) :
    t.ownedReturns f = t.returnsOf f ∧ (t.returnsOf f).Nodup ∧
      ∀ budget entered memo, memo.result? f = none → f ∉ entered →
        let resolve := t.search budget (f :: entered)
        let goals := ((t.returnsOf f).filterMap t.first?).map Goal.value
        let ended := searchAny resolve goals (memo.scan f)
        t.search (budget + 1) entered (.function f) memo =
            (ended.1, ended.2.store f memo.cuts ended.1) ∧
          ∀ after, ended = (.unreached, after) ↔ AllFail resolve goals (memo.scan f) after := by
  have howned := ownedReturns_eq hf hlinked
  have hgoals := functionGoals_eq_returnGoals hbody
  rw [returnGoals, howned] at hgoals
  refine ⟨howned, t.nodup_returnsOf f, ?_⟩
  intro budget entered memo hunknown hfresh
  have hknown : memo.known? (.function f) = none := hunknown
  refine ⟨?_, fun after => searchAny_eq_unreached_iff⟩
  rw [search_expand hknown rfl hfresh hgoals]
  rfl

/-- The tree of `function f(){const g=()=>{return()=>{return 1}};return g}`. -/
def nestedReturns : Tree :=
  Table.toTree {
    source := Utf8.encode
      "function f()\x7bconst g=()=>\x7breturn()=>\x7breturn 1\x7d\x7d;return g\x7d"
    nodes := #[
      ⟨.program, none, 0, 57, none, true⟩,
      ⟨.functionDeclaration, some 0, 0, 57, none, true⟩,
      ⟨.identifier, some 1, 9, 10, some .name, true⟩,
      ⟨.formalParameters, some 1, 10, 12, some .parameters, true⟩,
      ⟨.statementBlock, some 1, 12, 57, some .body, true⟩,
      ⟨.lexicalDeclaration, some 4, 13, 48, none, true⟩,
      ⟨.variableDeclarator, some 5, 19, 47, none, true⟩,
      ⟨.identifier, some 6, 19, 20, some .name, true⟩,
      ⟨.arrowFunction, some 6, 21, 47, some .value, true⟩,
      ⟨.formalParameters, some 8, 21, 23, some .parameters, true⟩,
      ⟨.statementBlock, some 8, 25, 47, some .body, true⟩,
      ⟨.returnStatement, some 10, 26, 46, none, true⟩,
      ⟨.arrowFunction, some 11, 32, 46, none, true⟩,
      ⟨.formalParameters, some 12, 32, 34, some .parameters, true⟩,
      ⟨.statementBlock, some 12, 36, 46, some .body, true⟩,
      ⟨.returnStatement, some 14, 37, 45, none, true⟩,
      ⟨.number, some 15, 44, 45, none, true⟩,
      ⟨.returnStatement, some 4, 48, 56, none, true⟩,
      ⟨.identifier, some 17, 55, 56, none, true⟩]
    nonempty := by decide
    ordered := by decide }

/-- Of the three returns, the last one is that of the outer function, though a return of the
arrow function in front of it holds another function.  What it returns is searched, and fails. -/
theorem nested_returns_are_not_considered :
    nestedReturns.returnsOf 1 = [17] ∧
      ∃ after, AllFail (nestedReturns.search nestedReturns.size [1]) [.value 18] (Memo.scan {} 1)
          after ∧
        nestedReturns.searchFrom (.function 1) = (.unreached, after.store 1 0 .unreached) := by
  have hlinked : nestedReturns.Linked 1 := .single (by decide +kernel)
  obtain ⟨howned, -, hsearch⟩ := search_considers_owned_returns nestedReturns 1
    (by decide +kernel) hlinked (by decide +kernel)
  have hreturns : nestedReturns.returnsOf 1 = [17] := by
    rw [← howned]
    decide +kernel
  obtain ⟨hended, hfail⟩ := hsearch nestedReturns.size [] {} rfl (by decide)
  have hgoals : ((nestedReturns.returnsOf 1).filterMap nestedReturns.first?).map Goal.value =
      [.value 18] := by
    rw [hreturns]
    decide +kernel
  rw [hgoals] at hended hfail
  have houtcome : (searchAny (nestedReturns.search nestedReturns.size [1]) [.value 18]
      (Memo.scan {} 1)).1 = .unreached := by decide +kernel
  refine ⟨hreturns, _, (hfail _).mp (Prod.ext houtcome rfl), ?_⟩
  rw [searchFrom, hended, houtcome]

end Scans

end ComponentScan.Tree
