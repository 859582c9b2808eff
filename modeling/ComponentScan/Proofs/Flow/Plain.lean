import ComponentScan.Proofs.Flow.Budget

/-! # The search without a memo

`plainSearch` is the same search with nothing remembered: every function is searched anew
whenever it is met, and only the nodes that the chain has entered keep it from going round
in circles.  It needs no budget, since with every goal fewer nodes are left to enter.
-/
namespace ComponentScan

/-! ## Trying one after the other -/

section Any
variable {ε α : Type} {f : α → Except ε Bool} {l : List α}

theorem anyM_cons_false {a : α} (h : f a = .ok false) : (a :: l).anyM f = l.anyM f := by
  simp [h, bind, Except.bind]

theorem anyM_cons_true {a : α} (h : f a = .ok true) : (a :: l).anyM f = .ok true := by
  simp [h, bind, Except.bind, pure, Except.pure]

theorem anyM_cons_error {a : α} {e : ε} (h : f a = .error e) : (a :: l).anyM f = .error e := by
  simp [h, bind, Except.bind]

theorem anyM_attach : (l.attach.anyM fun x => f x.1) = l.anyM f := by
  have hval {P : α → Prop} (xs : List (Subtype P)) :
      (xs.anyM fun x => f x.1) = (xs.map Subtype.val).anyM f := by
    induction xs with
    | nil => rfl
    | cons x xs ih => simp only [List.map_cons, List.anyM_cons, ih]
  rw [hval, List.attach_map_subtype_val]

/-- Trying fails exactly if every attempt does. -/
theorem anyM_eq_false_iff : l.anyM f = .ok false ↔ ∀ a ∈ l, f a = .ok false := by
  induction l with
  | nil => simp [pure, Except.pure]
  | cons a l ih =>
    rcases h : f a with e | _ | _
    · rw [anyM_cons_error h]
      simp [h]
    · rw [anyM_cons_false h, ih]
      simp [h]
    · rw [anyM_cons_true h]
      simp [h]

/-- Any other end is the end of one attempt. -/
theorem exists_of_anyM {r : Except ε Bool} (h : l.anyM f = r) (hr : r ≠ .ok false) :
    ∃ a ∈ l, f a = r := by
  induction l with
  | nil => exact absurd h.symm hr
  | cons a l ih =>
    rcases ha : f a with e | _ | _
    · exact ⟨a, List.mem_cons_self .., by rw [← h, anyM_cons_error ha, ha]⟩
    · obtain ⟨b, hb, hfb⟩ := ih (by rw [← h, anyM_cons_false ha])
      exact ⟨b, List.mem_cons_of_mem _ hb, hfb⟩
    · exact ⟨a, List.mem_cons_self .., by rw [← h, anyM_cons_true ha, ha]⟩

end Any

namespace Tree

/-! ## The plain search -/

/-- Searches for a UI element from a goal, along chains that enter no node of `entered`,
and remembers nothing. -/
def plainSearch (t : Tree) (entered : List Nat) : Goal → Except MissingChild Bool
  | .success => .ok true
  | .value expression =>
    let expression := t.unwrap expression
    if t.isElement expression then .ok true
    else
      let value := t.value expression
      if _hfresh : value ∈ entered then .ok false
      else
        match _hgoals : t.valueGoals expression value with
        | .error missing => .error missing
        | .ok goals => goals.attach.anyM fun ⟨goal, _⟩ => t.plainSearch (value :: entered) goal
  | .function function =>
    if _hfresh : function ∈ entered then .ok false
    else
      match _hgoals : t.functionGoals function with
      | .error missing => .error missing
      | .ok goals => goals.attach.anyM fun ⟨goal, _⟩ => t.plainSearch (function :: entered) goal
termination_by t.unentered entered
decreasing_by
  · exact unentered_cons_lt (lt_size_of_mem_valueGoals _hgoals ‹_›) _hfresh
  · exact unentered_cons_lt (lt_size_of_mem_functionGoals _hgoals ‹_›) _hfresh

/-- Whether an expression evaluates to a UI element, found without a memo. -/
def plainMayBeElement (t : Tree) (n : Nat) : Except MissingChild Bool :=
  t.plainSearch [] (.value n)

/-- Whether the function that decides about a node returns a UI element, found without a
memo. -/
def plainMayReturnElement (t : Tree) (n : Nat) : Except MissingChild Bool :=
  match t.decidingFunction? n with
  | none => .ok false
  | some function => t.plainSearch [] (.function function)

section Moves
variable {t : Tree} {entered : List Nat} {goal : Goal} {n : Nat}

theorem plainSearch_sight (h : t.entrance? goal = none) :
    t.plainSearch entered goal = .ok true := by
  cases goal with
  | success => rw [plainSearch]
  | value e =>
    have helement : t.isElement (t.unwrap e) = true := by simpa [entrance?] using h
    simp [plainSearch, helement]
  | function f => cases h

theorem plainSearch_cut (hentry : t.entrance? goal = some n) (hn : n ∈ entered) :
    t.plainSearch entered goal = .ok false := by
  cases goal with
  | success => cases hentry
  | value e =>
    obtain ⟨helement, rfl⟩ := entrance?_value_eq_some.mp hentry
    simp [plainSearch, helement, hn]
  | function f =>
    cases hentry
    simp [plainSearch, hn]

theorem plainSearch_fresh (hentry : t.entrance? goal = some n) (hn : n ∉ entered) :
    t.plainSearch entered goal =
      t.goalsOf goal >>= fun goals => goals.anyM (t.plainSearch (n :: entered)) := by
  cases goal with
  | success => cases hentry
  | value e =>
    obtain ⟨helement, rfl⟩ := entrance?_value_eq_some.mp hentry
    rw [plainSearch]
    simp only [helement, hn, Bool.false_eq_true, if_false, dite_false]
    split
    · next h => simp [goalsOf, h, bind, Except.bind]
    · next h => simp [goalsOf, h, bind, Except.bind, anyM_attach]
  | function f =>
    cases hentry
    rw [plainSearch]
    simp only [hn, dite_false]
    split
    · next h => simp [goalsOf, h, bind, Except.bind]
    · next h => simp [goalsOf, h, bind, Except.bind, anyM_attach]

theorem plainSearch_malformed {missing : MissingChild} (hentry : t.entrance? goal = some n)
    (hn : n ∉ entered) (hgoals : t.goalsOf goal = .error missing) :
    t.plainSearch entered goal = .error missing := by
  rw [plainSearch_fresh hentry hn, hgoals]
  rfl

theorem plainSearch_expand {goals : List Goal} (hentry : t.entrance? goal = some n)
    (hn : n ∉ entered) (hgoals : t.goalsOf goal = .ok goals) :
    t.plainSearch entered goal = goals.anyM (t.plainSearch (n :: entered)) := by
  rw [plainSearch_fresh hentry hn, hgoals]
  rfl

end Moves

end Tree

end ComponentScan
