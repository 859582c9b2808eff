import ComponentScan.Flow.Goal

/-!
# Searching for a UI element

The search goes depth first through the graph of `Goal`s.  It ends with success at the
first UI element.  A chain of goals enters no node twice: at a node that the chain has
entered already the search gives up this branch, which is a **cut**.

What has been found out about a function is remembered in a `Memo`, which all branches
share, so that a function reached again is not searched again.  A success can always be
remembered.  A failure is remembered only if no cut happened on the way: otherwise it
may depend on the chain that led there.
-/

namespace ComponentScan

/-- How a search ends. -/
inductive Outcome where
  /-- A UI element was reached. -/
  | reached
  /-- None was. -/
  | unreached
  /-- The tree lacks a child that the search needed. -/
  | malformed (missing : Tree.MissingChild)
  /-- The chain of goals got longer than allowed. -/
  | exhausted
deriving DecidableEq

/-- The outcome that a remembered result stands for. -/
def Outcome.ofBool : Bool → Outcome
  | true => .reached
  | false => .unreached

/-- The answer that a search gives. -/
def Outcome.toExcept : Outcome → Except Tree.MissingChild Bool
  | .reached => .ok true
  | .unreached => .ok false
  | .malformed missing => .error missing
  | .exhausted => .ok false

/-- What a search has found out so far. -/
structure Memo where
  /-- For functions whose result is known, whether a UI element is reached from them. -/
  results : List (Nat × Bool) := []
  /-- The number of branches given up at a node that the chain had entered. -/
  cuts : Nat := 0
  /-- The functions whose returns have been looked at, the latest first. -/
  scans : List Nat := []

namespace Memo

/-- The result known for a function. -/
def result? (memo : Memo) (function : Nat) : Option Bool :=
  memo.results.lookup function

/-- One more branch given up. -/
def cut (memo : Memo) : Memo :=
  { memo with cuts := memo.cuts + 1 }

/-- One more function looked at. -/
def scan (memo : Memo) (function : Nat) : Memo :=
  { memo with scans := function :: memo.scans }

/-- Remembers how the search from a function ended, if this cannot depend on the chain;
`cuts` is the number of cuts before the search. -/
def store (memo : Memo) (function cuts : Nat) : Outcome → Memo
  | .reached => { memo with results := (function, true) :: memo.results }
  | .unreached =>
    if memo.cuts = cuts then { memo with results := (function, false) :: memo.results } else memo
  | _ => memo

end Memo

namespace Tree

/-- Searches from one goal after the other until one does not fail. -/
def searchAny (search : Goal → Memo → Outcome × Memo) : List Goal → Memo → Outcome × Memo
  | [], memo => (.unreached, memo)
  | goal :: goals, memo =>
    match search goal memo with
    | (.unreached, memo) => searchAny search goals memo
    | ended => ended

/-- Searches for a UI element from a goal, along chains of at most `budget` goals that
enter no node of `entered`. -/
def search (t : Tree) : (budget : Nat) → (entered : List Nat) → Goal → Memo → Outcome × Memo
  | 0, _, _, memo => (.exhausted, memo)
  | _ + 1, _, .success, memo => (.reached, memo)
  | budget + 1, entered, .value expression, memo =>
    let expression := t.unwrap expression
    if t.isElement expression then (.reached, memo)
    else
      let value := t.value expression
      if value ∈ entered then (.unreached, memo.cut)
      else
        match t.valueGoals expression value with
        | .error missing => (.malformed missing, memo)
        | .ok goals => searchAny (t.search budget (value :: entered)) goals memo
  | budget + 1, entered, .function function, memo =>
    match memo.result? function with
    | some result => (.ofBool result, memo)
    | none =>
      if function ∈ entered then (.unreached, memo.cut)
      else
        match t.functionGoals function with
        | .error missing => (.malformed missing, memo.scan function)
        | .ok goals =>
          let (outcome, after) :=
            searchAny (t.search budget (function :: entered)) goals (memo.scan function)
          (outcome, after.store function memo.cuts outcome)

/-- Searches from a goal with nothing entered and nothing known.  No node is entered
twice, so chains never get longer than allowed here. -/
def searchFrom (t : Tree) (goal : Goal) : Outcome × Memo :=
  t.search (t.size + 1) [] goal {}

/-- Whether an expression, on any path through it, evaluates to a UI element. -/
def mayBeElement (t : Tree) (n : Nat) : Except MissingChild Bool :=
  (t.searchFrom (.value n)).1.toExcept

/-- Whether any return of the function that decides about a node gives a UI element. -/
def mayReturnElement (t : Tree) (n : Nat) : Except MissingChild Bool :=
  match t.decidingFunction? n with
  | none => .ok false
  | some function => (t.searchFrom (.function function)).1.toExcept

end Tree

end ComponentScan
