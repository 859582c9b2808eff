import ComponentScan.Origin
import ComponentScan.Proofs.Flow.Budget

/-! # Every analysis ends

Resolution of values and the search for a module are recursions under a guard as well
(`valueRecursion`, `moduleRecursion`).  Resolving a member access calls resolution twice,
for the object and for the entry found in it, both behind the same guard.  So whatever the
bindings of a tree are, cyclic or not, all three analyses end within a number of nested
calls that is at most one more than the number of nodes, and their answers do not depend on
how much more they are allowed.
-/
namespace ComponentScan

/-- Only nodes of the table have a type that some rule mentions. -/
theorem Table.lt_size_of_type {t : Table} {n : Nat} (h : t.type n ≠ .other "") : n < t.size := by
  refine Classical.byContradiction fun hn => h ?_
  rw [type, Array.getElem?_eq_none (Nat.not_lt.mp hn)]

namespace Tree

/-! ## Values -/

/-- Resolving one node resolves another: the node that it has the value of, the object of a
member access, or the entry found in that object. -/
inductive ValueNests (t : Tree) : Activation Nat → Activation Nat → Prop
  | follow {budget n next : Nat} {entered : List Nat} : t.unwrap n ∉ entered →
      t.valueStep (t.unwrap n) = .follow next →
      ValueNests t ⟨budget + 1, entered, n⟩ ⟨budget, t.unwrap n :: entered, next⟩
  | object {budget n object : Nat} {entered : List Nat} {name : String} :
      t.unwrap n ∉ entered → t.valueStep (t.unwrap n) = .entry object name →
      ValueNests t ⟨budget + 1, entered, n⟩ ⟨budget, t.unwrap n :: entered, object⟩
  | entry {budget n object o v : Nat} {entered : List Nat} {name : String} :
      t.unwrap n ∉ entered → t.valueStep (t.unwrap n) = .entry object name →
      t.valueWithin budget (t.unwrap n :: entered) object = some o →
      t.construct o = .object → t.property? o name = some v →
      ValueNests t ⟨budget + 1, entered, n⟩ ⟨budget, t.unwrap n :: entered, v⟩

section Values
variable {t : Tree} {n budget : Nat} {entered : List Nat}

/-- A node without a row is its own value. -/
theorem lt_size_of_valueStep (h : t.valueStep n ≠ .done) : n < t.size := by
  refine Table.lt_size_of_type fun htype => h ?_
  simp [valueStep, htype]

theorem valueWithin_eq_none_iff : t.valueWithin (budget + 1) entered n = none ↔
    ∃ b, t.ValueNests ⟨budget + 1, entered, n⟩ b ∧
      t.valueWithin b.budget b.entered b.subject = none := by
  constructor
  · intro h
    simp only [valueWithin] at h
    split at h
    · cases h
    · next hfresh =>
      split at h
      · cases h
      · next next hstep => exact ⟨_, .follow hfresh hstep, h⟩
      · next object name hstep =>
        cases hobject : t.valueWithin budget (t.unwrap n :: entered) object with
        | none => exact ⟨_, .object hfresh hstep, hobject⟩
        | some o =>
          simp only [hobject, Option.bind_eq_bind, Option.bind_some] at h
          split at h
          · next hconstruct =>
            split at h
            · next v hv => exact ⟨_, .entry hfresh hstep hobject hconstruct hv, h⟩
            · cases h
          · cases h
  · rintro ⟨b, hnests, hb⟩
    cases hnests with
    | follow hfresh hstep => simp [valueWithin, hfresh, hstep, hb]
    | object hfresh hstep => simp [valueWithin, hfresh, hstep, hb]
    | entry hfresh hstep hobject hconstruct hv =>
      simp [valueWithin, hfresh, hstep, hobject, hconstruct, hv, hb]

/-- Resolution of values as a recursion under a guard. -/
def valueRecursion (t : Tree) : GuardedRecursion t Nat where
  entrance? n := some (t.unwrap n)
  Nests := t.ValueNests
  Exhausts a := t.valueWithin a.budget a.entered a.subject = none
  guarded h := by
    cases h with
    | follow hfresh hstep =>
      exact ⟨_, rfl, lt_size_of_valueStep (by simp [hstep]), hfresh, rfl, rfl⟩
    | object hfresh hstep =>
      exact ⟨_, rfl, lt_size_of_valueStep (by simp [hstep]), hfresh, rfl, rfl⟩
    | entry hfresh hstep =>
      exact ⟨_, rfl, lt_size_of_valueStep (by simp [hstep]), hfresh, rfl, rfl⟩
  exhausts_iff := by
    rintro ⟨budget, entered, n⟩
    cases budget with
    | zero => simp [valueWithin]
    | succ budget => simpa using valueWithin_eq_none_iff

/-- A value that is found with some budget is found with a larger one. -/
theorem valueWithin_add {v : Nat} (h : t.valueWithin budget entered n = some v) (extra : Nat) :
    t.valueWithin (budget + extra) entered n = some v := by
  induction budget generalizing entered n v with
  | zero => cases h
  | succ budget ih =>
    rw [show budget + 1 + extra = budget + extra + 1 by omega]
    simp only [valueWithin] at h ⊢
    split at h
    · next hmem => rw [if_pos hmem]; exact h
    · next hfresh =>
      rw [if_neg hfresh]
      split at h
      · exact h
      · exact ih h
      · simp only [Option.bind_eq_bind] at h ⊢
        obtain ⟨o, hobject, hrest⟩ := Option.bind_eq_some_iff.mp h
        rw [ih hobject, Option.bind_some]
        split at hrest
        · next hconstruct =>
          rw [if_pos hconstruct]
          split at hrest
          · exact ih hrest
          · exact hrest
        · next hconstruct => rw [if_neg hconstruct]; exact hrest

/-- **Every node has a value**, which any budget larger than the table finds. -/
theorem valueWithin_eq_value (t : Tree) (n : Nat) (h : t.size < budget) :
    t.valueWithin budget [] n = some (t.value n) := by
  have hne : t.valueWithin (t.size + 1) [] n ≠ none :=
    t.valueRecursion.not_exhausts (a := ⟨t.size + 1, [], n⟩) (by simp [unentered_nil])
  obtain ⟨v, hv⟩ := Option.ne_none_iff_exists'.mp hne
  obtain ⟨extra, rfl⟩ := Nat.exists_eq_add_of_le h
  rw [valueWithin_add hv extra, value, hv, Option.getD_some]

end Values

/-! ## Modules -/

/-- The search for the module of one node goes on with another. -/
inductive ModuleNests (t : Tree) : Activation Nat → Activation Nat → Prop
  | follow {budget n next : Nat} {entered : List Nat} : t.unwrap n ∉ entered →
      t.originStep (t.unwrap n) = .follow next →
      ModuleNests t ⟨budget + 1, entered, n⟩ ⟨budget, t.unwrap n :: entered, next⟩

section Modules
variable {t : Tree} {n budget : Nat} {entered : List Nat}

/-- A node without a row comes from nowhere. -/
theorem lt_size_of_originStep {next : Nat} (h : t.originStep n = .follow next) : n < t.size := by
  refine Classical.byContradiction fun hn => ?_
  have htype : t.type n = .other "" := Classical.byContradiction fun h =>
    hn (Table.lt_size_of_type h)
  have hconstruct : t.construct n = .other := Classical.byContradiction fun h =>
    hn (lt_size_of_construct h)
  simp [originStep, htype, hconstruct, NodeType.isImportPart, NodeType.isPattern] at h

theorem moduleWithin_eq_none_iff : t.moduleWithin (budget + 1) entered n = none ↔
    ∃ b, t.ModuleNests ⟨budget + 1, entered, n⟩ b ∧
      t.moduleWithin b.budget b.entered b.subject = none := by
  constructor
  · intro h
    simp only [moduleWithin] at h
    split at h
    · cases h
    · next hfresh =>
      split at h
      · cases h
      · next next hstep => exact ⟨_, .follow hfresh hstep, h⟩
  · rintro ⟨b, hnests, hb⟩
    cases hnests with
    | follow hfresh hstep => simp [moduleWithin, hfresh, hstep, hb]

/-- The search for a module as a recursion under a guard. -/
def moduleRecursion (t : Tree) : GuardedRecursion t Nat where
  entrance? n := some (t.unwrap n)
  Nests := t.ModuleNests
  Exhausts a := t.moduleWithin a.budget a.entered a.subject = none
  guarded h := by
    cases h with
    | follow hfresh hstep => exact ⟨_, rfl, lt_size_of_originStep hstep, hfresh, rfl, rfl⟩
  exhausts_iff := by
    rintro ⟨budget, entered, n⟩
    cases budget with
    | zero => simp [moduleWithin]
    | succ budget => simpa using moduleWithin_eq_none_iff

theorem moduleWithin_add {m : Option String} (h : t.moduleWithin budget entered n = some m)
    (extra : Nat) : t.moduleWithin (budget + extra) entered n = some m := by
  induction budget generalizing entered n with
  | zero => cases h
  | succ budget ih =>
    rw [show budget + 1 + extra = budget + extra + 1 by omega]
    simp only [moduleWithin] at h ⊢
    split at h
    · next hmem => rw [if_pos hmem]; exact h
    · next hfresh =>
      rw [if_neg hfresh]
      split at h
      · exact h
      · exact ih h

/-- Whether a node comes from a module is found out with any budget larger than the
table. -/
theorem moduleWithin_eq_moduleOf? (t : Tree) (n : Nat) (h : t.size < budget) :
    t.moduleWithin budget [] n = some (t.moduleOf? n) := by
  have hne : t.moduleWithin (t.size + 1) [] n ≠ none :=
    t.moduleRecursion.not_exhausts (a := ⟨t.size + 1, [], n⟩) (by simp [unentered_nil])
  obtain ⟨m, hm⟩ := Option.ne_none_iff_exists'.mp hne
  obtain ⟨extra, rfl⟩ := Nat.exists_eq_add_of_le h
  rw [moduleWithin_add hm extra, moduleOf?, hm, Option.join_some]

end Modules

/-- **Every analysis ends, on every tree.**  One more nested call than there are nodes is
enough for each of them: the budget is not exhausted, and a larger one gives the same
answer.  And however large the budget is, no node is entered twice along a chain of nested
calls. -/
theorem analyses_end (t : Tree) :
    (∀ n extra, t.valueWithin (t.size + 1 + extra) [] n = some (t.value n)) ∧
      (∀ n extra, t.moduleWithin (t.size + 1 + extra) [] n = some (t.moduleOf? n)) ∧
      (∀ goal extra, (t.searchFrom goal).1 ≠ .exhausted ∧
        t.search (t.size + 1 + extra) [] goal {} = t.searchFrom goal) ∧
      t.valueRecursion.EntersOnce ∧ t.moduleRecursion.EntersOnce ∧
      t.searchRecursion.EntersOnce := by
  refine ⟨fun n extra => ?_, fun n extra => ?_, fun goal extra => ⟨?_, ?_⟩,
    t.valueRecursion.entersOnce, t.moduleRecursion.entersOnce, t.searchRecursion.entersOnce⟩
  · exact t.valueWithin_eq_value n (by omega)
  · exact t.moduleWithin_eq_moduleOf? n (by omega)
  · exact t.searchFrom_ne_exhausted goal
  · exact t.search_eq_searchFrom goal (by omega)

end Tree

end ComponentScan
