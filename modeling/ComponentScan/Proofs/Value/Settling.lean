import Mathlib.Dynamics.PeriodicPts.Defs
import ComponentScan.Proofs.Value.Denotation

/-! # Where resolution settles

Resolution goes from node to node, and stops at a node that leads nowhere or that it has
entered before.  `advance` is one such step, where a node that leads nowhere stays where it
is.  For it, the object of a member access is resolved on its own, with nothing entered.

Resolution itself resolves the object with the nodes of the way entered.  This makes no
difference (`Denotes.eq_of_nested`): if the derivation for the object came to a node of the
way, it would come to the member access as well, and so to itself.  So the way of a
resolution is the sequence `n, advance n, advance (advance n), ...` up to the first node
that it has seen already (`value_eq_iterate`).  Such a node is a periodic point of
`advance`, and from a periodic point on the first node to come back is the point itself.
-/
namespace ComponentScan.Tree

/-- The next node on the way to the value of the unwrapped node `n`, or `n` itself if there
is none. -/
def advance (t : Tree) (n : Nat) : Nat :=
  match t.valueStep n with
  | .done => n
  | .follow next => t.unwrap next
  | .entry object name =>
    if t.construct (t.value object) = .object then
      ((t.property? (t.value object) name).map t.unwrap).getD n
    else n

section Steps
variable {t : Tree} {n next object l w : Nat} {name : String}

theorem advance_of_done (h : t.valueStep n = .done) : t.advance n = n := by
  simp [advance, h]

theorem advance_of_follow (h : t.valueStep n = .follow next) :
    t.advance n = t.unwrap next := by
  simp [advance, h]

theorem advance_of_entry (hstep : t.valueStep n = .entry object name)
    (hobject : t.Denotes object l) (hw : t.property? l name = some w) :
    t.advance n = t.unwrap w := by
  obtain ⟨hvalue, hliteral⟩ := denotes_iff.mp hobject
  simp [advance, hstep, hvalue, hliteral, hw]

theorem advance_of_lacking (hstep : t.valueStep n = .entry object name)
    (h : ∀ l, t.Denotes object l → t.property? l name = none) : t.advance n = n := by
  simp only [advance, hstep]
  split
  · next hliteral =>
    rw [h _ (denotes_iff.mpr ⟨rfl, hliteral⟩)]
    rfl
  · rfl

/-- A step goes to a node that is needed, if it goes anywhere. -/
theorem needs_advance (t : Tree) (n : Nat) :
    Relation.ReflTransGen t.Needs n (t.advance n) := by
  cases hstep : t.valueStep n with
  | done =>
    rw [advance_of_done hstep]
  | follow next =>
    rw [advance_of_follow hstep]
    exact .single (.follow hstep)
  | entry object name =>
    by_cases h : ∃ l w, t.Denotes object l ∧ t.property? l name = some w
    · obtain ⟨l, w, hobject, hw⟩ := h
      rw [advance_of_entry hstep hobject hw]
      exact .single (.entry hstep hobject hw)
    · rw [advance_of_lacking hstep]
      intro l hl
      exact Option.eq_none_iff_forall_ne_some.mpr fun w hw => h ⟨l, w, hl, hw⟩

theorem needs_iterate_advance (t : Tree) (n k : Nat) :
    Relation.ReflTransGen t.Needs n (t.advance^[k] n) := by
  induction k with
  | zero => exact .refl
  | succ k ih =>
    rw [Function.iterate_succ_apply']
    exact ih.trans (t.needs_advance _)

/-- Steps keep to unwrapped nodes. -/
theorem unwrap_advance (h : t.unwrap n = n) : t.unwrap (t.advance n) = t.advance n := by
  unfold advance
  split
  · exact h
  · exact t.unwrap_unwrap _
  · split
    · cases t.property? _ _ with
      | none => exact h
      | some w => exact t.unwrap_unwrap w
    · exact h

theorem unwrap_iterate_advance (h : t.unwrap n = n) (k : Nat) :
    t.unwrap (t.advance^[k] n) = t.advance^[k] n := by
  induction k with
  | zero => exact h
  | succ k ih =>
    rw [Function.iterate_succ_apply']
    exact unwrap_advance ih

/-- **The nodes of the way hide no object literal**: the object of a member access at the end
of the way is resolved to what it denotes. -/
theorem Denotes.eq_of_nested {budget l' : Nat} {entered : List Nat}
    (hobject : t.Denotes object l) (hstep : t.valueStep n = .entry object name)
    (hway : ∀ e ∈ entered, Relation.ReflTransGen t.Needs e n)
    (hl : t.valueWithin budget (n :: entered) object = some l') : l' = l := by
  refine hobject.eq_of_valueWithin ?_ hl
  intro e he hreach
  have hback : Relation.ReflTransGen t.Needs e n := by
    rcases List.mem_cons.mp he with rfl | he
    · exact .refl
    · exact hway e he
  -- from the object to the way, along it to the member access, and so to the object again
  exact Avoids.not_calls_self hobject.acc (.tail' (hreach.trans hback) (.object hstep))

end Steps

/-! ## The first node to come back -/

/-- The first `k` nodes from `x` on are different, and the next one is among them. -/
structure ReturnsAt (f : Nat → Nat) (x k : Nat) : Prop where
  /-- The node has been passed before. -/
  returns : ∃ i < k, f^[i] x = f^[k] x
  /-- No earlier node had. -/
  distinct : ∀ j < k, ∀ i < j, f^[i] x ≠ f^[j] x

namespace ReturnsAt
variable {f : Nat → Nat} {x k m : Nat}

theorem le (h : ReturnsAt f x k) (h' : ReturnsAt f x m) : k ≤ m := by
  obtain ⟨i, hi, heq⟩ := h'.returns
  by_contra hlt
  exact h.distinct m (by omega) i hi heq

theorem unique (h : ReturnsAt f x k) (h' : ReturnsAt f x m) : k = m :=
  Nat.le_antisymm (h.le h') (h'.le h)

theorem mem_periodicPts (h : ReturnsAt f x k) : f^[k] x ∈ Function.periodicPts f := by
  obtain ⟨i, hi, heq⟩ := h.returns
  refine Function.mk_mem_periodicPts (n := k - i) (by omega) ?_
  rw [Function.IsPeriodicPt, Function.IsFixedPt]
  calc f^[k - i] (f^[k] x) = f^[k - i] (f^[i] x) := by rw [heq]
    _ = f^[k - i + i] x := (Function.iterate_add_apply f _ _ x).symm
    _ = f^[k] x := by rw [Nat.sub_add_cancel (Nat.le_of_lt hi)]

/-- A periodic point is the first to come back to itself. -/
theorem of_mem_periodicPts (h : x ∈ Function.periodicPts f) :
    ReturnsAt f x (Function.minimalPeriod f x) where
  returns := ⟨0, Function.minimalPeriod_pos_of_mem_periodicPts h,
    Function.iterate_minimalPeriod.symm⟩
  distinct := by
    intro j hj i hi heq
    have hinj := Function.iterate_injOn_Iio_minimalPeriod (f := f) (x := x)
    exact Nat.ne_of_lt hi (hinj (Set.mem_Iio.mpr (by omega)) (Set.mem_Iio.mpr hj) heq)

end ReturnsAt

/-! ## The way of a resolution -/

/-- A resolution from `x` on that has made `k` steps has entered the nodes before, which are
all different, and each of them led on. -/
structure Trail (t : Tree) (x k : Nat) (entered : List Nat) : Prop where
  /-- What has been entered. -/
  mem_iff : ∀ e, e ∈ entered ↔ ∃ i < k, t.advance^[i] x = e
  /-- No node was passed twice. -/
  distinct : ∀ j < k, ∀ i < j, t.advance^[i] x ≠ t.advance^[j] x
  /-- No node was the last one. -/
  moved : ∀ e ∈ entered, t.valueStep e ≠ .done

namespace Trail
variable {t : Tree} {x k n v budget : Nat} {entered : List Nat}

theorem start (t : Tree) (x : Nat) : t.Trail x 0 [] where
  mem_iff := by simp
  distinct := by simp
  moved := by simp

/-- A node that has not been entered is different from the nodes before it. -/
theorem distinct_succ (h : t.Trail x k entered) (hfresh : t.advance^[k] x ∉ entered) :
    ∀ j < k + 1, ∀ i < j, t.advance^[i] x ≠ t.advance^[j] x := by
  intro j hj i hi heq
  by_cases hjk : j = k
  · subst hjk
    exact hfresh ((h.mem_iff _).mpr ⟨i, hi, heq⟩)
  · exact h.distinct j (by omega) i hi heq

/-- The way goes on at a node that is new and leads somewhere. -/
theorem step (h : t.Trail x k entered) (hfresh : t.advance^[k] x ∉ entered)
    (hmoves : t.valueStep (t.advance^[k] x) ≠ .done) :
    t.Trail x (k + 1) (t.advance^[k] x :: entered) where
  mem_iff := by
    intro e
    rw [List.mem_cons, h.mem_iff]
    constructor
    · rintro (rfl | ⟨i, hi, rfl⟩)
      · exact ⟨k, Nat.lt_succ_self k, rfl⟩
      · exact ⟨i, Nat.lt_succ_of_lt hi, rfl⟩
    · rintro ⟨i, hi, rfl⟩
      by_cases hik : i = k
      · exact .inl (by rw [hik])
      · exact .inr ⟨i, by omega, rfl⟩
  distinct := h.distinct_succ hfresh
  moved := by
    intro e he
    rcases List.mem_cons.mp he with rfl | he
    · exact hmoves
    · exact h.moved e he

/-- The nodes of the way need the node it has come to. -/
theorem needs (h : t.Trail x k entered) :
    ∀ e ∈ entered, Relation.ReflTransGen t.Needs e (t.advance^[k] x) := by
  intro e he
  obtain ⟨i, hi, rfl⟩ := (h.mem_iff e).mp he
  have hsplit : t.advance^[k] x = t.advance^[k - i] (t.advance^[i] x) := by
    rw [← Function.iterate_add_apply, Nat.sub_add_cancel (Nat.le_of_lt hi)]
  rw [hsplit]
  exact t.needs_iterate_advance _ _

/-- The way ends where the node has been passed before. -/
theorem returnsAt_of_mem (h : t.Trail x k entered) (hmem : t.advance^[k] x ∈ entered) :
    ReturnsAt t.advance x k :=
  ⟨(h.mem_iff _).mp hmem, h.distinct⟩

/-- The way ends at a node that stays where it is: the same node comes back at once. -/
theorem returnsAt_of_fixed (h : t.Trail x k entered) (hfresh : t.advance^[k] x ∉ entered)
    (hfixed : t.advance (t.advance^[k] x) = t.advance^[k] x) :
    ReturnsAt t.advance x (k + 1) ∧ t.advance^[k] x = t.advance^[k + 1] x := by
  have heq : t.advance^[k] x = t.advance^[k + 1] x := by
    rw [Function.iterate_succ_apply', hfixed]
  exact ⟨⟨⟨k, Nat.lt_succ_self k, heq⟩, h.distinct_succ hfresh⟩, heq⟩

/-- **Resolution ends at the first node to come back.** -/
theorem exists_returnsAt (h : t.Trail x k entered) (hn : t.unwrap n = t.advance^[k] x)
    (hv : t.valueWithin budget entered n = some v) :
    ∃ m, ReturnsAt t.advance x m ∧ v = t.advance^[m] x := by
  induction budget generalizing k entered n with
  | zero => cases hv
  | succ budget ih =>
    have hmove := valueMove_of_valueWithin hv
    have hway := h.needs
    rw [← hn] at hway
    have hnext {next : Nat} (hadvance : t.advance (t.unwrap n) = t.unwrap next) :
        t.unwrap next = t.advance^[k + 1] x := by
      rw [Function.iterate_succ_apply', ← hn, hadvance]
    have hfixed (hfresh : t.unwrap n ∉ entered) (hstay : t.advance (t.unwrap n) = t.unwrap n) :
        ∃ m, ReturnsAt t.advance x m ∧ t.unwrap n = t.advance^[m] x := by
      rw [hn] at hfresh hstay ⊢
      exact ⟨k + 1, h.returnsAt_of_fixed hfresh hstay⟩
    have hgrow (hfresh : t.unwrap n ∉ entered) (hmoves : t.valueStep (t.unwrap n) ≠ .done) :
        t.Trail x (k + 1) (t.unwrap n :: entered) := by
      rw [hn] at hfresh hmoves ⊢
      exact h.step hfresh hmoves
    cases hmove with
    | cut hmem =>
      rw [hn] at hmem ⊢
      exact ⟨k, h.returnsAt_of_mem hmem, rfl⟩
    | done hfresh hstep => exact hfixed hfresh (advance_of_done hstep)
    | follow hfresh hstep hv =>
      exact ih (hgrow hfresh (by simp [hstep])) (hnext (advance_of_follow hstep)) hv
    | lacking hfresh hstep hl hnone =>
      refine hfixed hfresh (advance_of_lacking hstep ?_)
      intro l hobject
      obtain rfl := hobject.eq_of_nested hstep hway hl
      exact hnone hobject.construct_eq
    | entry hfresh hstep hl hliteral hw hv =>
      have htrail := hgrow hfresh (by simp [hstep])
      have hobject := denotes_of_valueWithin htrail.moved hl hliteral
      exact ih htrail (hnext (advance_of_entry hstep hobject hw)) hv

end Trail

section Values
variable {t : Tree} {n : Nat}

/-- The value of a node is the first node to come back on the way from it. -/
theorem value_eq_iterate (t : Tree) (n : Nat) :
    ∃ k, ReturnsAt t.advance (t.unwrap n) k ∧ t.value n = t.advance^[k] (t.unwrap n) :=
  (Trail.start t (t.unwrap n)).exists_returnsAt rfl
    (t.valueWithin_eq_value n (Nat.lt_succ_self t.size))

/-- A node to which all further steps come back is its own value. -/
theorem value_of_mem_periodicPts (hn : t.unwrap n = n)
    (h : n ∈ Function.periodicPts t.advance) : t.value n = n := by
  obtain ⟨k, hreturns, hvalue⟩ := t.value_eq_iterate n
  rw [hn] at hreturns hvalue
  rw [hvalue, hreturns.unique (.of_mem_periodicPts h), Function.iterate_minimalPeriod]

/-- **The value of a value is that value.**  It is reached by steps of resolution, and further
steps only lead back to it, be it that the node stays where it is or that it lies on a
cycle. -/
theorem value_is_settled (t : Tree) (n : Nat) :
    t.value (t.value n) = t.value n ∧
      (∃ k, t.value n = t.advance^[k] (t.unwrap n)) ∧
      t.value n ∈ Function.periodicPts t.advance := by
  obtain ⟨k, hreturns, hvalue⟩ := t.value_eq_iterate n
  have hperiodic : t.value n ∈ Function.periodicPts t.advance := by
    rw [hvalue]
    exact hreturns.mem_periodicPts
  have hunwrapped : t.unwrap (t.value n) = t.value n := by
    rw [hvalue]
    exact unwrap_iterate_advance (t.unwrap_unwrap n) k
  exact ⟨value_of_mem_periodicPts hunwrapped hperiodic, ⟨k, hvalue⟩, hperiodic⟩

end Values

end ComponentScan.Tree
