import ComponentScan.Proofs.Resolution
import ComponentScan.Proofs.Termination

/-! # What stands for an object literal

To resolve a member access, its object is resolved first, and the access leads on only if
this gives an object literal.  `Denotes` says what stands for an object literal without
mentioning a budget or the nodes that have been entered, by derivations that are finite.

Resolution finds an object literal exactly where there is such a derivation
(`denotes_iff`).  A cut ends at a node that led somewhere, so it never gives a literal; all
that resolution met on the way to one is then a derivation.  Conversely, a node does not
occur in the derivation for itself (`Denotes.acc`), so resolution along a derivation never
comes back to a node that it has entered, and nothing cuts it short, unless it began with
nodes that occur in the derivation (`Denotes.eq_of_valueWithin`).
-/
namespace ComponentScan.Tree

/-! ## Derivations -/

/-- The node `n` stands for the object literal `o`. -/
inductive Denotes (t : Tree) : Nat → Nat → Prop
  /-- The node is the literal. -/
  | literal {n : Nat} : t.construct (t.unwrap n) = .object → Denotes t n (t.unwrap n)
  /-- The node has the value of another one. -/
  | follow {n next o : Nat} : t.valueStep (t.unwrap n) = .follow next → Denotes t next o →
      Denotes t n o
  /-- The node is a member access to an entry of a literal. -/
  | entry {n object l w o : Nat} {name : String} :
      t.valueStep (t.unwrap n) = .entry object name → Denotes t object l →
      t.property? l name = some w → Denotes t w o → Denotes t n o

/-- To resolve the unwrapped node `n`, the unwrapped node `m` is resolved as well. -/
inductive Needs (t : Tree) : Nat → Nat → Prop
  | follow {n next : Nat} : t.valueStep n = .follow next → Needs t n (t.unwrap next)
  | object {n object : Nat} {name : String} : t.valueStep n = .entry object name →
      Needs t n (t.unwrap object)
  | entry {n object l w : Nat} {name : String} : t.valueStep n = .entry object name →
      t.Denotes object l → t.property? l name = some w → Needs t n (t.unwrap w)

section Derivations
variable {t : Tree} {n o o' v budget : Nat} {entered : List Nat}

/-- An object literal leads nowhere. -/
theorem valueStep_of_object (h : t.construct n = .object) : t.valueStep n = .done := by
  simp [valueStep, type_of_construct h rfl]

theorem Denotes.construct_eq (h : t.Denotes n o) : t.construct o = .object := by
  induction h with
  | literal h => exact h
  | follow _ _ ih => exact ih
  | entry _ _ _ _ _ ih => exact ih

/-- A node stands for one literal only. -/
theorem Denotes.unique (h : t.Denotes n o) (h' : t.Denotes n o') : o = o' := by
  induction h generalizing o' with
  | literal hliteral =>
    have hdone := valueStep_of_object hliteral
    cases h' with
    | literal => rfl
    | follow hstep => cases hdone.symm.trans hstep
    | entry hstep => cases hdone.symm.trans hstep
  | follow hstep _ ih =>
    cases h' with
    | literal hliteral => cases hstep.symm.trans (valueStep_of_object hliteral)
    | follow hstep' h' => cases hstep.symm.trans hstep'; exact ih h'
    | entry hstep' => cases hstep.symm.trans hstep'
  | entry hstep _ hw _ ihobject ih =>
    cases h' with
    | literal hliteral => cases hstep.symm.trans (valueStep_of_object hliteral)
    | follow hstep' => cases hstep.symm.trans hstep'
    | entry hstep' hobject' hw' h' =>
      cases hstep.symm.trans hstep'
      obtain rfl := ihobject hobject'
      cases hw.symm.trans hw'
      exact ih h'

/-- **A derivation is finite**: what is resolved on the way ends. -/
theorem Denotes.acc (h : t.Denotes n o) : Acc (Function.swap t.Needs) (t.unwrap n) := by
  induction h with
  | literal hliteral =>
    have hdone := valueStep_of_object hliteral
    refine Acc.intro _ fun m hm => ?_
    cases hm with
    | follow hstep | object hstep | entry hstep => cases hdone.symm.trans hstep
  | follow hstep _ ih =>
    refine Acc.intro _ fun m hm => ?_
    cases hm with
    | follow hstep' => cases hstep.symm.trans hstep'; exact ih
    | object hstep' | entry hstep' => cases hstep.symm.trans hstep'
  | entry hstep hobject hw _ ihobject ih =>
    refine Acc.intro _ fun m hm => ?_
    cases hm with
    | follow hstep' => cases hstep.symm.trans hstep'
    | object hstep' => cases hstep.symm.trans hstep'; exact ihobject
    | entry hstep' hobject' hw' =>
      cases hstep.symm.trans hstep'
      obtain rfl := hobject.unique hobject'
      cases hw.symm.trans hw'
      exact ih

/-! ## Resolution -/

/-- A literal that resolution finds is denoted.  What has been entered led somewhere, so it
is no literal. -/
theorem denotes_of_valueWithin (hentered : ∀ e ∈ entered, t.valueStep e ≠ .done)
    (h : t.valueWithin budget entered n = some o) (ho : t.construct o = .object) :
    t.Denotes n o := by
  induction budget generalizing entered n o with
  | zero => cases h
  | succ budget ih =>
    have hnext (hstep : t.valueStep (t.unwrap n) ≠ .done) :
        ∀ e ∈ t.unwrap n :: entered, t.valueStep e ≠ .done := by
      intro e he
      rcases List.mem_cons.mp he with rfl | he
      · exact hstep
      · exact hentered e he
    cases valueMove_of_valueWithin h with
    | cut hmem => exact absurd (valueStep_of_object ho) (hentered _ hmem)
    | done _ _ => exact .literal ho
    | follow _ hstep h => exact .follow hstep (ih (hnext (by simp [hstep])) h ho)
    | lacking _ _ _ _ => exact .literal ho
    | entry _ hstep hobject hliteral hw h =>
      have hclear := hnext (by simp [hstep])
      exact .entry hstep (ih hclear hobject hliteral) hw (ih hclear h ho)

/-- **Resolution finds the literal that a node denotes**, whatever has been entered, as long
as nothing of it is needed. -/
theorem Denotes.eq_of_valueWithin (h : t.Denotes n o)
    (hclear : Avoids t.Needs (t.unwrap n) entered)
    (hv : t.valueWithin budget entered n = some v) : v = o := by
  induction h generalizing budget entered v with
  | literal hliteral =>
    have hdone := valueStep_of_object hliteral
    cases budget with
    | zero => cases hv
    | succ budget =>
      cases valueMove_of_valueWithin hv with
      | cut | done | lacking => rfl
      | follow _ hstep | entry _ hstep => cases hdone.symm.trans hstep
  | @follow n next o hstep hnext ih =>
    cases budget with
    | zero => cases hv
    | succ budget =>
      have hends := (Denotes.follow hstep hnext).acc
      cases valueMove_of_valueWithin hv with
      | cut hmem => exact absurd hmem hclear.not_mem
      | done _ hstep' | lacking _ hstep' | entry _ hstep' => cases hstep.symm.trans hstep'
      | follow _ hstep' hv =>
        cases hstep.symm.trans hstep'
        exact ih (hclear.cons hends (.follow hstep)) hv
  | @entry n object l w o name hstep hobject hw hentry ihobject ih =>
    cases budget with
    | zero => cases hv
    | succ budget =>
      have hends := (Denotes.entry hstep hobject hw hentry).acc
      have hclearObject := hclear.cons hends (.object hstep)
      have hclearEntry := hclear.cons hends (.entry hstep hobject hw)
      cases valueMove_of_valueWithin hv with
      | cut hmem => exact absurd hmem hclear.not_mem
      | done _ hstep' | follow _ hstep' => cases hstep.symm.trans hstep'
      | lacking _ hstep' hl hnone =>
        cases hstep.symm.trans hstep'
        obtain rfl := ihobject hclearObject hl
        exact absurd (hw.symm.trans (hnone hobject.construct_eq)) (by simp)
      | entry _ hstep' hl _ hw' hv =>
        cases hstep.symm.trans hstep'
        obtain rfl := ihobject hclearObject hl
        cases hw.symm.trans hw'
        exact ih hclearEntry hv

/-- **The object literals among the values are those that are denoted.** -/
theorem denotes_iff : t.Denotes n o ↔ t.value n = o ∧ t.construct o = .object := by
  have hvalue := t.valueWithin_eq_value n (Nat.lt_succ_self t.size)
  constructor
  · intro h
    exact ⟨h.eq_of_valueWithin (.nil _ _) hvalue, h.construct_eq⟩
  · rintro ⟨rfl, ho⟩
    exact denotes_of_valueWithin (fun _ he => absurd he List.not_mem_nil) hvalue ho

end Derivations

end ComponentScan.Tree
