import Mathlib.Data.Option.Basic
import ComponentScan.Component.Definition
import ComponentScan.Proofs.Tree.Construct

/-! # The ways to define a component

A node defines a component in one of four ways: as a function, as a method of an object
literal, as a class, or as a call that makes a class (`DefinedAt`).  What holds of every
definition is proved by cases on these ways.
-/
namespace ComponentScan.Tree

/-- The node `n` defines the component `d`. -/
inductive DefinedAt (t : Tree) (n : Nat) : Definition → Prop
  /-- A function, judged by itself or by the entry that it is the value of. -/
  | function {s : Nat} : (t.construct n).isFunction = true → t.judgedNode? n = some s →
      t.isStateless s = true → DefinedAt t n ⟨.stateless, s, n⟩
  /-- A method of an object literal. -/
  | method : t.construct n = .property → t.type n = .methodDefinition →
      (t.parent? n).any (t.construct · = .object) = true → t.isStateless n = true →
      DefinedAt t n ⟨.stateless, n, n⟩
  /-- A component class. -/
  | classBased : t.construct n = .classDefinition → t.isComponentClass n = true →
      DefinedAt t n ⟨.classBased, n, n⟩
  /-- A call that makes a class; the component is said to be at the object literal that the
  call is handed, if that can be found. -/
  | createClass : t.construct n = .call → t.createsClass n = true →
      DefinedAt t n ⟨.createClass, n, (t.specObject? n).getD n⟩

section Ways
variable {t : Tree} {n s : Nat}

theorem definedAt_of_definitionAt? {d : Definition} (h : t.definitionAt? n = some d) :
    t.DefinedAt n d := by
  cases hc : t.construct n with
  | functionDeclaration | functionExpression | arrowFunction =>
    simp only [definitionAt?, hc, Option.bind_eq_bind, Option.bind_eq_some_iff,
      Option.guard_eq_some', exists_const, Option.pure_def, Option.some.injEq] at h
    obtain ⟨s, hs, hstateless, rfl⟩ := h
    exact .function (by rw [hc]; rfl) hs hstateless
  | property =>
    simp only [definitionAt?, hc, Option.bind_eq_bind, Option.bind_eq_some_iff,
      Option.guard_eq_some', exists_const, Option.pure_def, Option.some.injEq] at h
    obtain ⟨⟨htype, hobject⟩, hstateless, rfl⟩ := h
    exact .method hc htype hobject hstateless
  | classDefinition =>
    simp only [definitionAt?, hc, Option.bind_eq_bind, Option.bind_eq_some_iff,
      Option.guard_eq_some', exists_const, Option.pure_def, Option.some.injEq] at h
    obtain ⟨hclass, rfl⟩ := h
    exact .classBased hc hclass
  | call =>
    simp only [definitionAt?, hc, Option.bind_eq_bind, Option.bind_eq_some_iff,
      Option.guard_eq_some', exists_const, Option.pure_def, Option.some.injEq] at h
    obtain ⟨hcreates, rfl⟩ := h
    exact .createClass hc hcreates
  | _ => simp [definitionAt?, hc] at h

/-- A function is judged by itself or by its parent. -/
theorem judgedNode?_cases (h : t.judgedNode? n = some s) : s = n ∨ t.parent? n = some s := by
  unfold judgedNode? at h
  split at h
  · exact .inl (Option.some.inj h).symm
  · next parent hparent =>
    split at h
    · split at h
      · cases h
      · exact .inr (hparent.trans h)
    · exact .inl (Option.some.inj h).symm

/-- A stateless component can return a UI element.  It is a function, or an entry that is no
part of another component. -/
theorem isStateless_iff : t.isStateless n = true ↔
    ((t.construct n).isFunction = true ∨
      t.construct n = .property ∧ t.isPartOfComponent n = false) ∧
    t.mayReturnElement n = .ok true := by
  simp only [isStateless, Bool.and_eq_true, Bool.or_eq_true, decide_eq_true_eq,
    Bool.not_eq_true']
  refine and_congr_right fun _ => ?_
  cases t.mayReturnElement n <;> simp

/-- Only functions and entries are stateless components. -/
theorem construct_of_isStateless (h : t.isStateless n = true) :
    (t.construct n).isFunction = true ∨ t.construct n = .property := by
  rcases (isStateless_iff.mp h).1 with hfunction | ⟨hproperty, -⟩
  · exact .inl hfunction
  · exact .inr hproperty

end Ways

end ComponentScan.Tree
