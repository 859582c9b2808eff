import Mathlib.Data.Option.Basic
import ComponentScan.Proofs.Component.Definition
import ComponentScan.Proofs.Tree.Traversal

/-! # The entries of a class specification

A `createClass` call finds its specification by resolving its first argument to an object
literal.  An entry of that literal asks the other way round: which calls is my literal
handed to?  It knows two answers (`HandedTo`).  The literal may be an argument itself, or
it may be the initial value of a variable that is an argument somewhere in the block of
its declaration.

The main result says exactly when such an entry is taken for a component of its own:
when it can return a UI element, and no call that the literal is handed to in one of
these ways makes a class.  So the two views agree on a literal that goes to its call in
one of them.  Resolution knows more ways; a literal in parentheses is enough to keep an
entry from finding its call.
-/
namespace ComponentScan.Tree

/-- The node `n` is an argument of `k`. -/
def IsArgumentOf (t : Tree) (n k : Nat) : Prop :=
  ∃ a, t.parent? n = some a ∧ t.type a = .arguments ∧ t.parent? a = some k

/-- The identifier `i` stands for the variable of the declarator `d`, in the block of the
declaration. -/
structure Names (t : Tree) (d i : Nat) : Prop where
  isIdentifier : t.type i = .identifier
  /-- It is spelled like the variable. -/
  text_eq : ∃ name, t.child? d .name = some name ∧ t.type name = .identifier ∧
    t.text i = t.text name
  /-- It is in the same block, or in a block inside. -/
  inBlock : ∃ block, (t.ancestors d).find? (fun n => (t.type n).isBlock) = some block ∧
    (Descent.contents t).Below block i
  binding_eq : t.binding? i = some d

/-- The object literal `o` is handed to `k`, in a way that its entries can see. -/
inductive HandedTo (t : Tree) (o : Nat) : Nat → Prop
  /-- The literal is an argument. -/
  | directly {k : Nat} : t.IsArgumentOf o k → HandedTo t o k
  /-- A variable that was declared with the literal is an argument. -/
  | byName {d i k : Nat} : t.parent? o = some d → t.type d = .variableDeclarator →
      t.child? d .value = some o → t.Names d i → t.IsArgumentOf i k → HandedTo t o k

section Containers
variable {t : Tree} {d e o k : Nat}

theorem mem_callsTaking : k ∈ t.callsTaking d ↔ ∃ i, t.Names d i ∧ t.IsArgumentOf i k := by
  unfold callsTaking
  constructor
  · intro h
    split at h
    · next name block hname hblock =>
      split at h
      · next hidentifier =>
        obtain ⟨i, hi, hk⟩ := List.mem_filterMap.mp h
        simp only [Option.bind_eq_bind, Option.bind_eq_some_iff, Option.guard_eq_some',
          exists_const, Option.pure_def, Option.some.injEq] at hk
        obtain ⟨⟨htype, htext⟩, a, ha, harguments, _, hcall, hbinding, rfl⟩ := hk
        have hbelow := (Descent.contents t).mem_visit.mp hi
        exact ⟨i, ⟨htype, ⟨name, hname, hidentifier, htext⟩, ⟨block, hblock, hbelow⟩, hbinding⟩,
          a, ha, harguments, hcall⟩
      · cases h
    · cases h
  · rintro ⟨i, hnames, a, ha, harguments, hcall⟩
    obtain ⟨name, hname, hidentifier, htext⟩ := hnames.text_eq
    obtain ⟨block, hblock, hbelow⟩ := hnames.inBlock
    simp only [hname, hblock, hidentifier, if_true]
    refine List.mem_filterMap.mpr ⟨i, (Descent.contents t).mem_visit.mpr hbelow, ?_⟩
    simp [guard, hnames.isIdentifier, htext, ha, harguments, hcall, hnames.binding_eq]

/-- What an entry of an object literal belongs to: the literal at most, and all that the
literal is handed to. -/
theorem mem_containers_of_handedTo (he : t.parent? e = some o) (ho : t.construct o = .object)
    (h : t.HandedTo o k) : k ∈ t.containers e := by
  have htype : t.type o ≠ .classBody := by simp [type_of_construct ho rfl]
  simp only [containers, he, htype, ho, if_true, if_false]
  cases h with
  | directly harg =>
    obtain ⟨a, ha, harguments, hk⟩ := harg
    simp [ha, harguments, hk]
  | byName hd hdeclarator hvalue hnames harg =>
    have hk := mem_callsTaking.mpr ⟨_, hnames, harg⟩
    simp [hd, hdeclarator, hvalue, hk]

theorem handedTo_of_mem_containers (he : t.parent? e = some o) (ho : t.construct o = .object)
    (h : k ∈ t.containers e) : k = o ∨ t.HandedTo o k := by
  have htype : t.type o ≠ .classBody := by simp [type_of_construct ho rfl]
  simp only [containers, he, htype, ho, if_true, if_false] at h
  split at h
  · exact .inl (List.mem_singleton.mp h)
  · next holder hholder =>
    split at h
    · next harguments hk =>
      obtain rfl := List.mem_singleton.mp h
      exact .inr (.directly ⟨holder, hholder, harguments, hk⟩)
    · next _ hdeclarator =>
      rcases List.mem_cons.mp h with rfl | htaking
      · exact .inl rfl
      · split at htaking
        · next hvalue =>
          obtain ⟨i, hnames, harg⟩ := mem_callsTaking.mp htaking
          exact .inr (.byName hholder hdeclarator hvalue hnames harg)
        · cases htaking
    · exact .inl (List.mem_singleton.mp h)

/-- An object literal makes no class. -/
theorem createsClass_of_object (ho : t.construct o = .object) : t.createsClass o = false := by
  have htype : t.type o = .object := type_of_construct ho rfl
  have hunwrap : t.unwrap o = o := unwrap_of_construct (by simp [ho])
  have hcall : t.callee? o = none := by simp [callee?, call?, hunwrap, htype, ho]
  simp [createsClass, callsReact, hcall]

/-- An object literal is no class. -/
theorem isComponentClass_of_object (ho : t.construct o = .object) :
    t.isComponentClass o = false := by
  have hunwrap : t.unwrap o = o := unwrap_of_construct (by simp [ho])
  simp [isComponentClass, hunwrap, ho]

/-- **The entries of an object literal are part of a component** if the literal is handed
to a call that makes a class. -/
theorem isPartOfComponent_iff (he : t.parent? e = some o) (ho : t.construct o = .object) :
    t.isPartOfComponent e = true ↔
      ∃ k, t.HandedTo o k ∧ (t.createsClass k = true ∨ t.isComponentClass k = true) := by
  simp only [isPartOfComponent, List.any_eq_true, Bool.or_eq_true]
  constructor
  · rintro ⟨k, hk, hclass⟩
    rcases handedTo_of_mem_containers he ho hk with rfl | hhanded
    · -- the literal is a container as well, but never one that makes a class
      simp [createsClass_of_object ho, isComponentClass_of_object ho] at hclass
    · exact ⟨k, hhanded, hclass⟩
  · rintro ⟨k, hhanded, hclass⟩
    exact ⟨k, mem_containers_of_handedTo he ho hhanded, hclass⟩

end Containers

section Entries
variable {t : Tree} {e : Nat}

/-- Only a named entry can have a function to judge it by. -/
theorem construct_of_mayReturnElement (htype : t.type e = .pair ∨ t.type e = .methodDefinition)
    (h : t.mayReturnElement e = .ok true) : t.construct e = .property := by
  by_cases hnamed : t.isNamed e = true
  · rcases htype with htype | htype <;> simp [construct, hnamed, htype, NodeType.construct]
  · have hconstruct : t.construct e = .other := by simp [construct, hnamed]
    have hunwrap : t.unwrap e = e := unwrap_eq_self (by
      rcases htype with htype | htype <;> simp [htype, NodeType.isTransparent])
    have hnone : t.decidingFunction? e = none := by
      simp [decidingFunction?, hunwrap, hconstruct, Construct.isFunction]
    simp [mayReturnElement, hnone] at h

theorem isStateless_entry (htype : t.type e = .pair ∨ t.type e = .methodDefinition) :
    t.isStateless e = true ↔
      t.mayReturnElement e = .ok true ∧ t.isPartOfComponent e = false := by
  rw [isStateless_iff]
  constructor
  · rintro ⟨hkind, hreturns⟩
    have hentry := construct_of_mayReturnElement htype hreturns
    rcases hkind with hfunction | ⟨-, hpart⟩
    · rw [hentry] at hfunction
      cases hfunction
    · exact ⟨hreturns, hpart⟩
  · rintro ⟨hreturns, hpart⟩
    exact ⟨.inr ⟨construct_of_mayReturnElement htype hreturns, hpart⟩, hreturns⟩

end Entries

theorem construct_of_specObject? {t : Tree} {c o : Nat} (h : t.specObject? c = some o) :
    t.construct o = .object := by
  simp only [specObject?, Option.bind_eq_bind, Option.bind_eq_some_iff, Option.guard_eq_some',
    exists_const, Option.pure_def, Option.some.injEq] at h
  obtain ⟨argument, -, hobject, rfl⟩ := h
  exact hobject

/-- **When an entry of a specification counts as a component of its own**: if it can return
a UI element, and no call that makes a class is handed the literal in a way that the entry
can see.  In particular it never does if the call that was resolved to the literal is
handed it in such a way. -/
theorem spec_entry_is_stateless_iff {t : Tree} {c o e : Nat} (hclass : t.createsClass c = true)
    (hspec : t.specObject? c = some o) (he : t.parent? e = some o)
    (htype : t.type e = .pair ∨ t.type e = .methodDefinition) :
    (t.isStateless e = true ↔ t.mayReturnElement e = .ok true ∧
      ∀ k, t.HandedTo o k → t.createsClass k = false ∧ t.isComponentClass k = false) ∧
    (t.HandedTo o c → t.isStateless e = false) := by
  have hpart := isPartOfComponent_iff he (construct_of_specObject? hspec)
  refine ⟨?_, ?_⟩
  · rw [isStateless_entry htype, ← Bool.not_eq_true, hpart]
    simp only [not_exists, not_and, not_or, Bool.not_eq_true]
  · intro hhanded
    have : t.isPartOfComponent e = true := hpart.mpr ⟨c, hhanded, .inl hclass⟩
    rw [← Bool.not_eq_true, isStateless_entry htype]
    simp [this]

/-- The tree of `import R from 'react';const s={a:()=><b/>};R.createClass(s)`. -/
def specByName : Tree :=
  Table.toTree {
    source := Utf8.encode
      "import R from 'react';const s=\x7ba:()=><b/>\x7d;R.createClass(s)"
    nodes := #[
      ⟨.program, none, 0, 59, none, true⟩,
      ⟨.importStatement, some 0, 0, 22, none, true⟩,
      ⟨.importClause, some 1, 7, 8, none, true⟩,
      ⟨.identifier, some 2, 7, 8, none, true⟩,
      ⟨.string, some 1, 14, 21, some .source, true⟩,
      ⟨.lexicalDeclaration, some 0, 22, 43, none, true⟩,
      ⟨.variableDeclarator, some 5, 28, 42, none, true⟩,
      ⟨.identifier, some 6, 28, 29, some .name, true⟩,
      ⟨.object, some 6, 30, 42, some .value, true⟩,
      ⟨.pair, some 8, 31, 41, none, true⟩,
      ⟨.propertyIdentifier, some 9, 31, 32, some .key, true⟩,
      ⟨.arrowFunction, some 9, 33, 41, some .value, true⟩,
      ⟨.formalParameters, some 11, 33, 35, some .parameters, true⟩,
      ⟨.jsxSelfClosingElement, some 11, 37, 41, some .body, true⟩,
      ⟨.expressionStatement, some 0, 43, 59, none, true⟩,
      ⟨.callExpression, some 14, 43, 59, none, true⟩,
      ⟨.memberExpression, some 15, 43, 56, some .function, true⟩,
      ⟨.identifier, some 16, 43, 44, some .object, true⟩,
      ⟨.propertyIdentifier, some 16, 45, 56, some .property, true⟩,
      ⟨.arguments, some 15, 56, 59, some .arguments, true⟩,
      ⟨.identifier, some 19, 57, 58, none, true⟩]
    nonempty := by decide
    ordered := by decide }

/-- The only entry can return an element, but its literal is handed to the call by name. -/
theorem spec_by_name_entry_is_no_component :
    specByName.mayReturnElement 9 = .ok true ∧ specByName.isStateless 9 = false := by
  have hcall : 15 ∈ specByName.callsTaking 6 := by decide +kernel
  obtain ⟨i, hnames, harg⟩ := mem_callsTaking.mp hcall
  have hhanded : specByName.HandedTo 8 15 :=
    .byName (by decide +kernel) (by decide +kernel) (by decide +kernel) hnames harg
  exact ⟨by decide +kernel, (spec_entry_is_stateless_iff (c := 15) (o := 8) (by decide +kernel)
    (by decide +kernel) (by decide +kernel) (.inl (by decide +kernel))).2 hhanded⟩

/-- The tree of `import R from 'react';R.createClass(({a:()=><b/>}))`. -/
def specInParentheses : Tree :=
  Table.toTree {
    source := Utf8.encode "import R from 'react';R.createClass((\x7ba:()=><b/>\x7d))"
    nodes := #[
      ⟨.program, none, 0, 51, none, true⟩,
      ⟨.importStatement, some 0, 0, 22, none, true⟩,
      ⟨.importClause, some 1, 7, 8, none, true⟩,
      ⟨.identifier, some 2, 7, 8, none, true⟩,
      ⟨.string, some 1, 14, 21, some .source, true⟩,
      ⟨.expressionStatement, some 0, 22, 51, none, true⟩,
      ⟨.callExpression, some 5, 22, 51, none, true⟩,
      ⟨.memberExpression, some 6, 22, 35, some .function, true⟩,
      ⟨.identifier, some 7, 22, 23, some .object, true⟩,
      ⟨.propertyIdentifier, some 7, 24, 35, some .property, true⟩,
      ⟨.arguments, some 6, 35, 51, some .arguments, true⟩,
      ⟨.parenthesizedExpression, some 10, 36, 50, none, true⟩,
      ⟨.object, some 11, 37, 49, none, true⟩,
      ⟨.pair, some 12, 38, 48, none, true⟩,
      ⟨.propertyIdentifier, some 13, 38, 39, some .key, true⟩,
      ⟨.arrowFunction, some 13, 40, 48, some .value, true⟩,
      ⟨.formalParameters, some 15, 40, 42, some .parameters, true⟩,
      ⟨.jsxSelfClosingElement, some 15, 44, 48, some .body, true⟩]
    nonempty := by decide
    ordered := by decide }

/-- The two views of a specification disagree on a literal in parentheses: the call defines
a component by it, and its only entry is a component as well. -/
theorem spec_in_parentheses_entry_is_component :
    specInParentheses.construct 6 = .call ∧ specInParentheses.createsClass 6 = true ∧
      specInParentheses.specObject? 6 = some 12 ∧ specInParentheses.parent? 13 = some 12 ∧
      specInParentheses.type 13 = .pair ∧ specInParentheses.isStateless 13 = true ∧
      specInParentheses.definitions = [⟨.createClass, 6, 12⟩, ⟨.stateless, 13, 15⟩] := by
  decide +kernel

end ComponentScan.Tree
