import Mathlib.Data.Option.Basic
import ComponentScan.Binding.Lookup
import ComponentScan.Proofs.Tree.Construct
import ComponentScan.Proofs.Tree.Traversal

/-! # Where names are bound

A name is looked up at the nodes that enclose its use.  What such a node binds the name to is
always a place inside this node: a part of a declaration, of a parameter or of an import, or
the node itself.  So a binding is a node of the table, and it is enclosed by a node that
encloses the use as well (`exists_of_binding?`).
-/
namespace ComponentScan.Tree

/-- The node `n` is `a` itself, or inside it. -/
def Encloses (t : Tree) (a n : Nat) : Prop :=
  a ∈ n :: t.ancestors n

namespace Encloses
variable {t : Tree} {a b n : Nat}

theorem refl (t : Tree) (n : Nat) : t.Encloses n n :=
  List.mem_cons_self ..

theorem of_parent? (h : t.parent? n = some a) : t.Encloses a n := by
  rw [Encloses, ancestors_of_parent? h]
  exact List.mem_cons_of_mem _ (List.mem_cons_self ..)

theorem trans (hab : t.Encloses a b) (hbn : t.Encloses b n) : t.Encloses a n := by
  induction n using Nat.strongRecOn with
  | ind n ih =>
    rcases List.mem_cons.mp hbn with rfl | hbn
    · exact hab
    · cases hp : t.parent? n with
      | none => rw [ancestors_eq_nil hp] at hbn; cases hbn
      | some p =>
        rw [ancestors_of_parent? hp] at hbn
        have hap := ih p (Table.parent?_lt hp) hbn
        rw [Encloses, ancestors_of_parent? hp]
        exact List.mem_cons_of_mem _ hap

theorem lt_size (h : t.Encloses a n) (ha : a < t.size) : n < t.size := by
  rcases List.mem_cons.mp h with rfl | h
  · exact ha
  · cases hp : t.parent? n with
    | none => rw [ancestors_eq_nil hp] at h; cases h
    | some p => exact Table.lt_size_of_parent? hp

theorem of_child? {field : Field} (h : t.child? a field = some n) : t.Encloses a n :=
  of_parent? (parent?_of_child? h)

theorem of_mem_contents (h : n ∈ t.contents a) : t.Encloses a n :=
  of_parent? (mem_contents.mp h).1

end Encloses

section Places
variable {t : Tree} {name : String} {n b : Nat}

/-! ## Patterns -/

/-- How a pattern binds a name, by the type of the pattern. -/
theorem patternBinding?_eq (t : Tree) (name : String) (n : Nat) : t.patternBinding? name n =
    match t.type n with
    | .identifier | .shorthandPropertyIdentifierPattern =>
      if t.text n = name then some n else none
    | .pairPattern => (t.child? n .value).bind fun value =>
      if t.type value = .identifier then if t.text value = name then some n else none
      else t.patternBinding? name value
    | .assignmentPattern | .objectAssignmentPattern =>
      (t.child? n .left).bind (t.patternBinding? name)
    | .objectPattern | .arrayPattern | .restPattern =>
      (t.contents n).findSome? (t.patternBinding? name)
    | _ => none := by
  rw [patternBinding?]
  split
  case h_3 => split <;> simp [*]
  case h_4 | h_5 => split <;> simp [*]
  all_goals simp [*]

theorem encloses_patternBinding? (h : t.patternBinding? name n = some b) : t.Encloses n b := by
  fun_induction patternBinding? t name n with
  | case1 n | case3 n | case6 n =>
    cases h
    exact .refl t _
  | case8 n _ value hvalue _ ih => exact (Encloses.of_child? hvalue).trans (ih h)
  | case10 n _ left hleft ih | case12 n _ left hleft ih =>
    exact (Encloses.of_child? hleft).trans (ih h)
  | case13 n _ ih | case14 n _ ih | case15 n _ ih =>
    obtain ⟨⟨element, helement⟩, -, hb⟩ := List.exists_of_findSome?_eq_some h
    exact (Encloses.of_mem_contents helement).trans (ih element helement hb)
  | _ => cases h

/-- The place in a pattern is an identifier or an element of an object pattern. -/
theorem type_of_patternBinding? (h : t.patternBinding? name n = some b) :
    t.type b = .identifier ∨ t.type b = .shorthandPropertyIdentifierPattern ∨
      t.type b = .pairPattern := by
  fun_induction patternBinding? t name n with
  | case1 n htype =>
    cases h
    exact .inl htype
  | case3 n htype =>
    cases h
    exact .inr (.inl htype)
  | case6 n htype =>
    cases h
    exact .inr (.inr htype)
  | case8 n _ value _ _ ih => exact ih h
  | case10 n _ left _ ih | case12 n _ left _ ih => exact ih h
  | case13 n _ ih | case14 n _ ih | case15 n _ ih =>
    obtain ⟨⟨element, helement⟩, -, hb⟩ := List.exists_of_findSome?_eq_some h
    exact ih element helement hb
  | _ => cases h

/-! ## Declarations -/

theorem encloses_declaratorBinding? (h : t.declaratorBinding? name n = some b) :
    t.Encloses n b := by
  obtain ⟨target, htarget, h⟩ := Option.bind_eq_some_iff.mp h
  split at h
  · split at h
    · cases h
      exact .refl t n
    · cases h
  · exact (Encloses.of_child? htarget).trans (encloses_patternBinding? h)

theorem encloses_declarationBinding? (h : t.declarationBinding? name n = some b) :
    t.Encloses n b := by
  obtain ⟨declarator, hmem, hb⟩ := List.exists_of_findSome?_eq_some h
  have hcontents := (List.mem_filter.mp hmem).1
  exact (Encloses.of_mem_contents hcontents).trans (encloses_declaratorBinding? hb)

/-! ## Parameters -/

/-- A child, or else a place inside the node, is inside the node. -/
theorem Encloses.getD_child? {field : Field} {place : Nat} (h : t.Encloses n place) :
    t.Encloses n ((t.child? n field).getD place) := by
  cases hc : t.child? n field with
  | none => exact h
  | some c => exact .of_child? hc

theorem encloses_parameterBinding? (h : t.parameterBinding? name n = some b) :
    t.Encloses n b := by
  unfold parameterBinding? at h
  split at h
  · obtain ⟨left, hleft, h⟩ := Option.bind_eq_some_iff.mp h
    split at h
    · cases h
      exact (Encloses.of_child? hleft).getD_child?
    · exact (Encloses.of_child? hleft).trans (encloses_patternBinding? h)
  iterate 2
    · obtain ⟨pattern, hpattern, h⟩ := Option.bind_eq_some_iff.mp h
      split at h
      · split at h
        · cases h
          exact (Encloses.of_child? hpattern).getD_child?
        · cases h
      · exact (Encloses.of_child? hpattern).trans (encloses_patternBinding? h)
  · exact encloses_patternBinding? h

theorem encloses_parametersBinding? (h : t.parametersBinding? name n = some b) :
    t.Encloses n b := by
  unfold parametersBinding? at h
  split at h
  · next single hsingle =>
    split at h
    · cases h
      exact .of_child? hsingle
    · cases h
  · obtain ⟨parameters, hparameters, h⟩ := Option.bind_eq_some_iff.mp h
    obtain ⟨parameter, hmem, hb⟩ := List.exists_of_findSome?_eq_some h
    exact (Encloses.of_child? hparameters).trans
      ((Encloses.of_mem_contents hmem).trans (encloses_parameterBinding? hb))

/-! ## Imports -/

/-- A part of an import binds a name to the whole statement, or to a specifier that it
lists. -/
theorem importPartBinding?_cases {statement : Nat}
    (h : t.importPartBinding? name statement n = some b) :
    b = statement ∨ b ∈ t.contents n ∧ t.type b = .importSpecifier := by
  unfold importPartBinding? at h
  split at h
  · split at h
    · exact .inl (Option.some.inj h).symm
    · cases h
  · obtain ⟨identifier, -, h⟩ := Option.bind_eq_some_iff.mp h
    split at h
    · exact .inl (Option.some.inj h).symm
    · cases h
  · obtain ⟨hmem, htype⟩ := List.mem_filter.mp (List.mem_of_find?_eq_some h)
    exact .inr ⟨hmem, of_decide_eq_true htype⟩
  · cases h

theorem encloses_importBinding? (h : t.importBinding? name n = some b) : t.Encloses n b := by
  obtain ⟨clause, hclause, h⟩ := Option.bind_eq_some_iff.mp h
  obtain ⟨part, hpart, hb⟩ := List.exists_of_findSome?_eq_some h
  rcases importPartBinding?_cases hb with rfl | ⟨hb, -⟩
  · exact .refl t b
  · exact (Encloses.of_mem_contents (List.mem_of_find?_eq_some hclause)).trans
      ((Encloses.of_mem_contents hpart).trans (.of_mem_contents hb))

/-- An import binds a name to itself or to a specifier. -/
theorem eq_or_type_of_importBinding? (h : t.importBinding? name n = some b) :
    b = n ∨ t.type b = .importSpecifier := by
  obtain ⟨clause, -, h⟩ := Option.bind_eq_some_iff.mp h
  obtain ⟨part, -, hb⟩ := List.exists_of_findSome?_eq_some h
  rcases importPartBinding?_cases hb with rfl | ⟨-, htype⟩
  · exact .inl rfl
  · exact .inr htype

/-! ## Scopes -/

theorem encloses_declaration? (h : t.declaration? n = some b) : t.Encloses n b := by
  unfold declaration? at h
  split at h
  · exact .of_child? h
  · cases h
    exact .refl t n

theorem encloses_statementBinding? (h : t.statementBinding? name n = some b) :
    t.Encloses n b := by
  obtain ⟨declaration, hdeclaration, h⟩ := Option.bind_eq_some_iff.mp h
  refine (encloses_declaration? hdeclaration).trans ?_
  dsimp only at h
  split at h
  · exact encloses_declarationBinding? h
  · split at h
    · split at h
      · cases h
        exact .refl t _
      · cases h
    · split at h
      · exact encloses_importBinding? h
      · cases h

theorem encloses_blockBinding? (h : t.blockBinding? name n = some b) : t.Encloses n b := by
  obtain ⟨statement, hmem, hb⟩ := List.exists_of_findSome?_eq_some h
  exact (Encloses.of_mem_contents hmem).trans (encloses_statementBinding? hb)

/-- The way down from the body of a function, which ends at the functions inside. -/
def outsideFunctions (t : Tree) : Descent t :=
  (Descent.namedChildren t).prune fun n => (t.type n).isScope

theorem outsideFunctions_next (t : Tree) (n : Nat) : t.outsideFunctions.next n =
    if (t.type n).isScope then [] else t.namedChildren n :=
  rfl

/-- The declarations that are hoisted out of a body, as a plain recursion. -/
theorem hoistedDeclarations_eq (t : Tree) (n : Nat) : t.hoistedDeclarations n =
    ((t.namedChildren n).flatMap t.outsideFunctions.preorder).filter
      (t.type · = .variableDeclaration) := by
  have hvisit : visit t.outsideFunctions.next t.size (t.namedChildren n) = _ :=
    t.outsideFunctions.visit_eq_flatMap ((t.nodup_children n).filter _)
      fun _ hc => (mem_namedChildren.mp hc).1
  rw [← hvisit]
  rfl

theorem type_of_mem_hoistedDeclarations (h : b ∈ t.hoistedDeclarations n) :
    t.type b = .variableDeclaration := by
  simpa using (List.mem_filter.mp h).2

theorem encloses_of_mem_hoistedDeclarations (h : b ∈ t.hoistedDeclarations n) :
    t.Encloses n b := by
  rw [hoistedDeclarations_eq] at h
  obtain ⟨c, hc, hb⟩ := List.mem_flatMap.mp (List.mem_filter.mp h).1
  exact (Encloses.of_parent? (mem_namedChildren.mp hc).1).trans
    (t.outsideFunctions.mem_preorder.mp hb).mem_ancestors

theorem encloses_hoistedBinding? (h : t.hoistedBinding? name n = some b) : t.Encloses n b := by
  unfold hoistedBinding? at h
  split at h
  · obtain ⟨declaration, hmem, hb⟩ := List.exists_of_findSome?_eq_some h
    exact (encloses_of_mem_hoistedDeclarations hmem).trans (encloses_declarationBinding? hb)
  · cases h

theorem encloses_ownNameBinding? (h : t.ownNameBinding? name n = some b) : t.Encloses n b := by
  unfold ownNameBinding? at h
  split at h
  · cases h
    exact .refl t n
  · cases h

/-- **A node binds names to places inside it.** -/
theorem encloses_scopeBinding? (h : t.scopeBinding? name n = some b) : t.Encloses n b := by
  unfold scopeBinding? at h
  dsimp only at h
  split at h
  · rcases Option.or_eq_some_iff.mp h with h | ⟨-, h⟩
    · exact encloses_blockBinding? h
    · exact encloses_hoistedBinding? h
  · split at h
    · rcases Option.or_eq_some_iff.mp h with h | ⟨-, h⟩
      · exact encloses_parametersBinding? h
      · exact encloses_ownNameBinding? h
    · cases h

theorem exists_of_binding? (h : t.binding? n = some b) :
    ∃ a ∈ t.ancestors n, t.scopeBinding? (t.text n) a = some b ∧ t.Encloses a b := by
  obtain ⟨a, ha, hb⟩ := List.exists_of_findSome?_eq_some h
  exact ⟨a, ha, hb, encloses_scopeBinding? hb⟩

/-- What binds a name is a node of the table. -/
theorem lt_size_of_binding? (h : t.binding? n = some b) : b < t.size := by
  obtain ⟨a, ha, -, hb⟩ := exists_of_binding? h
  exact hb.lt_size (lt_size_of_mem_ancestors ha)

end Places

end ComponentScan.Tree
