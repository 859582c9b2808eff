import ComponentScan.Proofs.Binding.Place
import ComponentScan.Value

/-! # Later assignments

A variable that is declared without a value has the value that is assigned to it last, by a
statement `name = value` of the block that declares it.  `LastAssigned` says what that is.

The declarator is found from the block downwards, and the lookup goes through an export to
what it exports.  The block is found from the declarator upwards, as the parent of its
parent.  For a declaration that is a statement of the block the two fit together, and the last
assignment of the block is found.  For one that is exported, the parent of the parent is the
export, and its statements are searched in place of those of the block
(`later_assignment_is_sought_next_to_declaration`).
-/
namespace ComponentScan.Tree

/-! ## Assignments -/

/-- The statement `s` has the form `name = value`, and `a` is the assignment that it makes. -/
structure Assigns (t : Tree) (name : String) (s a : Nat) : Prop where
  isExpression : t.type s = .expressionStatement
  first?_eq : t.first? s = some a
  isAssignment : t.type a = .assignmentExpression
  /-- The left side is the variable. -/
  left_eq : ∃ left, t.child? a .left = some left ∧ t.type left = .identifier ∧
    t.text left = name

/-- What the statements of a block assign to a variable in the end. -/
inductive LastAssigned (t : Tree) (name : String) (block : Nat) : Option Nat → Prop
  /-- No statement assigns anything. -/
  | never : (∀ s ∈ t.contents block, ∀ a, ¬ t.Assigns name s a) → LastAssigned t name block none
  /-- After the statement `s` there is no other that assigns something. -/
  | last {before after : List Nat} {s a : Nat} : t.contents block = before ++ s :: after →
      t.Assigns name s a → (∀ s' ∈ after, ∀ a', ¬ t.Assigns name s' a') →
      LastAssigned t name block (t.child? a .right)

section Assignments
variable {t : Tree} {name : String} {s a block : Nat} {r : Option Nat}

theorem assignment?_eq_some_iff : t.assignment? name s = some a ↔ t.Assigns name s a := by
  constructor
  · intro h
    simp only [assignment?, Option.bind_eq_bind, Option.bind_eq_some_iff, Option.guard_eq_some',
      exists_const, Option.pure_def, Option.some.injEq] at h
    obtain ⟨hstatement, a, hfirst, hassignment, left, hleft, ⟨hidentifier, htext⟩, rfl⟩ := h
    exact ⟨hstatement, hfirst, hassignment, left, hleft, hidentifier, htext⟩
  · rintro ⟨hstatement, hfirst, hassignment, left, hleft, hidentifier, htext⟩
    simp [assignment?, hstatement, hfirst, hassignment, hleft, hidentifier, htext]

theorem assignment?_eq_none_iff :
    t.assignment? name s = none ↔ ∀ a, ¬ t.Assigns name s a := by
  simp only [Option.eq_none_iff_forall_ne_some, ne_eq, assignment?_eq_some_iff]

/-- **The search finds what is assigned last.** -/
theorem lastAssigned_iff : t.LastAssigned name block r ↔ t.lastAssigned? name block = r := by
  rw [lastAssigned?, List.getLast?_filterMap]
  constructor
  · intro h
    cases h with
    | never hnever =>
      have hnone : (t.contents block).reverse.findSome? (t.assignment? name) = none := by
        refine List.findSome?_eq_none_iff.mpr fun s hs => ?_
        exact assignment?_eq_none_iff.mpr (hnever s (List.mem_reverse.mp hs))
      rw [hnone]
      rfl
    | @last before after s a hsplit hassigns hafter =>
      have hsome : (t.contents block).reverse.findSome? (t.assignment? name) = some a := by
        refine List.findSome?_eq_some_iff.mpr ⟨after.reverse, s, before.reverse, ?_,
          assignment?_eq_some_iff.mpr hassigns, fun s' hs' => ?_⟩
        · rw [hsplit]
          simp
        · exact assignment?_eq_none_iff.mpr (hafter s' (List.mem_reverse.mp hs'))
      rw [hsome]
      rfl
  · rintro rfl
    cases hfound : (t.contents block).reverse.findSome? (t.assignment? name) with
    | none =>
      refine .never fun s hs => ?_
      have hnone := List.findSome?_eq_none_iff.mp hfound s (List.mem_reverse.mpr hs)
      exact assignment?_eq_none_iff.mp hnone
    | some a =>
      obtain ⟨after, s, before, hsplit, hs, hafter⟩ := List.findSome?_eq_some_iff.mp hfound
      have hcontents : t.contents block = before.reverse ++ s :: after.reverse := by
        rw [← List.reverse_reverse (t.contents block), hsplit]
        simp
      refine .last hcontents (assignment?_eq_some_iff.mp hs) fun s' hs' => ?_
      exact assignment?_eq_none_iff.mp (hafter s' (List.mem_reverse.mp hs'))

end Assignments

/-! ## Declarators -/

/-- The declarator `d` is part of a declaration that is a statement of the block. -/
def DeclaredDirectly (t : Tree) (block d : Nat) : Prop :=
  ∃ s ∈ t.contents block, (t.type s).isDeclaration = true ∧ d ∈ t.contents s

/-- The declarator `d` is part of a declaration that the statement `e` of the block exports. -/
structure DeclaredByExport (t : Tree) (block e d : Nat) : Prop where
  mem_contents : e ∈ t.contents block
  isExport : t.type e = .exportStatement
  exports : ∃ s, t.child? e .declaration = some s ∧ (t.type s).isDeclaration = true ∧
    d ∈ t.contents s

section Declarators
variable {t : Tree} {name : String} {block d e s : Nat}

/-- The target of a declarator that binds a name is this name. -/
theorem target_of_declarationBinding? (h : t.declarationBinding? name s = some d)
    (hd : t.type d = .variableDeclarator) : d ∈ t.contents s ∧
      ∃ target, t.child? d .name = some target ∧ t.type target = .identifier ∧
        t.text target = name := by
  obtain ⟨declarator, hmem, h⟩ := List.exists_of_findSome?_eq_some h
  obtain ⟨target, htarget, h⟩ := Option.bind_eq_some_iff.mp h
  split at h
  · next hidentifier =>
    split at h
    · next htext =>
      obtain rfl := Option.some.inj h
      exact ⟨(List.mem_filter.mp hmem).1, target, htarget, hidentifier, htext⟩
    · cases h
  · -- a place in a pattern is no declarator
    have htype := type_of_patternBinding? h
    simp [hd] at htype

/-- Only a declaration of variables binds a name to a declarator. -/
theorem declaration_of_statementBinding? (h : t.statementBinding? name s = some d)
    (hd : t.type d = .variableDeclarator) : ∃ declaration, t.declaration? s = some declaration ∧
      (t.type declaration).isDeclaration = true ∧
      t.declarationBinding? name declaration = some d := by
  obtain ⟨declaration, hdeclaration, h⟩ := Option.bind_eq_some_iff.mp h
  dsimp only at h
  split at h
  · next hvariables => exact ⟨declaration, hdeclaration, hvariables, h⟩
  split at h
  · next hdefinition =>
    -- a function or a class stands for itself
    split at h
    · obtain rfl := Option.some.inj h
      simp [hd, NodeType.isFunctionDeclaration, NodeType.isClass] at hdefinition
    · cases h
  split at h
  · next himport =>
    rcases eq_or_type_of_importBinding? h with rfl | hspecifier
    · rw [hd] at himport
      cases himport
    · rw [hd] at hspecifier
      cases hspecifier
  · cases h

/-- A declarator that a block binds a name to is declared in the block, directly or by an
export, and its target is the name. -/
theorem declared_of_blockBinding? (h : t.blockBinding? name block = some d)
    (hd : t.type d = .variableDeclarator) :
    (t.DeclaredDirectly block d ∨ ∃ e, t.DeclaredByExport block e d) ∧
      ∃ target, t.child? d .name = some target ∧ t.type target = .identifier ∧
        t.text target = name := by
  obtain ⟨s, hs, h⟩ := List.exists_of_findSome?_eq_some h
  obtain ⟨declaration, hdeclaration, hvariables, h⟩ := declaration_of_statementBinding? h hd
  obtain ⟨hmem, htarget⟩ := target_of_declarationBinding? h hd
  refine ⟨?_, htarget⟩
  unfold declaration? at hdeclaration
  split at hdeclaration
  · next hexport => exact .inr ⟨s, hs, hexport, declaration, hdeclaration, hvariables, hmem⟩
  · obtain rfl := Option.some.inj hdeclaration
    exact .inl ⟨s, hs, hvariables, hmem⟩

theorem DeclaredDirectly.grandparent (h : t.DeclaredDirectly block d) :
    (t.parent? d).bind t.parent? = some block := by
  obtain ⟨s, hs, -, hd⟩ := h
  rw [(mem_contents.mp hd).1, Option.bind_some, (mem_contents.mp hs).1]

theorem DeclaredByExport.grandparent (h : t.DeclaredByExport block e d) :
    (t.parent? d).bind t.parent? = some e := by
  obtain ⟨s, hs, -, hd⟩ := h.exports
  rw [(Tree.mem_contents.mp hd).1, Option.bind_some, parent?_of_child? hs]

/-- A later assignment is searched for among the statements of the grandparent. -/
theorem lastAssigned_assignedLater? {target home : Nat} (htarget : t.child? d .name = some target)
    (hidentifier : t.type target = .identifier)
    (hhome : (t.parent? d).bind t.parent? = some home) :
    t.LastAssigned (t.text target) home (t.assignedLater? d) := by
  rw [lastAssigned_iff]
  simp [assignedLater?, htarget, hidentifier, hhome]

end Declarators

/-- **Where a later assignment is searched for.**  A declarator that a block binds a name to is
declared in the block, directly or by an export.  If directly, its later assignment is what
the block assigns to the name in the end.  If by an export, it is what the statements inside
the export assign; that is what the block assigns exactly if the two agree. -/
theorem later_assignment_is_sought_next_to_declaration {t : Tree} {name : String} {block d : Nat}
    (hbinding : t.blockBinding? name block = some d) (hd : t.type d = .variableDeclarator) :
    (t.DeclaredDirectly block d ∨ ∃ e, t.DeclaredByExport block e d) ∧
    (t.DeclaredDirectly block d → t.LastAssigned name block (t.assignedLater? d)) ∧
    ∀ e, t.DeclaredByExport block e d → t.LastAssigned name e (t.assignedLater? d) ∧
      (t.LastAssigned name block (t.assignedLater? d) ↔
        ∃ r, t.LastAssigned name e r ∧ t.LastAssigned name block r) := by
  obtain ⟨hdeclared, target, htarget, hidentifier, rfl⟩ := declared_of_blockBinding? hbinding hd
  refine ⟨hdeclared, ?_, ?_⟩
  · intro hdirect
    exact lastAssigned_assignedLater? htarget hidentifier hdirect.grandparent
  · intro e hexport
    have hinside := lastAssigned_assignedLater? htarget hidentifier hexport.grandparent
    refine ⟨hinside, fun hblock => ⟨_, hinside, hblock⟩, ?_⟩
    rintro ⟨r, hr, hblock⟩
    -- the search has one answer
    rw [lastAssigned_iff] at hinside hr
    rwa [← hinside, hr]

/-- The tree of `let x;x=1;x=2`. -/
def assignedTwice : Tree :=
  Table.toTree {
    source := Utf8.encode "let x;x=1;x=2"
    nodes := #[
      ⟨.program, none, 0, 13, none, true⟩,
      ⟨.lexicalDeclaration, some 0, 0, 6, none, true⟩,
      ⟨.variableDeclarator, some 1, 4, 5, none, true⟩,
      ⟨.identifier, some 2, 4, 5, some .name, true⟩,
      ⟨.expressionStatement, some 0, 6, 10, none, true⟩,
      ⟨.assignmentExpression, some 4, 6, 9, none, true⟩,
      ⟨.identifier, some 5, 6, 7, some .left, true⟩,
      ⟨.number, some 5, 8, 9, some .right, true⟩,
      ⟨.expressionStatement, some 0, 10, 13, none, true⟩,
      ⟨.assignmentExpression, some 8, 10, 13, none, true⟩,
      ⟨.identifier, some 9, 10, 11, some .left, true⟩,
      ⟨.number, some 9, 12, 13, some .right, true⟩]
    nonempty := by decide
    ordered := by decide }

/-- The second assignment is the last one. -/
theorem second_assignment_is_found : assignedTwice.child? 2 .value = none ∧
    assignedTwice.assignedLater? 2 = some 11 ∧ assignedTwice.LastAssigned "x" 0 (some 11) := by
  have hlater : assignedTwice.assignedLater? 2 = some 11 := by decide +kernel
  have hdirect : assignedTwice.DeclaredDirectly 0 2 :=
    ⟨1, by decide +kernel, by decide +kernel, by decide +kernel⟩
  obtain ⟨-, hlast, -⟩ := later_assignment_is_sought_next_to_declaration (t := assignedTwice)
    (d := 2) (show assignedTwice.blockBinding? "x" 0 = some 2 by decide +kernel)
    (by decide +kernel)
  exact ⟨by decide +kernel, hlater, hlater ▸ hlast hdirect⟩

/-- The tree of `export let x;x=1`. -/
def exportedThenAssigned : Tree :=
  Table.toTree {
    source := Utf8.encode "export let x;x=1"
    nodes := #[
      ⟨.program, none, 0, 16, none, true⟩,
      ⟨.exportStatement, some 0, 0, 13, none, true⟩,
      ⟨.lexicalDeclaration, some 1, 7, 13, some .declaration, true⟩,
      ⟨.variableDeclarator, some 2, 11, 12, none, true⟩,
      ⟨.identifier, some 3, 11, 12, some .name, true⟩,
      ⟨.expressionStatement, some 0, 13, 16, none, true⟩,
      ⟨.assignmentExpression, some 5, 13, 16, none, true⟩,
      ⟨.identifier, some 6, 13, 14, some .left, true⟩,
      ⟨.number, some 6, 15, 16, some .right, true⟩]
    nonempty := by decide
    ordered := by decide }

/-- The assignment to an exported variable is not found, though it stands in the block that
declares the variable. -/
theorem assignment_after_export_is_not_found :
    exportedThenAssigned.blockBinding? "x" 0 = some 3 ∧
      exportedThenAssigned.type 3 = .variableDeclarator ∧
      exportedThenAssigned.child? 3 .value = none ∧
      exportedThenAssigned.LastAssigned "x" 0 (some 8) ∧
      exportedThenAssigned.assignedLater? 3 = none :=
  ⟨by decide +kernel, by decide +kernel, by decide +kernel,
    lastAssigned_iff.mpr (by decide +kernel), by decide +kernel⟩

end ComponentScan.Tree
