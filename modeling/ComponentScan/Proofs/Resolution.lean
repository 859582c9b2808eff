import ComponentScan.Origin
import ComponentScan.Proofs.Binding.Place

/-! # Resolution stays in the table

Every step of an analysis goes to a node that the tree holds somewhere: to a child, to an
ancestor or to a binding.  So the value of a node of the table is a node of the table, and
so are the nodes on the way to the module that it comes from.  How resolution comes to a
value is said once (`ValueMove`); what holds of every value is proved by cases on it.
-/
namespace ComponentScan.Tree

section Steps
variable {t : Tree} {n m : Nat} {name : String}

theorem encloses_unwrap (t : Tree) (n : Nat) : t.Encloses n (t.unwrap n) := by
  fun_induction unwrap t n with
  | case1 n _ c h ih => exact (Encloses.of_parent? (parent?_of_first? h)).trans ih
  | case2 n | case3 n => exact .refl t n

theorem unwrap_lt_size (h : n < t.size) : t.unwrap n < t.size :=
  (t.encloses_unwrap n).lt_size h

theorem encloses_accessChain (t : Tree) (n : Nat) : t.Encloses n (t.accessChain n).1 := by
  fun_induction accessChain t n with
  | case1 n => exact t.encloses_unwrap n
  | case2 n member hmember name object hobject root names hchain ih =>
    rw [hchain] at ih
    exact (t.encloses_unwrap n).trans ((Encloses.of_child? hobject).trans ih)
  | case3 n => exact t.encloses_unwrap n

/-- The value of an entry is inside the object literal. -/
theorem encloses_property? (h : t.property? n name = some m) : t.Encloses n m := by
  obtain ⟨entry, hentry, hvalue⟩ := Option.bind_eq_some_iff.mp h
  have hmem := (List.mem_filter.mp (List.mem_of_getLast? hentry)).1
  refine (Encloses.of_mem_contents hmem).trans ?_
  unfold entryValue? at hvalue
  split at hvalue
  · exact .of_child? hvalue
  · cases hvalue
    exact .refl t _

theorem lt_size_of_assignedLater? (h : t.assignedLater? n = some m) : m < t.size := by
  simp only [assignedLater?, lastAssigned?, Option.bind_eq_bind, Option.bind_eq_some_iff] at h
  obtain ⟨-, -, -, -, block, -, assignment, -, hright⟩ := h
  exact lt_size_of_child? hright

/-! ## Values -/

/-- What has its value from another node: a declarator, an assignment or an identifier. -/
theorem valueStep_follow (h : t.valueStep n = .follow m) :
    t.type n = .variableDeclarator ∧ (t.child? n .value).or (t.assignedLater? n) = some m ∨
      t.type n = .assignmentExpression ∧ t.child? n .right = some m ∨
      (t.type n).isIdentifier = true ∧ t.isNamed n = true ∧ t.binding? n = some m ∧ m ≠ n := by
  unfold valueStep at h
  split at h
  · next htype =>
    split at h
    · next value hvalue => cases h; exact .inl ⟨htype, hvalue⟩
    · cases h
  · next htype =>
    split at h
    · next right hright => cases h; exact .inr (.inl ⟨htype, hright⟩)
    · cases h
  iterate 2
    · next htype =>
      split at h
      · next hnamed =>
        split at h
        · next binding hbinding =>
          split at h
          · cases h
          · next hne => cases h; exact .inr (.inr ⟨by rw [htype]; rfl, hnamed, hbinding, hne⟩)
        · cases h
      · cases h
  · split at h <;> cases h
  · cases h

/-- Only a member access has the value of an entry. -/
theorem valueStep_entry {object : Nat} (h : t.valueStep n = .entry object name) :
    t.type n = .memberExpression ∧ t.child? n .object = some object ∧
      ∃ property, t.child? n .property = some property ∧ t.text property = name := by
  unfold valueStep at h
  split at h
  · split at h <;> cases h
  · split at h <;> cases h
  iterate 2
    · split at h
      · split at h
        · split at h <;> cases h
        · cases h
      · cases h
  · next htype =>
    split at h
    · next property hobject hproperty => cases h; exact ⟨htype, hobject, property, hproperty, rfl⟩
    · cases h
  · cases h

theorem lt_size_of_valueStep_follow (h : t.valueStep n = .follow m) : m < t.size := by
  rcases valueStep_follow h with ⟨-, h⟩ | ⟨-, h⟩ | ⟨-, -, h, -⟩
  · rcases Option.or_eq_some_iff.mp h with h | ⟨-, h⟩
    · exact lt_size_of_child? h
    · exact lt_size_of_assignedLater? h
  · exact lt_size_of_child? h
  · exact lt_size_of_binding? h

/-- How resolution of `n` comes to a value when `budget` more steps may be nested. -/
inductive ValueMove (t : Tree) (budget : Nat) (entered : List Nat) (n : Nat) : Nat → Prop
  /-- The node has been entered before. -/
  | cut : t.unwrap n ∈ entered → ValueMove t budget entered n (t.unwrap n)
  /-- The node leads nowhere. -/
  | done : t.unwrap n ∉ entered → t.valueStep (t.unwrap n) = .done →
      ValueMove t budget entered n (t.unwrap n)
  /-- The node has the value of another one. -/
  | follow {next v : Nat} : t.unwrap n ∉ entered → t.valueStep (t.unwrap n) = .follow next →
      t.valueWithin budget (t.unwrap n :: entered) next = some v →
      ValueMove t budget entered n v
  /-- The node is a member access, but its object is no literal with such an entry. -/
  | lacking {object l : Nat} {name : String} : t.unwrap n ∉ entered →
      t.valueStep (t.unwrap n) = .entry object name →
      t.valueWithin budget (t.unwrap n :: entered) object = some l →
      (t.construct l = .object → t.property? l name = none) →
      ValueMove t budget entered n (t.unwrap n)
  /-- The node is a member access, and it has the value of an entry. -/
  | entry {object l w v : Nat} {name : String} : t.unwrap n ∉ entered →
      t.valueStep (t.unwrap n) = .entry object name →
      t.valueWithin budget (t.unwrap n :: entered) object = some l →
      t.construct l = .object → t.property? l name = some w →
      t.valueWithin budget (t.unwrap n :: entered) w = some v →
      ValueMove t budget entered n v

/-- **Every value is found by one of the five moves.** -/
theorem valueMove_of_valueWithin {v budget : Nat} {entered : List Nat}
    (h : t.valueWithin (budget + 1) entered n = some v) :
    t.ValueMove budget entered n v := by
  simp only [valueWithin] at h
  split at h
  · next hmem => cases h; exact .cut hmem
  · next hfresh =>
    split at h
    · next hstep => cases h; exact .done hfresh hstep
    · next next hstep => exact .follow hfresh hstep h
    · next object name hstep =>
      obtain ⟨l, hobject, h⟩ := Option.bind_eq_some_iff.mp h
      split at h
      · next hliteral =>
        split at h
        · next w hw => exact .entry hfresh hstep hobject hliteral hw h
        · next hnone => cases h; exact .lacking hfresh hstep hobject fun _ => hnone
      · next hliteral =>
        cases h
        exact .lacking hfresh hstep hobject fun h => absurd h hliteral

theorem lt_size_of_valueWithin {budget : Nat} {entered : List Nat} (hn : n < t.size)
    (h : t.valueWithin budget entered n = some m) : m < t.size := by
  induction budget generalizing entered n m with
  | zero => cases h
  | succ budget ih =>
    have hunwrap := unwrap_lt_size hn
    cases valueMove_of_valueWithin h with
    | cut | done | lacking => exact hunwrap
    | follow _ hstep h => exact ih (lt_size_of_valueStep_follow hstep) h
    | entry _ hstep hobject _ hw h =>
      have hl := ih (lt_size_of_child? (valueStep_entry hstep).2.1) hobject
      exact ih ((encloses_property? hw).lt_size hl) h

/-- **The value of a node is a node.** -/
theorem value_lt_size (h : n < t.size) : t.value n < t.size := by
  unfold value
  cases hvalue : t.valueWithin (t.size + 1) [] n with
  | none => exact h
  | some v => exact lt_size_of_valueWithin h hvalue

/-! ## Modules -/

theorem OriginStep.ofNode?_eq_follow {next : Option Nat} :
    OriginStep.ofNode? next = .follow m ↔ next = some m := by
  cases next <;> simp [OriginStep.ofNode?]

/-- A part belongs to a statement that encloses it. -/
theorem mem_ancestors_of_bindingStatement? (h : t.bindingStatement? n = some m) :
    m ∈ t.ancestors n := by
  obtain ⟨stop, hstop, h⟩ := Option.bind_eq_some_iff.mp h
  obtain ⟨-, -, h⟩ := Option.bind_eq_some_iff.mp h
  cases h
  exact List.mem_of_find?_eq_some hstop

theorem lt_size_of_originStep_follow (hn : n < t.size) (h : t.originStep n = .follow m) :
    m < t.size := by
  unfold originStep at h
  dsimp only at h
  split at h
  · exact lt_size_of_child? (OriginStep.ofNode?_eq_follow.mp h)
  · split at h
    · split at h
      · cases h
      · next function hfunction =>
        split at h
        · cases h
        · cases h; exact lt_size_of_child? hfunction
    · split at h
      · cases h
      · split at h
        · have hstatement := OriginStep.ofNode?_eq_follow.mp h
          exact lt_size_of_mem_ancestors (mem_ancestors_of_bindingStatement? hstatement)
        · split at h
          · exact parent_lt_size (OriginStep.ofNode?_eq_follow.mp h)
          · split at h
            · split at h
              · cases h
              · cases h; exact value_lt_size hn
            · split at h
              · cases h; exact (t.encloses_accessChain n).lt_size hn
              · cases h

end Steps

end ComponentScan.Tree
