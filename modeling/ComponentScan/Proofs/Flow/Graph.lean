import Mathlib.Data.List.ReduceOption
import Mathlib.Logic.Relation
import ComponentScan.Proofs.Flow.Step

/-! # The graph of values

Where the value of an expression may come from, said as a relation.  An expression has the
value of the node that defines it (`Defines`).  A conditional leads to both branches and a
logical expression to both operands.  A call leads to the function that its callee stands
for (`Decides`), or, if the callee is a chain of names into an object literal, to the
function that walking the names finds there (`Walk`); an entry that is absent counts as a
UI element.
A function leads to its body, if this is an expression, and else to what each return
statement that it owns returns.

`goalsOf` lists the edges of this relation (`leads_of_mem_goalsOf`, `mem_goalsOf_of_leads`);
where it complains, a child is missing that an edge would need (`lacks_of_goalsOf`).
-/
namespace ComponentScan.Tree

/-! ## Names in object literals -/

/-- Walking a chain of names from the node `o` on finds a node, or meets an entry that is
absent.  A name that the tree lacks is passed over, and an entry that is an identifier
stands for its value. -/
inductive Walk (t : Tree) : Nat → List (Option String) → Option Nat → Prop
  | found {o : Nat} : Walk t o [] (some o)
  | pass {o : Nat} {names : List (Option String)} {r : Option Nat} :
      Walk t o names r → Walk t o (none :: names) r
  | absent {o : Nat} {name : String} {names : List (Option String)} :
      t.property? o name = none → Walk t o (some name :: names) none
  | entry {o e : Nat} {name : String} {names : List (Option String)} {r : Option Nat} :
      t.property? o name = some e → t.construct e ≠ .identifier → Walk t e names r →
      Walk t o (some name :: names) r
  | named {o e : Nat} {name : String} {names : List (Option String)} {r : Option Nat} :
      t.property? o name = some e → t.construct e = .identifier → Walk t (t.value e) names r →
      Walk t o (some name :: names) r

theorem namespace_cons {t : Tree} {o : Nat} {name : String}
    {names : List (Option String)} :
    t.namespaceEntry? o (some name :: names) = (t.property? o name).bind fun e =>
      t.namespaceEntry? (if t.construct e = .identifier then t.value e else e) names := by
  unfold namespaceEntry?
  rw [List.reduceOption_cons_of_some, List.foldlM_cons]
  cases h : t.property? o name <;> simp

/-- Walking is a function of the names. -/
theorem walk_iff {t : Tree} {o : Nat} {names : List (Option String)} {r : Option Nat} :
    t.Walk o names r ↔ t.namespaceEntry? o names = r := by
  constructor
  · intro h
    induction h with
    | found => rfl
    | pass _ ih => exact ih
    | absent hnone => rw [namespace_cons, hnone, Option.bind_none]
    | entry hsome hne _ ih => rw [namespace_cons, hsome, Option.bind_some, if_neg hne, ih]
    | named hsome hid _ ih => rw [namespace_cons, hsome, Option.bind_some, if_pos hid, ih]
  · rintro rfl
    induction names generalizing o with
    | nil => exact .found
    | cons name names ih =>
      cases name with
      | none => exact .pass ih
      | some name =>
        rw [namespace_cons]
        cases hentry : t.property? o name with
        | none => exact .absent hentry
        | some e =>
          rw [Option.bind_some]
          split
          · next hid => exact .named hentry hid ih
          · next hid => exact .entry hentry hid ih

/-! ## The function that decides about a node -/

/-- A function, or a method of an object literal or a class. -/
def IsFunctionNode (t : Tree) (f : Nat) : Prop :=
  (t.construct f).isFunction = true ∨ t.construct f = .property ∧ t.type f = .methodDefinition

/-- What the function `f` returns decides about the node `n`. -/
inductive Decides (t : Tree) (f n : Nat) : Prop
  /-- The node is the function. -/
  | function : t.unwrap n = f → (t.construct f).isFunction = true → Decides t f n
  /-- The node is the method. -/
  | method : t.unwrap n = f → t.construct f = .property → t.type f = .methodDefinition →
      Decides t f n
  /-- The node is an entry, other than a method, and the function is its value. -/
  | value {e v : Nat} : t.unwrap n = e → t.construct e = .property →
      t.type e ≠ .methodDefinition → t.child? e .value = some v → t.unwrap v = f →
      (t.construct f).isFunction = true → Decides t f n

theorem Decides.isFunctionNode {t : Tree} {f n : Nat} (h : t.Decides f n) :
    t.IsFunctionNode f := by
  cases h with
  | function _ hfunction => exact .inl hfunction
  | method _ hproperty hmethod => exact .inr ⟨hproperty, hmethod⟩
  | value _ _ _ _ _ hfunction => exact .inl hfunction

/-- The function that is looked up is the one that the rules give. -/
theorem decidingFunction?_eq_some_iff {t : Tree} {f n : Nat} :
    t.decidingFunction? n = some f ↔ t.Decides f n := by
  constructor
  · intro h
    simp only [decidingFunction?] at h
    split at h
    · next hself =>
      cases h
      simp only [Bool.or_eq_true, Bool.and_eq_true, decide_eq_true_eq] at hself
      rcases hself with hfunction | ⟨hproperty, hmethod⟩
      · exact .function rfl hfunction
      · exact .method rfl hproperty hmethod
    · next hself =>
      split at h
      · next hproperty =>
        obtain ⟨hvalue, hfunction⟩ := Option.filter_eq_some_iff.mp h
        obtain ⟨v, hv, hunwrap⟩ := Option.map_eq_some_iff.mp hvalue
        -- a method has been dealt with before its value is looked at
        have hmethod : t.type (t.unwrap n) ≠ .methodDefinition := by
          intro hmethod
          exact hself (by simp [hproperty, hmethod])
        exact .value rfl hproperty hmethod hv hunwrap hfunction
      · cases h
  · intro h
    cases h with
    | function hself hfunction => simp [decidingFunction?, hself, hfunction]
    | method hself hproperty hmethod => simp [decidingFunction?, hself, hproperty, hmethod]
    | value hself hproperty hmethod hv hunwrap hfunction =>
      have hentry : Construct.property.isFunction = false := rfl
      simp [decidingFunction?, hself, hproperty, hmethod, hentry, hv, hunwrap, hfunction]

theorem isFunctionNode_of_decidingFunction? {t : Tree} {n f : Nat}
    (h : t.decidingFunction? n = some f) : t.IsFunctionNode f :=
  (decidingFunction?_eq_some_iff.mp h).isFunctionNode

/-- A function, or a method, decides about itself. -/
theorem decidingFunction?_of_isFunctionNode {t : Tree} {f : Nat} (h : t.IsFunctionNode f) :
    t.decidingFunction? f = some f := by
  have hne : t.construct f ≠ .other := by
    rintro hother
    rcases h with h | ⟨h, -⟩ <;> rw [hother] at h <;> cases h
  have hself := unwrap_of_construct hne
  rw [decidingFunction?_eq_some_iff]
  rcases h with hfunction | ⟨hproperty, hmethod⟩
  · exact .function hself hfunction
  · exact .method hself hproperty hmethod

theorem mem_decidingFunction? {t : Tree} {n : Nat} {g : Goal} :
    g ∈ (t.decidingFunction? n).toList.map Goal.function ↔
      ∃ f, t.Decides f n ∧ g = .function f := by
  simp only [← decidingFunction?_eq_some_iff]
  cases t.decidingFunction? n <;> simp

/-! ## Calls into object literals -/

/-- `callee` is a chain of names that starts at an object literal, `object`. -/
structure IsNamespaceAccess (t : Tree) (callee object : Nat) (names : List (Option String)) :
    Prop where
  isMember : t.type callee = .memberExpression
  names_eq : (t.accessChain callee).2 = names
  value_root : t.value (t.accessChain callee).1 = object
  isObject : t.construct object = .object

theorem mem_namespaceGoals {t : Tree} {callee : Nat} {g : Goal} :
    g ∈ t.namespaceGoals callee ↔ ∃ object names, t.IsNamespaceAccess callee object names ∧
      (t.Walk object names none ∧ g = .success ∨
        ∃ e f, t.Walk object names (some e) ∧ t.Decides f e ∧ g = .function f) := by
  constructor
  · intro hg
    unfold namespaceGoals at hg
    split at hg
    · next hmember =>
      dsimp only at hg
      split at hg
      · next hobject =>
        refine ⟨_, _, ⟨hmember, rfl, rfl, hobject⟩, ?_⟩
        split at hg
        · next hnone => exact .inl ⟨walk_iff.mpr hnone, List.mem_singleton.mp hg⟩
        · next e hsome =>
          obtain ⟨f, hf, rfl⟩ := mem_decidingFunction?.mp hg
          exact .inr ⟨e, f, walk_iff.mpr hsome, hf, rfl⟩
      · cases hg
    · cases hg
  · rintro ⟨_, _, ⟨hmember, rfl, rfl, hobject⟩, hwalk⟩
    rw [namespaceGoals, if_pos hmember]
    dsimp only
    rw [if_pos hobject]
    rcases hwalk with ⟨hwalk, rfl⟩ | ⟨e, f, hwalk, hf, rfl⟩
    · rw [walk_iff.mp hwalk]
      exact List.mem_singleton_self _
    · rw [walk_iff.mp hwalk]
      exact mem_decidingFunction?.mpr ⟨f, hf, rfl⟩

/-! ## Edges -/

/-- The expression `e` is no UI element at sight, and `v` defines its value. -/
def Defines (t : Tree) (e v : Nat) : Prop :=
  t.isElement (t.unwrap e) = false ∧ t.value (t.unwrap e) = v

/-- The arrow function `f` evaluates to the expression `b`. -/
def HasExpressionBody (t : Tree) (f b : Nat) : Prop :=
  t.construct f = .arrowFunction ∧ t.child? f .body = some b ∧ t.type b ≠ .statementBlock

/-- The value of one goal may be the value of the other. -/
inductive Leads (t : Tree) : Goal → Goal → Prop
  /-- A conditional leads to its branches. -/
  | branch {e v c : Nat} {field : Field} : t.Defines e v → t.construct v = .conditional →
      field ∈ [Field.consequence, Field.alternative] → t.child? v field = some c →
      Leads t (.value e) (.value c)
  /-- A logical expression leads to its operands. -/
  | operand {e v c : Nat} {field : Field} : t.Defines e v → t.construct v = .logical →
      field ∈ [Field.left, Field.right] → t.child? v field = some c →
      Leads t (.value e) (.value c)
  /-- The value is a UI element. -/
  | element {e v : Nat} : t.Defines e v → t.isElement v = true → Leads t (.value e) .success
  /-- A call leads to the function that its callee stands for. -/
  | callee {e v c f : Nat} : t.Defines e v → t.construct v = .call →
      t.child? v .function = some c → t.Decides f (t.value c) → Leads t (.value e) (.function f)
  /-- A call of an entry of an object literal leads to the function of that entry. -/
  | entry {e v c o m f : Nat} {names : List (Option String)} : t.Defines e v →
      t.construct v = .call → t.child? v .function = some c →
      t.IsNamespaceAccess (t.value c) o names → t.Walk o names (some m) →
      t.Decides f m → Leads t (.value e) (.function f)
  /-- An entry that an object literal lacks could still be a component. -/
  | absent {e v c o : Nat} {names : List (Option String)} : t.Defines e v →
      t.construct v = .call → t.child? v .function = some c →
      t.IsNamespaceAccess (t.value c) o names → t.Walk o names none → Leads t (.value e) .success
  /-- An arrow function leads to the expression that is its body. -/
  | body {f b : Nat} : t.HasExpressionBody f b → Leads t (.function f) (.value b)
  /-- Any other function leads to what the return statements that it owns return. -/
  | returned {f r v : Nat} : t.IsFunctionNode f → (∀ b, ¬ t.HasExpressionBody f b) →
      t.Owns f r → t.first? r = some v → Leads t (.function f) (.value v)

/-- The goal `missing` complains about: a call without a callee, or an arrow function
without a body. -/
inductive Lacks (t : Tree) : MissingChild → Goal → Prop
  | callee {e v : Nat} : t.Defines e v → t.construct v = .call → t.child? v .function = none →
      Lacks t ⟨.callExpression, .function⟩ (.value e)
  | body {f : Nat} : t.construct f = .arrowFunction → t.child? f .body = none →
      Lacks t ⟨.arrowFunction, .body⟩ (.function f)

/-- A goal that the analysis can come to: if it is about a function, there is one. -/
def IsProper (t : Tree) : Goal → Prop
  | .function f => t.IsFunctionNode f
  | _ => True

/-! ## The edges are what is searched -/

theorem callGoals_of_some {t : Tree} {v c : Nat} (h : t.child? v .function = some c) :
    t.callGoals v = .ok ((t.decidingFunction? (t.value c)).toList.map .function ++
      t.namespaceGoals (t.value c)) := by
  simp [callGoals, require, h, bind, Except.bind, pure, Except.pure]

theorem callGoals_of_none {t : Tree} {v : Nat} (h : t.child? v .function = none) :
    t.callGoals v = .error ⟨t.type v, .function⟩ := by
  simp [callGoals, require, h, bind, Except.bind]

/-- What is behind a value that is neither a conditional nor a logical expression; the
expression does not matter, unless it is a UI element itself. -/
theorem valueGoals_of_other {t : Tree} {e v : Nat} (he : t.isElement e = false)
    (hconditional : t.construct v ≠ .conditional) (hlogical : t.construct v ≠ .logical) :
    t.valueGoals e v = if t.isElement v = true then .ok [.success]
      else if t.construct v = .call then t.callGoals v else .ok [] := by
  unfold valueGoals
  split
  · contradiction
  · contradiction
  · by_cases hv : t.isElement v = true
    · -- the value is a UI element and the expression is none, so they are two nodes
      have hne : v ≠ e := by
        rintro rfl
        simp [he] at hv
      simp [hv, hne]
    · simp [hv]

/-- What a call leads to. -/
theorem mem_callGoals {t : Tree} {v c : Nat} (hc : t.child? v .function = some c)
    {goals : List Goal} (h : t.callGoals v = .ok goals) {g : Goal} :
    g ∈ goals ↔ (∃ f, t.Decides f (t.value c) ∧ g = .function f) ∨
      g ∈ t.namespaceGoals (t.value c) := by
  rw [callGoals_of_some hc] at h
  cases h
  rw [List.mem_append, mem_decidingFunction?]

/-- Every goal behind an expression is at the end of an edge. -/
theorem leads_of_mem_valueGoals {t : Tree} {e v : Nat} {goals : List Goal} {g : Goal}
    (hdef : t.Defines e v) (h : t.valueGoals (t.unwrap e) v = .ok goals) (hg : g ∈ goals) :
    t.Leads (.value e) g := by
  by_cases hconditional : t.construct v = .conditional
  · simp only [valueGoals, hconditional] at h
    cases h
    obtain ⟨c, hc, rfl⟩ := List.mem_map.mp hg
    obtain ⟨field, hfield, hchild⟩ := List.mem_filterMap.mp hc
    exact .branch hdef hconditional hfield hchild
  by_cases hlogical : t.construct v = .logical
  · simp only [valueGoals, hlogical] at h
    cases h
    obtain ⟨c, hc, rfl⟩ := List.mem_map.mp hg
    obtain ⟨field, hfield, hchild⟩ := List.mem_filterMap.mp hc
    exact .operand hdef hlogical hfield hchild
  rw [valueGoals_of_other hdef.1 hconditional hlogical] at h
  split at h
  · next helement =>
    cases h
    rw [List.mem_singleton.mp hg]
    exact .element hdef helement
  · split at h
    · next hcall =>
      cases hc : t.child? v .function with
      | none => rw [callGoals_of_none hc] at h; cases h
      | some c =>
        rcases (mem_callGoals hc h).mp hg with ⟨f, hf, rfl⟩ | hg
        · exact .callee hdef hcall hc hf
        · obtain ⟨o, names, haccess, ⟨hwalk, rfl⟩ | ⟨m, f, hwalk, hf, rfl⟩⟩ :=
            mem_namespaceGoals.mp hg
          · exact .absent hdef hcall hc haccess hwalk
          · exact .entry hdef hcall hc haccess hwalk hf
    · cases h
      cases hg

/-- What is behind a function: the expression that is its body, a complaint about a
missing body, or what it returns. -/
theorem functionGoals_cases (t : Tree) (f : Nat) :
    (∃ b, t.HasExpressionBody f b ∧ t.functionGoals f = .ok [.value b]) ∨
      (t.construct f = .arrowFunction ∧ t.child? f .body = none ∧
        t.functionGoals f = .error ⟨.arrowFunction, .body⟩) ∨
      ((∀ b, ¬ t.HasExpressionBody f b) ∧ t.functionGoals f = .ok (t.returnGoals f)) := by
  unfold functionGoals
  by_cases harrow : t.construct f = .arrowFunction
  · rw [if_pos harrow]
    cases hb : t.child? f .body with
    | none =>
      refine .inr (.inl ⟨harrow, rfl, ?_⟩)
      simp [require, hb, bind, Except.bind, type_of_construct harrow rfl]
    | some b =>
      by_cases hblock : t.type b = .statementBlock
      · refine .inr (.inr ⟨?_, ?_⟩)
        · rintro b' ⟨-, hb', hne⟩
          cases hb.symm.trans hb'
          exact hne hblock
        · simp [require, hb, bind, Except.bind, hblock, pure, Except.pure]
      · refine .inl ⟨b, ⟨harrow, hb, hblock⟩, ?_⟩
        simp [require, hb, bind, Except.bind, hblock, pure, Except.pure]
  · rw [if_neg harrow]
    exact .inr (.inr ⟨fun b hbody => harrow hbody.1, rfl⟩)

/-- Every goal behind a function is at the end of an edge. -/
theorem leads_of_mem_functionGoals {t : Tree} {f : Nat} {goals : List Goal} {g : Goal}
    (hf : t.IsFunctionNode f) (h : t.functionGoals f = .ok goals) (hg : g ∈ goals) :
    t.Leads (.function f) g := by
  rcases t.functionGoals_cases f with ⟨b, hbody, hgoals⟩ | ⟨-, -, hgoals⟩ | ⟨hbody, hgoals⟩
  · cases hgoals.symm.trans h
    rw [List.mem_singleton.mp hg]
    exact .body hbody
  · cases hgoals.symm.trans h
  · cases hgoals.symm.trans h
    obtain ⟨r, v, howns, hfirst, rfl⟩ := mem_returnGoals.mp hg
    exact .returned hf hbody howns hfirst

/-- **Every goal that is searched is at the end of an edge.** -/
theorem leads_of_mem_goalsOf {t : Tree} {goal : Goal} {n : Nat} {goals : List Goal} {g : Goal}
    (hproper : t.IsProper goal) (hentry : t.entrance? goal = some n)
    (h : t.goalsOf goal = .ok goals) (hg : g ∈ goals) : t.Leads goal g := by
  cases goal with
  | success => cases hentry
  | value e =>
    have hdef : t.Defines e n := entrance?_value_eq_some.mp hentry
    exact leads_of_mem_valueGoals hdef (hdef.2 ▸ h) hg
  | function f => exact leads_of_mem_functionGoals hproper h hg

/-- What an edge leads to is proper. -/
theorem Leads.isProper {t : Tree} {goal g : Goal} (h : t.Leads goal g) : t.IsProper g := by
  cases h with
  | branch | operand | element | absent | body | returned => trivial
  | callee _ _ _ hf | entry _ _ _ _ _ hf => exact hf.isFunctionNode

/-- The end of every edge from a call is searched, unless the call is a UI element. -/
theorem mem_valueGoals_of_call {t : Tree} {e v c : Nat} {goals : List Goal} {g : Goal}
    (hdef : t.Defines e v) (hcall : t.construct v = .call) (hc : t.child? v .function = some c)
    (h : t.valueGoals (t.unwrap e) v = .ok goals)
    (hg : (∃ f, t.Decides f (t.value c) ∧ g = .function f) ∨
      g ∈ t.namespaceGoals (t.value c)) :
    g ∈ goals ∨ .success ∈ goals := by
  rw [valueGoals_of_other hdef.1 (by simp [hcall]) (by simp [hcall])] at h
  split at h
  · cases h
    exact .inr (List.mem_singleton_self _)
  · exact .inl ((mem_callGoals hc h).mpr hg)

/-- **The end of every edge is searched, unless there is a UI element at once.** -/
theorem mem_goalsOf_of_leads {t : Tree} {goal : Goal} {goals : List Goal} {g : Goal}
    (hleads : t.Leads goal g) (h : t.goalsOf goal = .ok goals) :
    g ∈ goals ∨ .success ∈ goals := by
  cases hleads with
  | branch hdef hconditional hfield hchild =>
    simp only [goalsOf, hdef.2, valueGoals, hconditional] at h
    cases h
    exact .inl (List.mem_map_of_mem (List.mem_filterMap.mpr ⟨_, hfield, hchild⟩))
  | operand hdef hlogical hfield hchild =>
    simp only [goalsOf, hdef.2, valueGoals, hlogical] at h
    cases h
    exact .inl (List.mem_map_of_mem (List.mem_filterMap.mpr ⟨_, hfield, hchild⟩))
  | @element e v hdef helement =>
    have hconditional : t.construct v ≠ .conditional := by
      intro hc
      simp [isElement, hc] at helement
    have hlogical : t.construct v ≠ .logical := by
      intro hc
      simp [isElement, hc] at helement
    rw [goalsOf, hdef.2, valueGoals_of_other hdef.1 hconditional hlogical, if_pos helement] at h
    cases h
    exact .inl (List.mem_singleton_self _)
  | callee hdef hcall hc hf =>
    rw [goalsOf, hdef.2] at h
    exact mem_valueGoals_of_call hdef hcall hc h (.inl ⟨_, hf, rfl⟩)
  | entry hdef hcall hc haccess hwalk hf =>
    rw [goalsOf, hdef.2] at h
    exact mem_valueGoals_of_call hdef hcall hc h
      (.inr (mem_namespaceGoals.mpr ⟨_, _, haccess, .inr ⟨_, _, hwalk, hf, rfl⟩⟩))
  | absent hdef hcall hc haccess hwalk =>
    rw [goalsOf, hdef.2] at h
    exact mem_valueGoals_of_call hdef hcall hc h
      (.inr (mem_namespaceGoals.mpr ⟨_, _, haccess, .inl ⟨hwalk, rfl⟩⟩))
  | @body f b hbody =>
    rcases t.functionGoals_cases f with ⟨b', hbody', hgoals⟩ | ⟨-, hb, -⟩ | ⟨hnone, -⟩
    · cases hgoals.symm.trans h
      cases hbody.2.1.symm.trans hbody'.2.1
      exact .inl (List.mem_singleton_self _)
    · cases hbody.2.1.symm.trans hb
    · exact absurd hbody (hnone b)
  | @returned f r v _ hnone howns hfirst =>
    rcases t.functionGoals_cases f with ⟨b, hbody, -⟩ | ⟨-, -, hgoals⟩ | ⟨-, hgoals⟩
    · exact absurd hbody (hnone b)
    · cases hgoals.symm.trans h
    · cases hgoals.symm.trans h
      exact .inl (mem_returnGoals.mpr ⟨r, v, howns, hfirst, rfl⟩)

/-- A complaint is about a child that the goal lacks. -/
theorem lacks_of_goalsOf {t : Tree} {goal : Goal} {n : Nat} {missing : MissingChild}
    (hentry : t.entrance? goal = some n) (h : t.goalsOf goal = .error missing) :
    t.Lacks missing goal := by
  cases goal with
  | success => cases hentry
  | value e =>
    have hdef : t.Defines e n := entrance?_value_eq_some.mp hentry
    rw [goalsOf, hdef.2] at h
    by_cases hconditional : t.construct n = .conditional
    · simp [valueGoals, hconditional] at h
    by_cases hlogical : t.construct n = .logical
    · simp [valueGoals, hlogical] at h
    rw [valueGoals_of_other hdef.1 hconditional hlogical] at h
    split at h
    · cases h
    · split at h
      · next hcall =>
        cases hc : t.child? n .function with
        | none =>
          rw [callGoals_of_none hc, type_of_construct hcall rfl] at h
          cases h
          exact .callee hdef hcall hc
        | some c => rw [callGoals_of_some hc] at h; cases h
      · cases h
  | function f =>
    rcases t.functionGoals_cases f with ⟨b, -, hgoals⟩ | ⟨harrow, hb, hgoals⟩ | ⟨-, hgoals⟩
    · cases hgoals.symm.trans h
    · cases hgoals.symm.trans h
      exact .body harrow hb
    · cases hgoals.symm.trans h

/-! ## Goals that enter the same node -/

/-- Only functions have the edges of functions. -/
theorem Leads.isFunctionNode {t : Tree} {f : Nat} {g : Goal} (h : t.Leads (.function f) g) :
    t.IsFunctionNode f := by
  cases h with
  | body hbody => exact .inl (by simp [hbody.1, Construct.isFunction])
  | returned hf => exact hf

/-- What the value of an expression with edges can be. -/
theorem Leads.construct_value {t : Tree} {e v : Nat} {g : Goal} (h : t.Leads (.value e) g)
    (hdef : t.Defines e v) : t.construct v = .conditional ∨ t.construct v = .logical ∨
      t.construct v = .call ∨ t.construct v = .element := by
  obtain ⟨-, rfl⟩ := hdef
  cases h with
  | branch hdef hc => exact .inl (hdef.2 ▸ hc)
  | operand hdef hc => exact .inr (.inl (hdef.2 ▸ hc))
  | callee hdef hc | entry hdef hc | absent hdef hc => exact .inr (.inr (.inl (hdef.2 ▸ hc)))
  | element hdef helement =>
    rw [← hdef.2] at helement
    unfold isElement at helement
    split at helement
    · next hc => exact .inr (.inr (.inr hc))
    · next hc => exact .inr (.inr (.inl hc))
    · cases helement

/-- The value of an expression leads nowhere if it is a function. -/
theorem not_leads_of_isFunctionNode {t : Tree} {e v : Nat} {g : Goal} (hdef : t.Defines e v)
    (hv : t.IsFunctionNode v) : ¬ t.Leads (.value e) g := by
  intro h
  rcases h.construct_value hdef with hc | hc | hc | hc <;>
    rcases hv with hv | ⟨hv, -⟩ <;>
    · rw [hc] at hv
      revert hv
      decide

/-- Expressions with the same value lead to the same goals. -/
theorem valueGoals_congr {t : Tree} {e e' v : Nat} (he : t.isElement e = false)
    (he' : t.isElement e' = false) : t.valueGoals e v = t.valueGoals e' v := by
  by_cases hconditional : t.construct v = .conditional
  · simp only [valueGoals, hconditional]
  by_cases hlogical : t.construct v = .logical
  · simp only [valueGoals, hlogical]
  rw [valueGoals_of_other he hconditional hlogical, valueGoals_of_other he' hconditional hlogical]

/-- Goals with edges lead to the same goals if they enter the same node. -/
theorem goalsOf_eq_of_entrance? {t : Tree} {a b c d : Goal} {n : Nat}
    (ha : t.entrance? a = some n) (hb : t.entrance? b = some n) (hac : t.Leads a c)
    (hbd : t.Leads b d) : t.goalsOf a = t.goalsOf b := by
  cases a with
  | success => cases ha
  | value e =>
    have hdef : t.Defines e n := entrance?_value_eq_some.mp ha
    cases b with
    | success => cases hb
    | value e' =>
      have hdef' : t.Defines e' n := entrance?_value_eq_some.mp hb
      rw [goalsOf, goalsOf, hdef.2, hdef'.2]
      exact valueGoals_congr hdef.1 hdef'.1
    | function f =>
      -- a node cannot be both a function and a value that leads somewhere
      cases hb
      exact absurd hac (not_leads_of_isFunctionNode hdef hbd.isFunctionNode)
  | function f =>
    cases ha
    cases b with
    | success => cases hb
    | value e' =>
      have hdef' : t.Defines e' n := entrance?_value_eq_some.mp hb
      exact absurd hbd (not_leads_of_isFunctionNode hdef' hac.isFunctionNode)
    | function f' =>
      cases hb
      rfl

end ComponentScan.Tree
