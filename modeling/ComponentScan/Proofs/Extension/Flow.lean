import ComponentScan.Proofs.Extension.Resolution
import ComponentScan.Proofs.Flow.Graph
import ComponentScan.React

/-! # UI elements in an extended program

What recognises calls of the React API, component classes and UI elements is built from
names, values and modules, so it answers as before.  The same holds for the edges of the
graph of values, and by induction on its budget for every search through the graph.
-/
namespace ComponentScan.Tree

theorem construct_of_call? {t : Tree} {n call : Nat} (h : t.call? n = some call) :
    t.construct call = .call := by
  simp only [call?] at h
  split at h <;>
  · obtain ⟨_, -, h⟩ := Option.bind_eq_some_iff.mp h
    obtain ⟨_, hguard, h⟩ := Option.bind_eq_some_iff.mp h
    cases h
    exact (Option.guard_eq_some' _).mp hguard

theorem lt_size_of_callee? {t : Tree} {n callee : Nat} (h : t.callee? n = some callee) :
    callee < t.size := by
  obtain ⟨_, -, h⟩ := Option.bind_eq_some_iff.mp h
  obtain ⟨function, hfunction, rfl⟩ := Option.map_eq_some_iff.mp h
  exact unwrap_lt_size (lt_size_of_child? hfunction)

theorem lt_size_of_superclass? {t : Tree} {n superclass : Nat}
    (h : t.superclass? n = some superclass) : superclass < t.size := by
  obtain ⟨heritage, -, h⟩ := Option.bind_eq_some_iff.mp h
  obtain ⟨extended, hextended, h⟩ := Option.bind_eq_some_iff.mp h
  split at h
  · obtain ⟨expression, hexpression, h⟩ := Option.bind_eq_some_iff.mp h
    cases h
    rcases Option.or_eq_some_iff.mp hexpression with hc | ⟨-, hc⟩
    · exact unwrap_lt_size (lt_size_of_child? hc)
    · exact unwrap_lt_size (lt_size_of_first? hc)
  · cases h
    exact unwrap_lt_size (lt_size_of_first? hextended)

/-- Walking from a node of the table finds a node of the table. -/
theorem Walk.lt_size {t : Tree} {n m : Nat} {names : List (Option String)} {r : Option Nat}
    (h : t.Walk n names r) (hn : n < t.size) (hr : r = some m) : m < t.size := by
  induction h with
  | found =>
    cases hr
    exact hn
  | pass _ ih => exact ih hn hr
  | absent => cases hr
  | entry hentry _ _ ih => exact ih ((encloses_property? hentry).lt_size hn) hr
  | named hentry _ _ ih => exact ih (value_lt_size ((encloses_property? hentry).lt_size hn)) hr

namespace Extends
variable {t t' : Tree} (h : t'.Extends t) {n : Nat} {name : String}
include h

/-! ## The React API -/

theorem isFromReact_eq (hn : n < t.size) : t'.isFromReact n = t.isFromReact n := by
  rw [isFromReact, isFromReact, h.moduleOf?_eq hn]

theorem map_unwrap_child?_eq (hn : t.IsInner n) (field : Field) :
    (t'.child? n field).map t'.unwrap = (t.child? n field).map t.unwrap := by
  rw [h.child?_eq hn]
  exact Option.map_congr fun c hc => h.unwrap_eq (lt_size_of_child? hc)

theorem call?_eq (hn : n < t.size) : t'.call? n = t.call? n := by
  have hunwrap := unwrap_lt_size hn
  unfold call?
  dsimp only
  rw [h.unwrap_eq hn, h.type_eq hunwrap]
  split
  · next htype =>
    have hexpression : (t'.first? (t.unwrap n)).map t'.unwrap =
        (t.first? (t.unwrap n)).map t.unwrap := by
      rw [h.first?_eq (h.inner_of_type hunwrap (by simp [htype]))]
      exact Option.map_congr fun c hc =>
        h.unwrap_eq (lt_size_of_first? hc)
    rw [hexpression]
    refine Option.bind_congr fun call hcall => ?_
    obtain ⟨c, hc, rfl⟩ := Option.map_eq_some_iff.mp hcall
    rw [h.construct_eq (unwrap_lt_size (lt_size_of_first? hc))]
  · refine Option.bind_congr fun call hcall => ?_
    cases hcall
    rw [h.construct_eq hunwrap]

theorem callee?_eq (hn : n < t.size) : t'.callee? n = t.callee? n := by
  unfold callee?
  rw [h.call?_eq hn]
  refine Option.bind_congr fun call hcall => ?_
  exact h.map_unwrap_child?_eq (h.inner_of_construct (by simp [construct_of_call? hcall])) _

theorem callsReact_eq (hn : n < t.size) : t'.callsReact name n = t.callsReact name n := by
  unfold callsReact
  rw [h.callee?_eq hn]
  cases hcallee : t.callee? n with
  | none => rfl
  | some callee =>
    have hlt := lt_size_of_callee? hcallee
    simp only [h.type_eq hlt]
    cases htype : t.type callee with
    | memberExpression =>
      have hinner := h.inner_of_type hlt (by simp [htype])
      simp only [h.child?_eq hinner]
      split
      · next hproperty hobject =>
        rw [h.text_eq (lt_size_of_child? hproperty), h.isFromReact_eq (lt_size_of_child? hobject)]
      · rfl
    | identifier => simp only [h.exportName?_eq hlt, h.isFromReact_eq hlt]
    | _ => rfl

theorem callsRuntime_eq (hn : n < t.size) : t'.callsRuntime n = t.callsRuntime n := by
  rw [callsRuntime, callsRuntime, h.callee?_eq hn]
  refine any_congr fun callee hcallee => ?_
  have hlt := lt_size_of_callee? hcallee
  rw [h.type_eq hlt, h.exportName?_eq hlt, h.moduleOf?_eq hlt]

theorem isChildrenNamespace_eq (hn : n < t.size) :
    t'.isChildrenNamespace n = t.isChildrenNamespace n := by
  unfold isChildrenNamespace
  rw [h.type_eq hn, h.isFromReact_eq hn, h.exportName?_eq hn]
  cases htype : t.type n with
  | memberExpression => simp only [h.any_text_child?_eq (h.inner_of_type hn (by simp [htype]))]
  | _ => rfl

theorem mapsChildren_eq (hn : n < t.size) : t'.mapsChildren n = t.mapsChildren n := by
  rw [mapsChildren, mapsChildren, h.callee?_eq hn]
  refine any_congr fun callee hcallee => ?_
  have hlt := lt_size_of_callee? hcallee
  rw [h.type_eq hlt]
  by_cases htype : t.type callee = .memberExpression
  · have hinner := h.inner_of_type hlt (by simp [htype])
    rw [h.child?_eq hinner, h.child?_eq hinner]
    congr 1
    · congr 1
      refine any_congr fun property hproperty => ?_
      rw [h.text_eq (lt_size_of_child? hproperty)]
    · refine any_congr fun object hobject => ?_
      have hobject := lt_size_of_child? hobject
      rw [h.unwrap_eq hobject, h.isChildrenNamespace_eq (unwrap_lt_size hobject)]
  · simp [htype]

theorem createsClass_eq (hn : n < t.size) : t'.createsClass n = t.createsClass n := by
  rw [createsClass, createsClass, h.callsReact_eq hn, h.callee?_eq hn]
  congr 1
  refine any_congr fun callee hcallee => ?_
  have hlt := lt_size_of_callee? hcallee
  rw [h.type_eq hlt, h.moduleOf?_eq hlt]

theorem specObject?_eq (hn : t.IsInner n) : t'.specObject? n = t.specObject? n := by
  unfold specObject?
  rw [h.firstArgument_eq hn]
  refine Option.bind_congr fun argument hargument => ?_
  obtain ⟨arguments, -, hfirst⟩ := Option.bind_eq_some_iff.mp hargument
  have hlt := lt_size_of_first? hfirst
  dsimp only
  rw [h.value_eq hlt, h.construct_eq (value_lt_size hlt)]

theorem superclass?_eq (hn : t.IsInner n) : t'.superclass? n = t.superclass? n := by
  unfold superclass?
  rw [h.contents_eq hn]
  rw [List.find?_congr fun c hc => by rw [h.type_eq (IsInner.of_mem_contents hc).1]]
  refine Option.bind_congr fun heritage hheritage => ?_
  rw [h.first?_eq (.of_mem_contents (List.mem_of_find?_eq_some hheritage))]
  refine Option.bind_congr fun extended hextended => ?_
  have hextended : t.IsInner extended := .of_first? hextended
  rw [h.type_eq hextended.1]
  split
  · rw [h.child?_eq hextended, h.first?_eq hextended]
    refine Option.bind_congr fun expression hexpression => ?_
    have hlt : expression < t.size := by
      rcases Option.or_eq_some_iff.mp hexpression with hc | ⟨-, hc⟩
      · exact lt_size_of_child? hc
      · exact lt_size_of_first? hc
    exact congrArg some (h.unwrap_eq hlt)
  · refine Option.bind_congr fun expression hexpression => ?_
    cases hexpression
    exact congrArg some (h.unwrap_eq hextended.1)

theorem isComponentClass_eq (hn : n < t.size) : t'.isComponentClass n = t.isComponentClass n := by
  have hunwrap := unwrap_lt_size hn
  unfold isComponentClass
  dsimp only
  rw [h.unwrap_eq hn, h.construct_eq hunwrap]
  by_cases hclass : t.construct (t.unwrap n) = .classDefinition
  · rw [h.superclass?_eq (h.inner_of_construct (by simp [hclass]))]
    congr 1
    refine any_congr fun superclass hsuperclass => ?_
    have hlt := lt_size_of_superclass? hsuperclass
    have hvalue := value_lt_size hlt
    rw [h.value_eq hlt, h.type_eq hvalue, h.type_eq hlt, h.exportName?_eq hlt,
      h.isFromReact_eq hlt, h.isFromReact_eq hvalue]
    split
    · next hmember =>
      rw [h.child?_eq (h.inner_of_type hvalue (by simp [hmember]))]
      congr 1
      refine any_congr fun property hproperty => ?_
      rw [h.text_eq (lt_size_of_child? hproperty)]
    · rfl
  · simp [hclass]

/-! ## The graph of values -/

theorem isElement_eq (hn : n < t.size) : t'.isElement n = t.isElement n := by
  rw [isElement, isElement, h.construct_eq hn, createsElement, createsElement, h.callsReact_eq hn,
    h.callsRuntime_eq hn, clonesElement, clonesElement, h.callsReact_eq hn, h.mapsChildren_eq hn]

theorem decidingFunction?_eq (hn : n < t.size) :
    t'.decidingFunction? n = t.decidingFunction? n := by
  have hunwrap := unwrap_lt_size hn
  unfold decidingFunction?
  dsimp only
  rw [h.unwrap_eq hn, h.construct_eq hunwrap, h.type_eq hunwrap]
  split
  · rfl
  · split
    · next hproperty =>
      rw [h.map_unwrap_child?_eq (h.inner_of_construct (by simp [hproperty]))]
      cases hvalue : (t.child? (t.unwrap n) .value).map t.unwrap with
      | none => rfl
      | some value =>
        obtain ⟨c, hc, rfl⟩ := Option.map_eq_some_iff.mp hvalue
        rw [Option.filter_some, Option.filter_some,
          h.construct_eq (unwrap_lt_size (lt_size_of_child? hc))]
    · rfl

theorem inFunction_next_eq {f : Nat} (hf : f < t.size) (hn : t.IsInner n) :
    (t'.inFunction f).next n = (t.inFunction f).next n := by
  rw [inFunction_next, inFunction_next, h.construct_eq hn.1, h.scope_eq hn.1, h.scope_eq hf,
    h.contents_eq hn]

theorem functionNodes_eq (hn : t.IsInner n) : t'.functionNodes n = t.functionNodes n := by
  calc t'.functionNodes n
    _ = (t'.inFunction n).preorder n := (t'.inFunction n).visit_eq_preorder n
    _ = (t.inFunction n).preorder n :=
      Descent.preorder_congr (fun _ => h.inFunction_next_eq hn.1) hn
    _ = t.functionNodes n := ((t.inFunction n).visit_eq_preorder n).symm

theorem returnGoals_eq (hn : t.IsInner n) : t'.returnGoals n = t.returnGoals n := by
  have hmem {m : Nat} (hm : m ∈ t.functionNodes n) : m < t.size :=
    (mem_functionNodes.mp hm).lt_size hn.1
  have hreturns : t'.ownedReturns n = t.ownedReturns n := by
    rw [ownedReturns, h.functionNodes_eq hn, ownedReturns]
    refine List.filter_congr fun m hm => ?_
    rw [h.construct_eq (hmem hm), h.scope_eq (hmem hm), h.scope_eq hn.1]
  rw [returnGoals, hreturns, returnGoals]
  congr 1
  refine List.filterMap_congr fun r hr => h.first?_eq (h.inner_of_construct ?_)
  simp [(mem_ownedReturns.mp hr).isReturn]

theorem require_eq (hn : t.IsInner n) (field : Field) : t'.require n field = t.require n field := by
  rw [require, require, h.child?_eq hn, h.type_eq hn.1]

theorem functionGoals_eq (hn : t.IsInner n) : t'.functionGoals n = t.functionGoals n := by
  unfold functionGoals
  rw [h.construct_eq hn.1, h.require_eq hn, h.returnGoals_eq hn]
  split
  · cases hbody : t.child? n .body with
    | none => simp [require, hbody, bind, Except.bind]
    | some body =>
      simp only [require, hbody, bind, Except.bind, h.type_eq (lt_size_of_child? hbody)]
  · rfl

theorem namespaceEntry?_eq (hn : n < t.size) (names : List (Option String)) :
    t'.namespaceEntry? n names = t.namespaceEntry? n names := by
  induction names generalizing n with
  | nil => rfl
  | cons name names ih =>
    cases name with
    | none => exact ih hn
    | some name =>
      rw [namespace_cons, namespace_cons, h.property?_eq hn]
      refine Option.bind_congr fun entry hentry => ?_
      have hlt := (encloses_property? hentry).lt_size hn
      rw [h.construct_eq hlt, h.value_eq hlt]
      split
      · exact ih (value_lt_size hlt)
      · exact ih hlt

theorem namespaceGoals_eq (hn : n < t.size) : t'.namespaceGoals n = t.namespaceGoals n := by
  have hroot := (t.encloses_accessChain n).lt_size hn
  have hobject := value_lt_size hroot
  unfold namespaceGoals
  rw [h.type_eq hn, h.accessChain_eq hn]
  dsimp only
  rw [h.value_eq hroot, h.construct_eq hobject, h.namespaceEntry?_eq hobject]
  split
  · split
    · split
      · rfl
      · next entry hentry =>
        rw [h.decidingFunction?_eq ((walk_iff.mpr hentry).lt_size hobject rfl)]
    · rfl
  · rfl

theorem callGoals_eq (hn : t.IsInner n) : t'.callGoals n = t.callGoals n := by
  have hchild := h.child?_eq hn .function
  cases hc : t.child? n .function with
  | none => rw [callGoals_of_none hc, callGoals_of_none (hchild.trans hc), h.type_eq hn.1]
  | some c =>
    have hlt := lt_size_of_child? hc
    have hvalue := value_lt_size hlt
    rw [callGoals_of_some hc, callGoals_of_some (hchild.trans hc), h.value_eq hlt,
      h.decidingFunction?_eq hvalue, h.namespaceGoals_eq hvalue]

theorem valueGoals_eq {expression : Nat} (hn : n < t.size) :
    t'.valueGoals expression n = t.valueGoals expression n := by
  have hheld (hconstruct : t.construct n ≠ .other) (fields : List Field) :
      fields.filterMap (t'.child? n) = fields.filterMap (t.child? n) :=
    List.filterMap_congr fun field _ => h.child?_eq (h.inner_of_construct hconstruct) field
  unfold valueGoals
  dsimp only
  rw [h.construct_eq hn, h.isElement_eq hn]
  split
  · next hconditional => rw [hheld (by simp [hconditional])]
  · next hlogical => rw [hheld (by simp [hlogical])]
  · split
    · rfl
    · split
      · next hcall => rw [h.callGoals_eq (h.inner_of_construct (by simp [hcall]))]
      · rfl

end Extends

/-- A goal about nodes of the table; if it is about a function, there is one. -/
def IsGoal (t : Tree) : Goal → Prop
  | .success => True
  | .value expression => expression < t.size
  | .function function => t.IsFunctionNode function

/-- The goals behind a goal are about nodes of the table. -/
theorem Leads.isGoal {t : Tree} {goal g : Goal} (h : t.Leads goal g) : t.IsGoal g := by
  cases h with
  | branch _ _ _ hc | operand _ _ _ hc => exact lt_size_of_child? hc
  | element | absent => trivial
  | callee _ _ _ hf | entry _ _ _ _ _ hf => exact hf.isFunctionNode
  | body hbody => exact lt_size_of_child? hbody.2.1
  | returned _ _ _ hv => exact lt_size_of_first? hv

/-- Two searches that agree on the goals of a list try them alike. -/
theorem searchAny_congr_mem {search search' : Goal → Memo → Outcome × Memo} {goals : List Goal}
    {memo : Memo} (hagree : ∀ goal ∈ goals, ∀ memo, search' goal memo = search goal memo) :
    searchAny search' goals memo = searchAny search goals memo := by
  induction goals generalizing memo with
  | nil => rfl
  | cons goal goals ih =>
    rw [searchAny, searchAny, hagree goal (List.mem_cons_self ..)]
    split
    · exact ih fun g hg => hagree g (List.mem_cons_of_mem _ hg)
    · rfl

namespace Extends
variable {t t' : Tree} (h : t'.Extends t) {n : Nat}
include h

/-- **Every search through the old goals goes as before.** -/
theorem search_eq {goal : Goal} (hgoal : t.IsGoal goal) (budget : Nat) (entered : List Nat)
    (memo : Memo) : t'.search budget entered goal memo = t.search budget entered goal memo := by
  induction budget generalizing entered goal memo with
  | zero => rfl
  | succ budget ih =>
    cases goal with
    | success => rfl
    | value e =>
      have hunwrap := unwrap_lt_size (show e < t.size from hgoal)
      rw [search, search]
      dsimp only
      rw [h.unwrap_eq hgoal, h.isElement_eq hunwrap, h.value_eq hunwrap,
        h.valueGoals_eq (value_lt_size hunwrap)]
      split
      · rfl
      · next helement =>
        split
        · rfl
        · split
          · rfl
          · next goals hgoals =>
            -- every goal behind is at the end of an edge, so it is about a node of the table
            refine searchAny_congr_mem fun g hg memo => ih ?_ _ memo
            exact (leads_of_mem_valueGoals ⟨by simpa using helement, rfl⟩ hgoals hg).isGoal
    | function f =>
      have hinner : t.IsInner f := h.inner_of_construct <| by
        rcases hgoal with hf | ⟨hf, -⟩
        · rintro hother
          rw [hother] at hf
          cases hf
        · simp [hf]
      rw [search, search, h.functionGoals_eq hinner]
      split
      · rfl
      · split
        · rfl
        · split
          · rfl
          · next goals hgoals =>
            have hany : searchAny (t'.search budget (f :: entered)) goals (memo.scan f) =
                searchAny (t.search budget (f :: entered)) goals (memo.scan f) :=
              searchAny_congr_mem fun g hg memo =>
                ih (leads_of_mem_functionGoals hgoal hgoals hg).isGoal _ memo
            rw [hany]

theorem searchFrom_eq {goal : Goal} (hgoal : t.IsGoal goal) :
    t'.searchFrom goal = t.searchFrom goal := by
  rw [searchFrom, h.search_eq hgoal]
  exact t.search_eq_searchFrom goal (h.size_lt.trans (Nat.lt_succ_self _))

theorem mayReturnElement_eq (hn : n < t.size) :
    t'.mayReturnElement n = t.mayReturnElement n := by
  unfold mayReturnElement
  rw [h.decidingFunction?_eq hn]
  split
  · rfl
  · next f hf =>
    have hgoal : t.IsGoal (.function f) := isFunctionNode_of_decidingFunction? hf
    rw [h.searchFrom_eq hgoal]

end Extends

end ComponentScan.Tree
