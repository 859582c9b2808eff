import Mathlib.Data.Option.Basic
import ComponentScan.Proofs.Component.Definition
import ComponentScan.Proofs.Flow.Reachability
import ComponentScan.Proofs.Origin

/-! # No component without evidence

Nothing is taken for a component by default.  Behind every component there is a JSX
literal, or an import or a call of `require` that names a module of the React API, or a
call of an entry that an object literal lacks, where the analysis is permissive.

Each way to a component is followed back.  The module of an expression is named by an
`import` or a call of `require` (`moduleOf?_eq_some_iff`), so everything that is recognised
as part of the React API gives evidence; and a function that can return a UI element
reaches one in the graph of values, where the last edge tells why it is one.
-/
namespace ComponentScan

/-- A module that makes components or their elements. -/
def React.IsApiModule (m : String) : Prop :=
  React.isModuleName m = true ∨ m ∈ React.runtimeModules ∨ m ∈ React.createClassModules

namespace Tree

/-- What a tree must hold for a component to be seen in it. -/
inductive Evidence (t : Tree) : Prop
  /-- A JSX literal. -/
  | literal {n : Nat} : t.isNamed n = true → (t.type n).isElement = true → Evidence t
  /-- An import or a call of `require` that names a module of the React API. -/
  | api {n : Nat} {m : String} : t.NamesModule n m → React.IsApiModule m → Evidence t
  /-- A call of an entry that an object literal lacks. -/
  | absentEntry {n c o : Nat} {names : List (Option String)} : t.type n = .callExpression →
      t.child? n .function = some c → t.IsNamespaceAccess (t.value c) o names →
      t.Walk o names none → Evidence t

variable {t : Tree} {n : Nat}

/-! ## The React API -/

theorem evidence_of_module {p : String → Bool} (hp : ∀ m, p m = true → React.IsApiModule m)
    (h : (t.moduleOf? n).any p = true) : t.Evidence := by
  obtain ⟨m, hm, hpm⟩ := (Option.any_eq_true _ _).mp h
  obtain ⟨s, -, hs⟩ := moduleOf?_eq_some_iff.mp hm
  exact .api hs (hp m hpm)

theorem evidence_of_isFromReact (h : t.isFromReact n = true) : t.Evidence :=
  evidence_of_module (fun _ => .inl) h

theorem evidence_of_callsReact {name : String} (h : t.callsReact name n = true) : t.Evidence := by
  unfold callsReact at h
  split at h
  · cases h
  · split at h
    · split at h
      · exact evidence_of_isFromReact (Bool.and_eq_true_iff.mp h).2
      · cases h
    · exact evidence_of_isFromReact (Bool.and_eq_true_iff.mp h).2
    · cases h

theorem evidence_of_callsRuntime (h : t.callsRuntime n = true) : t.Evidence := by
  obtain ⟨callee, -, hcallee⟩ := (Option.any_eq_true _ _).mp h
  refine evidence_of_module (n := callee) ?_ (Bool.and_eq_true_iff.mp hcallee).2
  exact fun m hm => .inr (.inl (List.contains_iff_mem.mp hm))

theorem evidence_of_mapsChildren (h : t.mapsChildren n = true) : t.Evidence := by
  obtain ⟨callee, -, hcallee⟩ := (Option.any_eq_true _ _).mp h
  obtain ⟨object, -, hobject⟩ := (Option.any_eq_true _ _).mp (Bool.and_eq_true_iff.mp hcallee).2
  unfold isChildrenNamespace at hobject
  split at hobject
  · exact evidence_of_isFromReact (Bool.and_eq_true_iff.mp hobject).2
  · exact evidence_of_isFromReact (Bool.and_eq_true_iff.mp hobject).2
  · cases hobject

theorem evidence_of_createsClass (h : t.createsClass n = true) : t.Evidence := by
  rcases Bool.or_eq_true_iff.mp h with hreact | hmodule
  · exact evidence_of_callsReact hreact
  · obtain ⟨callee, -, hcallee⟩ := (Option.any_eq_true _ _).mp hmodule
    refine evidence_of_module (n := callee) ?_ (Bool.and_eq_true_iff.mp hcallee).2
    exact fun m hm => .inr (.inr (List.contains_iff_mem.mp hm))

theorem evidence_of_isComponentClass (h : t.isComponentClass n = true) : t.Evidence := by
  obtain ⟨superclass, -, hsuper⟩ := (Option.any_eq_true _ _).mp (Bool.and_eq_true_iff.mp h).2
  dsimp only at hsuper
  split at hsuper
  · exact evidence_of_isFromReact (Bool.and_eq_true_iff.mp hsuper).2
  · exact evidence_of_isFromReact (Bool.and_eq_true_iff.mp hsuper).2

/-! ## UI elements -/

theorem evidence_of_isElement (h : t.isElement n = true) : t.Evidence := by
  unfold isElement at h
  split at h
  · next helement =>
    have hnamed : t.isNamed n = true := isNamed_of_construct (by simp [helement])
    exact .literal hnamed (isElement_type_of_construct helement)
  · rcases Bool.or_eq_true_iff.mp h with hmakes | hmaps
    · rcases Bool.or_eq_true_iff.mp hmakes with hcreates | hclones
      · rcases Bool.or_eq_true_iff.mp hcreates with hreact | hruntime
        · exact evidence_of_callsReact hreact
        · exact evidence_of_callsRuntime hruntime
      · exact evidence_of_callsReact hclones
    · exact evidence_of_mapsChildren hmaps
  · cases h

/-- A path that ends at a UI element has met the evidence for it at its last edge. -/
theorem evidence_of_reaches {a g : Goal} (hpath : t.Reaches a g) (ha : ¬ t.Succeeds a)
    (hg : t.Succeeds g) : t.Evidence := by
  -- how the path came to the goal before the last does not matter
  rcases Relation.ReflTransGen.cases_tail hpath with rfl | ⟨b, -, hlast⟩
  · exact absurd hg ha
  · cases hlast with
    | branch => exact evidence_of_isElement hg
    | operand => exact evidence_of_isElement hg
    | element _ helement => exact evidence_of_isElement helement
    | callee => cases hg
    | entry => cases hg
    | absent _ hcall hc haccess hwalk =>
      exact .absentEntry (type_of_construct hcall rfl) hc haccess hwalk
    | body => exact evidence_of_isElement hg
    | returned => exact evidence_of_isElement hg

theorem evidence_of_isStateless (h : t.isStateless n = true) : t.Evidence := by
  obtain ⟨-, hreturns⟩ := isStateless_iff.mp h
  unfold mayReturnElement at hreturns
  split at hreturns
  · cases hreturns
  · next f hf =>
    rw [toExcept_searchFrom] at hreturns
    have hproper : t.IsProper (.function f) := isFunctionNode_of_decidingFunction? hf
    obtain ⟨g, hpath, hg⟩ := exists_of_plainSearch hproper hreturns (by simp)
    exact evidence_of_reaches hpath id hg

/-! ## Components -/

theorem evidence_of_definitionAt? {d : Definition} (h : t.definitionAt? n = some d) :
    t.Evidence := by
  cases definedAt_of_definitionAt? h with
  | function _ _ hstateless | method _ _ _ hstateless => exact evidence_of_isStateless hstateless
  | classBased _ hclass => exact evidence_of_isComponentClass hclass
  | createClass _ hcreates => exact evidence_of_createsClass hcreates

/-- **No component is seen without evidence**: a tree that defines one holds a JSX literal,
takes something from a module of the React API, or calls an entry that an object literal
lacks. -/
theorem no_component_without_evidence (h : t.definitions ≠ []) : t.Evidence := by
  obtain ⟨d, hd⟩ := List.exists_mem_of_ne_nil _ h
  obtain ⟨n, -, hn⟩ := List.mem_filterMap.mp hd
  exact evidence_of_definitionAt? hn

/-- The tree of `import h from 'create-react-class';h()`. -/
def importedClass : Tree :=
  Table.toTree {
    source := Utf8.encode "import h from 'create-react-class';h()"
    nodes := #[
      ⟨.program, none, 0, 38, none, true⟩,
      ⟨.importStatement, some 0, 0, 35, none, true⟩,
      ⟨.importClause, some 1, 7, 8, none, true⟩,
      ⟨.identifier, some 2, 7, 8, none, true⟩,
      ⟨.string, some 1, 14, 34, some .source, true⟩,
      ⟨.expressionStatement, some 0, 35, 38, none, true⟩,
      ⟨.callExpression, some 5, 35, 38, none, true⟩,
      ⟨.identifier, some 6, 35, 36, some .function, true⟩,
      ⟨.arguments, some 6, 36, 38, some .arguments, true⟩]
    nonempty := by decide
    ordered := by decide }

/-- Without a JSX literal, the module is the evidence. -/
theorem imported_class_has_evidence :
    importedClass.definitions = [⟨.createClass, 6, 6⟩] ∧ importedClass.Evidence :=
  ⟨by decide +kernel, no_component_without_evidence (by decide +kernel)⟩

end Tree

end ComponentScan
