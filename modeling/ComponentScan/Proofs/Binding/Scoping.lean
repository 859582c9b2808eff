import ComponentScan.Proofs.Binding.Place

/-! # Lexical scoping

Which names a scope declares is said here without a search, rule by rule: what a pattern
binds (`Binds`), what a statement declares (`DeclaredBy`), what a function has as parameters
(`HasParameter`), and from these what an enclosing node declares (`Declares`).  The rules name
the types of nodes and the children that they are about, and ask nothing of the lookup.

Each search for a name then finds something exactly if the rules say so.  The lookup goes
outwards through the enclosing nodes, so it finds a place exactly if one of them declares the
name, and the place lies in the innermost one that does (`lookup_is_lexical`).
-/
namespace ComponentScan.Tree

/-! ## What is declared -/

/-- A binding target binds a name: a plain identifier its own, and a pattern those of its
parts. -/
inductive Binds (t : Tree) : Nat → String → Prop
  /-- An identifier, or an element `{name}` of an object pattern. -/
  | leaf {n : Nat} :
      t.type n = .identifier ∨ t.type n = .shorthandPropertyIdentifierPattern →
      Binds t n (t.text n)
  /-- An element `{key: value}` of an object pattern. -/
  | pair {n value : Nat} {name : String} : t.type n = .pairPattern →
      t.child? n .value = some value → Binds t value name → Binds t n name
  /-- A target with a default. -/
  | default {n left : Nat} {name : String} :
      t.type n = .assignmentPattern ∨ t.type n = .objectAssignmentPattern →
      t.child? n .left = some left → Binds t left name → Binds t n name
  /-- A pattern with elements. -/
  | element {n e : Nat} {name : String} :
      t.type n = .objectPattern ∨ t.type n = .arrayPattern ∨ t.type n = .restPattern →
      e ∈ t.contents n → Binds t e name → Binds t n name

/-- A declaration of variables declares what the targets of its declarators bind. -/
def DeclaresVariable (t : Tree) (declaration : Nat) (name : String) : Prop :=
  ∃ d ∈ t.contents declaration, t.type d = .variableDeclarator ∧
    ∃ target, t.child? d .name = some target ∧ t.Binds target name

/-- The node `k` is the local name of an import specifier: its alias, or else its name. -/
inductive LocalName (t : Tree) (specifier k : Nat) : Prop
  | byAlias : t.child? specifier .alias = some k → LocalName t specifier k
  | byName : t.child? specifier .alias = none → t.child? specifier .name = some k →
      LocalName t specifier k

/-- The clause of an import gives something a local name. -/
inductive Imports (t : Tree) (clause : Nat) : String → Prop
  /-- The default export. -/
  | default {part : Nat} : part ∈ t.contents clause → t.type part = .identifier →
      Imports t clause (t.text part)
  /-- The whole module. -/
  | wholeModule {part identifier : Nat} : part ∈ t.contents clause →
      t.type part = .namespaceImport → t.first? part = some identifier →
      Imports t clause (t.text identifier)
  /-- One export, under its alias or under its own name. -/
  | named {part specifier name : Nat} : part ∈ t.contents clause →
      t.type part = .namedImports → specifier ∈ t.contents part →
      t.type specifier = .importSpecifier → t.LocalName specifier name →
      Imports t clause (t.text name)

/-- A statement declares a name. -/
inductive DeclaredBy (t : Tree) (statement : Nat) (name : String) : Prop
  /-- A declaration of variables. -/
  | declaration : t.type statement = .lexicalDeclaration ∨ t.type statement = .variableDeclaration →
      t.DeclaresVariable statement name → DeclaredBy t statement name
  /-- The definition of a function or a class. -/
  | definition {k : Nat} :
      t.type statement ∈ [.functionDeclaration, .generatorFunctionDeclaration, .classDeclaration,
        .classExpression, .abstractClassDeclaration] →
      t.child? statement .name = some k → t.text k = name → DeclaredBy t statement name
  /-- An import. -/
  | byImport {clause : Nat} : t.type statement = .importStatement →
      (t.contents statement).find? (t.type · = .importClause) = some clause →
      t.Imports clause name → DeclaredBy t statement name

/-- The node `d` is what the statement `s` declares something by: what it exports, if it is
an export, or else the statement itself. -/
inductive StandsFor (t : Tree) (s : Nat) : (d : Nat) → Prop
  | exported {d : Nat} : t.type s = .exportStatement → t.child? s .declaration = some d →
      StandsFor t s d
  | itself : t.type s ≠ .exportStatement → StandsFor t s s

/-- A function has a parameter of that name. -/
inductive HasParameter (t : Tree) (f : Nat) (name : String) : Prop
  /-- A single parameter without parentheses, which then is the only one. -/
  | single {p : Nat} : t.child? f .parameter = some p → t.text p = name → HasParameter t f name
  /-- One of a list of parameters, maybe a pattern, maybe with a default. -/
  | plain {ps p : Nat} : t.child? f .parameter = none → t.child? f .parameters = some ps →
      p ∈ t.contents ps → t.type p ≠ .requiredParameter → t.type p ≠ .optionalParameter →
      t.Binds p name → HasParameter t f name
  /-- One of a list of parameters that is written with a type. -/
  | typed {ps p pattern : Nat} : t.child? f .parameter = none →
      t.child? f .parameters = some ps → p ∈ t.contents ps →
      t.type p = .requiredParameter ∨ t.type p = .optionalParameter →
      t.child? p .pattern = some pattern → t.Binds pattern name → HasParameter t f name

/-- The types of functions and methods. -/
def functionTypes : List NodeType :=
  [.functionDeclaration, .generatorFunctionDeclaration, .functionExpression, .function,
    .generatorFunction, .arrowFunction, .methodDefinition]

/-- The block `a` is the whole program, or the body of a function. -/
inductive IsFunctionBody (t : Tree) (a : Nat) : Prop
  | program : t.type a = .program → IsFunctionBody t a
  | body {f : Nat} : t.type a = .statementBlock → t.parent? a = some f →
      t.type f ∈ functionTypes → IsFunctionBody t a

/-- A node is inside `a`, through named nodes, but in no function inside `a`. -/
inductive InsideBody (t : Tree) (a : Nat) : Nat → Prop
  | child {c : Nat} : c ∈ t.namedChildren a → InsideBody t a c
  | deeper {b c : Nat} : InsideBody t a b → t.type b ∉ functionTypes → c ∈ t.namedChildren b →
      InsideBody t a c

/-- A scope declares a name. -/
inductive Declares (t : Tree) (a : Nat) (name : String) : Prop
  /-- A block, by one of its statements. -/
  | statement {s d : Nat} :
      t.type a ∈ [.program, .statementBlock, .switchCase, .switchDefault] →
      s ∈ t.contents a → t.StandsFor s d → t.DeclaredBy d name → Declares t a name
  /-- The body of a function, or the program, by a `var` declaration inside it. -/
  | hoisted {d : Nat} : t.IsFunctionBody a → t.InsideBody a d →
      t.type d = .variableDeclaration → t.DeclaresVariable d name → Declares t a name
  /-- A function, by its parameters. -/
  | parameter : t.type a ∈ functionTypes → t.HasParameter a name → Declares t a name
  /-- A function expression, by its own name. -/
  | ownName {k : Nat} : t.isNamed a = true →
      t.type a ∈ [.functionExpression, .function, .generatorFunction] →
      t.child? a .name = some k → t.text k = name → Declares t a name

/-! ## Groups of types -/

section Types
variable {type : NodeType}

theorem isBlock_iff :
    type.isBlock = true ↔ type ∈ [.program, .statementBlock, .switchCase, .switchDefault] := by
  cases type <;> simp [NodeType.isBlock]

theorem isScope_iff : type.isScope = true ↔ type ∈ functionTypes := by
  cases type <;> simp [NodeType.isScope, functionTypes]

theorem isDeclaration_iff :
    type.isDeclaration = true ↔ type = .lexicalDeclaration ∨ type = .variableDeclaration := by
  cases type <;> simp [NodeType.isDeclaration]

theorem isDefinition_iff : (type.isFunctionDeclaration || type.isClass) = true ↔
    type ∈ [.functionDeclaration, .generatorFunctionDeclaration, .classDeclaration,
      .classExpression, .abstractClassDeclaration] := by
  cases type <;> simp [NodeType.isFunctionDeclaration, NodeType.isClass]

end Types

section Searches
variable {t : Tree} {n : Nat} {name : String}

/-! ## Patterns -/

theorem patternBinding?_of_identifier (h : t.type n = .identifier) :
    t.patternBinding? name n = if t.text n = name then some n else none := by
  rw [patternBinding?_eq, h]

theorem binds_of_patternBinding? {b : Nat} (h : t.patternBinding? name n = some b) :
    t.Binds n name := by
  fun_induction patternBinding? t name n with
  | case1 n htype htext => exact htext ▸ .leaf (.inl htype)
  | case3 n htype htext => exact htext ▸ .leaf (.inr htype)
  | case6 n htype value hvalue hidentifier htext =>
    exact .pair htype hvalue (htext ▸ .leaf (.inl hidentifier))
  | case8 n htype value hvalue _ ih => exact .pair htype hvalue (ih h)
  | case10 n htype left hleft ih => exact .default (.inl htype) hleft (ih h)
  | case12 n htype left hleft ih => exact .default (.inr htype) hleft (ih h)
  | case13 n htype ih | case14 n htype ih | case15 n htype ih =>
    obtain ⟨⟨e, he⟩, -, hb⟩ := List.exists_of_findSome?_eq_some h
    exact .element (by simp [htype]) he (ih e he hb)
  | _ => cases h

theorem isSome_patternBinding?_iff :
    (t.patternBinding? name n).isSome = true ↔ t.Binds n name := by
  constructor
  · intro h
    obtain ⟨b, hb⟩ := Option.isSome_iff_exists.mp h
    exact binds_of_patternBinding? hb
  · intro h
    induction h with
    | leaf htype => rcases htype with htype | htype <;> simp [patternBinding?_eq, htype]
    | @pair n value name htype hvalue _ ih =>
      rw [patternBinding?_eq, htype]
      by_cases hidentifier : t.type value = .identifier
      · rw [patternBinding?_of_identifier hidentifier] at ih
        by_cases htext : t.text value = name
        · simp [hvalue, hidentifier, htext]
        · simp [htext] at ih
      · simpa [hvalue, hidentifier] using ih
    | default htype hleft _ ih =>
      rw [patternBinding?_eq]
      rcases htype with htype | htype <;> simpa [htype, hleft] using ih
    | @element n e name htype he _ ih =>
      have hfound : ((t.contents n).findSome? (t.patternBinding? name)).isSome = true :=
        List.findSome?_isSome_iff.mpr ⟨e, he, ih⟩
      rw [patternBinding?_eq]
      rcases htype with htype | htype | htype <;> simpa [htype] using hfound

/-- A target that is a plain identifier binds its name to a place of the caller's choice; the
search finds something all the same. -/
theorem isSome_targetBinding_iff {place : Nat} :
    (if t.type n = .identifier then if t.text n = name then some place else none
      else t.patternBinding? name n).isSome = true ↔ t.Binds n name := by
  rw [← isSome_patternBinding?_iff]
  split
  · next htype =>
    rw [patternBinding?_of_identifier htype]
    split <;> simp
  · exact Iff.rfl

theorem isSome_bind_iff {α β : Type} {o : Option α} {f : α → Option β} :
    (o.bind f).isSome = true ↔ ∃ a, o = some a ∧ (f a).isSome = true := by
  rw [Option.isSome_bind, Option.any_eq_true]

/-! ## Variables and parameters -/

theorem isSome_declarationBinding?_iff :
    (t.declarationBinding? name n).isSome = true ↔ t.DeclaresVariable n name := by
  simp only [declarationBinding?, List.findSome?_isSome_iff, List.mem_filter, decide_eq_true_eq,
    DeclaresVariable, and_assoc]
  refine exists_congr fun d => and_congr_right fun _ => and_congr_right fun _ => ?_
  refine isSome_bind_iff.trans (exists_congr fun target => and_congr_right fun _ => ?_)
  exact isSome_targetBinding_iff

/-- A parameter that is written without a type is a binding target. -/
theorem isSome_parameterBinding?_plain (hrequired : t.type n ≠ .requiredParameter)
    (hoptional : t.type n ≠ .optionalParameter) :
    (t.parameterBinding? name n).isSome = true ↔ t.Binds n name := by
  rw [← isSome_patternBinding?_iff]
  unfold parameterBinding?
  split
  · next htype =>
    rw [patternBinding?_eq, htype]
    refine isSome_bind_iff.trans (Iff.trans ?_ isSome_bind_iff.symm)
    refine exists_congr fun left => and_congr_right fun _ => ?_
    split
    · next hleft => simp [patternBinding?_of_identifier hleft.1, hleft.2]
    · exact Iff.rfl
  · next htype => exact absurd htype hrequired
  · next htype => exact absurd htype hoptional
  · exact Iff.rfl

theorem isSome_parameterBinding?_typed
    (h : t.type n = .requiredParameter ∨ t.type n = .optionalParameter) :
    (t.parameterBinding? name n).isSome = true ↔
      ∃ pattern, t.child? n .pattern = some pattern ∧ t.Binds pattern name := by
  rcases h with h | h <;>
  · simp only [parameterBinding?, h]
    refine isSome_bind_iff.trans (exists_congr fun pattern => and_congr_right fun _ => ?_)
    exact isSome_targetBinding_iff

theorem isSome_parametersBinding?_iff :
    (t.parametersBinding? name n).isSome = true ↔ t.HasParameter n name := by
  unfold parametersBinding?
  split
  · next p hp =>
    constructor
    · intro h
      split at h
      · next htext => exact .single hp htext
      · cases h
    · intro h
      cases h with
      | single hp' htext =>
        cases hp.symm.trans hp'
        simp [htext]
      | plain hnone | typed hnone => cases hp.symm.trans hnone
  · next hnone =>
    simp only [Option.bind_eq_bind, isSome_bind_iff, List.findSome?_isSome_iff]
    constructor
    · rintro ⟨ps, hps, p, hp, hfound⟩
      by_cases htyped : t.type p = .requiredParameter ∨ t.type p = .optionalParameter
      · obtain ⟨pattern, hpattern, hbinds⟩ := (isSome_parameterBinding?_typed htyped).mp hfound
        exact .typed hnone hps hp htyped hpattern hbinds
      · obtain ⟨hrequired, hoptional⟩ := not_or.mp htyped
        exact .plain hnone hps hp hrequired hoptional
          ((isSome_parameterBinding?_plain hrequired hoptional).mp hfound)
    · intro h
      cases h with
      | single hp => cases hnone.symm.trans hp
      | @plain ps p _ hps hp hrequired hoptional hbinds =>
        exact ⟨ps, hps, p, hp, (isSome_parameterBinding?_plain hrequired hoptional).mpr hbinds⟩
      | @typed ps p pattern _ hps hp htyped hpattern hbinds =>
        have hbinding := (isSome_parameterBinding?_typed htyped).mpr ⟨pattern, hpattern, hbinds⟩
        exact ⟨ps, hps, p, hp, hbinding⟩

/-! ## Imports -/

theorem localName_iff {k : Nat} : t.LocalName n k ↔ t.specifierLocal? n = some k := by
  rw [specifierLocal?, Option.or_eq_some_iff]
  constructor
  · intro h
    cases h with
    | byAlias halias => exact .inl halias
    | byName halias hname => exact .inr ⟨halias, hname⟩
  · rintro (halias | ⟨halias, hname⟩)
    · exact .byAlias halias
    · exact .byName halias hname

theorem isSome_importBinding?_iff : (t.importBinding? name n).isSome = true ↔
    ∃ clause, (t.contents n).find? (t.type · = .importClause) = some clause ∧
      t.Imports clause name := by
  refine isSome_bind_iff.trans (exists_congr fun clause => and_congr_right fun _ => ?_)
  rw [List.findSome?_isSome_iff]
  constructor
  · rintro ⟨part, hpart, hfound⟩
    unfold importPartBinding? at hfound
    split at hfound
    · next htype =>
      split at hfound
      · next htext => exact htext ▸ .default hpart htype
      · cases hfound
    · next htype =>
      obtain ⟨identifier, hfirst, hfound⟩ := isSome_bind_iff.mp hfound
      split at hfound
      · next htext => exact htext ▸ .wholeModule hpart htype hfirst
      · cases hfound
    · next htype =>
      obtain ⟨specifier, hmem, hlocal⟩ := List.find?_isSome.mp hfound
      obtain ⟨hcontents, hspecifier⟩ := List.mem_filter.mp hmem
      obtain ⟨k, hk, htext⟩ := (Option.any_eq_true _ _).mp hlocal
      exact of_decide_eq_true htext ▸
        .named hpart htype hcontents (of_decide_eq_true hspecifier) (localName_iff.mpr hk)
    · cases hfound
  · intro h
    cases h with
    | @default part hpart htype => exact ⟨part, hpart, by simp [importPartBinding?, htype]⟩
    | @wholeModule part _ hpart htype hfirst =>
      exact ⟨part, hpart, by simp [importPartBinding?, htype, hfirst]⟩
    | @named part specifier k hpart htype hmem hspecifier hk =>
      refine ⟨part, hpart, ?_⟩
      simp only [importPartBinding?, htype]
      refine List.find?_isSome.mpr ⟨specifier, List.mem_filter.mpr ⟨hmem, by simp [hspecifier]⟩, ?_⟩
      simp [localName_iff.mp hk]

/-! ## Statements -/

theorem standsFor_iff {d : Nat} : t.StandsFor n d ↔ t.declaration? n = some d := by
  unfold declaration?
  constructor
  · intro h
    cases h with
    | exported htype hd => rwa [if_pos htype]
    | itself htype => rw [if_neg htype]
  · intro h
    split at h
    · next htype => exact .exported htype h
    · next htype =>
      cases h
      exact .itself htype

theorem isSome_statementBinding?_iff : (t.statementBinding? name n).isSome = true ↔
    ∃ d, t.StandsFor n d ∧ t.DeclaredBy d name := by
  refine isSome_bind_iff.trans (exists_congr fun d => and_congr standsFor_iff.symm ?_)
  dsimp only
  constructor
  · intro h
    split at h
    · next hvariables =>
      exact .declaration (isDeclaration_iff.mp hvariables) (isSome_declarationBinding?_iff.mp h)
    split at h
    · next hdefinition =>
      split at h
      · next hname =>
        obtain ⟨k, hk, htext⟩ := (Option.any_eq_true _ _).mp hname
        exact .definition (isDefinition_iff.mp hdefinition) hk (of_decide_eq_true htext)
      · cases h
    split at h
    · next himport =>
      obtain ⟨clause, hclause, hname⟩ := isSome_importBinding?_iff.mp h
      exact .byImport himport hclause hname
    · cases h
  · intro h
    cases h with
    | declaration hvariables hname =>
      rw [if_pos (isDeclaration_iff.mpr hvariables)]
      exact isSome_declarationBinding?_iff.mpr hname
    | definition hdefinition hk htext =>
      -- a definition is no declaration of variables, which is asked first
      have hvariables : ¬ (t.type d).isDeclaration = true := by
        rw [isDeclaration_iff]
        rintro (htype | htype) <;> simp [htype] at hdefinition
      rw [if_neg hvariables, if_pos (isDefinition_iff.mpr hdefinition)]
      simp [hk, htext]
    | byImport himport hclause hname =>
      simp only [himport, NodeType.isDeclaration, NodeType.isFunctionDeclaration,
        NodeType.isClass]
      exact isSome_importBinding?_iff.mpr ⟨_, hclause, hname⟩

/-! ## Bodies -/

theorem isFunctionBody_iff : t.IsFunctionBody n ↔ t.isHoistingBlock n = true := by
  unfold isHoistingBlock
  constructor
  · intro h
    cases h with
    | program htype => rw [htype]
    | body htype hparent hf =>
      rw [htype]
      simpa [hparent] using isScope_iff.mpr hf
  · intro h
    split at h
    · next htype => exact .program htype
    · next htype =>
      obtain ⟨f, hparent, hf⟩ := (Option.any_eq_true _ _).mp h
      exact .body htype hparent (isScope_iff.mp hf)
    · cases h

/-- What is inside a body is what the search for `var` declarations comes to. -/
theorem insideBody_iff {d : Nat} :
    t.InsideBody n d ↔ ∃ c ∈ t.namedChildren n, t.outsideFunctions.Below c d := by
  constructor
  · intro h
    induction h with
    | @child c hc => exact ⟨c, hc, .refl⟩
    | @deeper b d _ hb hd ih =>
      obtain ⟨c, hc, hbelow⟩ := ih
      have hfunction : ¬ (t.type b).isScope = true := fun h => hb (isScope_iff.mp h)
      refine ⟨c, hc, .tail hbelow ?_⟩
      rwa [outsideFunctions_next, if_neg hfunction]
  · rintro ⟨c, hc, hbelow⟩
    induction hbelow with
    | refl => exact .child hc
    | @tail b d _ hd ih =>
      rw [outsideFunctions_next] at hd
      split at hd
      · cases hd
      · next hfunction => exact .deeper ih (fun h => hfunction (isScope_iff.mpr h)) hd

theorem mem_hoistedDeclarations {d : Nat} :
    d ∈ t.hoistedDeclarations n ↔ t.InsideBody n d ∧ t.type d = .variableDeclaration := by
  simp [hoistedDeclarations_eq, List.mem_flatMap, Descent.mem_preorder, insideBody_iff]

theorem isSome_hoistedBinding?_iff : (t.hoistedBinding? name n).isSome = true ↔
    t.IsFunctionBody n ∧
      ∃ d, t.InsideBody n d ∧ t.type d = .variableDeclaration ∧ t.DeclaresVariable d name := by
  rw [isFunctionBody_iff, hoistedBinding?]
  split
  · next hbody =>
    simp only [List.findSome?_isSome_iff, mem_hoistedDeclarations, isSome_declarationBinding?_iff,
      and_assoc, hbody, true_and]
  · next hbody => simp [hbody]

/-! ## Scopes -/

theorem isSome_ownNameBinding?_iff : (t.ownNameBinding? name n).isSome = true ↔
    t.isNamed n = true ∧ t.type n ∈ [.functionExpression, .function, .generatorFunction] ∧
      ∃ k, t.child? n .name = some k ∧ t.text k = name := by
  have hconstruct : t.construct n = .functionExpression ↔ t.isNamed n = true ∧
      t.type n ∈ [.functionExpression, .function, .generatorFunction] := by
    unfold construct
    split
    · next hnamed =>
      cases htype : t.type n <;> simp [NodeType.construct, hnamed]
      split <;> simp
    · next hnamed => simp [hnamed]
  rw [ownNameBinding?, ← and_assoc, ← hconstruct]
  split
  · next hown => simpa [Option.any_eq_true] using hown
  · next hown => simpa [Option.any_eq_true] using hown

/-- A function is no block. -/
theorem isBlock_eq_false_of_mem (h : t.type n ∈ functionTypes) : (t.type n).isBlock = false := by
  have hscope := isScope_iff.mpr h
  cases htype : t.type n <;> simp [htype, NodeType.isScope, NodeType.isBlock] at hscope ⊢

theorem mem_functionTypes_of_expression
    (h : t.type n ∈ [.functionExpression, .function, .generatorFunction]) :
    t.type n ∈ functionTypes := by
  simp only [List.mem_cons, List.not_mem_nil, or_false] at h
  rcases h with h | h | h <;> simp [h, functionTypes]

theorem isBlock_of_isFunctionBody (h : t.IsFunctionBody n) : (t.type n).isBlock = true := by
  cases h with
  | program htype | body htype => rw [htype]; rfl

/-- What a block binds. -/
theorem isSome_scopeBinding?_of_isBlock (h : (t.type n).isBlock = true) :
    (t.scopeBinding? name n).isSome = true ↔
      (t.blockBinding? name n).isSome = true ∨ (t.hoistedBinding? name n).isSome = true := by
  rw [scopeBinding?, if_pos h, Option.isSome_or, Bool.or_eq_true_iff]

/-- What a function binds. -/
theorem isSome_scopeBinding?_of_function (h : t.type n ∈ functionTypes) :
    (t.scopeBinding? name n).isSome = true ↔
      (t.parametersBinding? name n).isSome = true ∨ (t.ownNameBinding? name n).isSome = true := by
  have hblock := isBlock_eq_false_of_mem h
  rw [scopeBinding?, if_neg (by simp [hblock]), if_pos (isScope_iff.mpr h), Option.isSome_or,
    Bool.or_eq_true_iff]

/-- **A node binds exactly the names that it declares.** -/
theorem isSome_scopeBinding?_iff :
    (t.scopeBinding? name n).isSome = true ↔ t.Declares n name := by
  constructor
  · intro h
    -- no function is a block, so it does not matter which is asked for first
    by_cases hblock : (t.type n).isBlock = true
    · rcases (isSome_scopeBinding?_of_isBlock hblock).mp h with h | h
      · obtain ⟨s, hs, hfound⟩ := List.findSome?_isSome_iff.mp h
        obtain ⟨d, hd, hname⟩ := isSome_statementBinding?_iff.mp hfound
        exact .statement (isBlock_iff.mp hblock) hs hd hname
      · obtain ⟨hbody, d, hd, htype, hname⟩ := isSome_hoistedBinding?_iff.mp h
        exact .hoisted hbody hd htype hname
    by_cases hscope : (t.type n).isScope = true
    · have hfunction := isScope_iff.mp hscope
      rcases (isSome_scopeBinding?_of_function hfunction).mp h with h | h
      · exact .parameter hfunction (isSome_parametersBinding?_iff.mp h)
      · obtain ⟨hnamed, hexpression, k, hk, htext⟩ := isSome_ownNameBinding?_iff.mp h
        exact .ownName hnamed hexpression hk htext
    · simp [scopeBinding?, hblock, hscope] at h
  · intro h
    cases h with
    | @statement s d hblock hs hd hname =>
      refine (isSome_scopeBinding?_of_isBlock (isBlock_iff.mpr hblock)).mpr (.inl ?_)
      exact List.findSome?_isSome_iff.mpr ⟨s, hs, isSome_statementBinding?_iff.mpr ⟨d, hd, hname⟩⟩
    | @hoisted d hbody hd htype hname =>
      refine (isSome_scopeBinding?_of_isBlock (isBlock_of_isFunctionBody hbody)).mpr (.inr ?_)
      exact isSome_hoistedBinding?_iff.mpr ⟨hbody, d, hd, htype, hname⟩
    | parameter hfunction hname =>
      refine (isSome_scopeBinding?_of_function hfunction).mpr (.inl ?_)
      exact isSome_parametersBinding?_iff.mpr hname
    | @ownName k hnamed hexpression hk htext =>
      have hfunction := mem_functionTypes_of_expression hexpression
      refine (isSome_scopeBinding?_of_function hfunction).mpr (.inr ?_)
      exact isSome_ownNameBinding?_iff.mpr ⟨hnamed, hexpression, k, hk, htext⟩

end Searches

/-! ## Lookup -/

/-- The node `a` is the innermost of the nodes that enclose `n` and declare its name. -/
structure IsScopeOf (t : Tree) (a n : Nat) : Prop where
  /-- It encloses the node. -/
  mem_ancestors : a ∈ t.ancestors n
  /-- It declares the name. -/
  declares : t.Declares a (t.text n)
  /-- It is inside all others that do. -/
  innermost : ∀ a' ∈ t.ancestors n, t.Declares a' (t.text n) → t.Encloses a' a

section Lookup
variable {t : Tree} {n a : Nat}

/-- What follows a node among the ancestors of another one are its own ancestors. -/
theorem ancestors_eq_of_append {inner outer : List Nat}
    (h : t.ancestors n = inner ++ a :: outer) : t.ancestors a = outer := by
  induction inner generalizing n with
  | nil =>
    cases hp : t.parent? n with
    | none => rw [ancestors_eq_nil hp] at h; cases h
    | some p =>
      rw [ancestors_of_parent? hp] at h
      cases h
      rfl
  | cons b inner ih =>
    cases hp : t.parent? n with
    | none => rw [ancestors_eq_nil hp] at h; cases h
    | some p =>
      rw [ancestors_of_parent? hp] at h
      exact ih (List.cons.inj h).2

/-- **Lookup is lexical scoping.**  It finds a place exactly if a node that encloses the use
declares the name, and the place lies in the innermost such node. -/
theorem lookup_is_lexical (t : Tree) (n : Nat) :
    ((t.binding? n).isSome = true ↔ ∃ a ∈ t.ancestors n, t.Declares a (t.text n)) ∧
      ∀ b, t.binding? n = some b → ∃ a, t.IsScopeOf a n ∧ t.Encloses a b := by
  refine ⟨?_, fun b hb => ?_⟩
  · simp only [binding?, List.findSome?_isSome_iff, isSome_scopeBinding?_iff]
  · obtain ⟨inner, a, outer, hsplit, hfound, hinner⟩ := List.findSome?_eq_some_iff.mp hb
    have hdeclares : t.Declares a (t.text n) :=
      isSome_scopeBinding?_iff.mp (by rw [hfound]; rfl)
    refine ⟨a, ⟨?_, hdeclares, fun a' ha' hdeclares' => ?_⟩, encloses_scopeBinding? hfound⟩
    · rw [hsplit]
      exact List.mem_append_right _ (List.mem_cons_self ..)
    · -- the nodes inside `a` declare nothing, the others enclose it
      rw [hsplit] at ha'
      rcases List.mem_append.mp ha' with hin | hout
      · have hsome := isSome_scopeBinding?_iff.mpr hdeclares'
        rw [hinner a' hin] at hsome
        cases hsome
      · rw [Encloses, ancestors_eq_of_append hsplit]
        exact hout

end Lookup

end ComponentScan.Tree
