import ComponentScan.Origin
import ComponentScan.Proofs.Binding.Scoping

/-! # Names taken out of an object

An element of an object pattern takes an entry out of an object and gives it to a variable:
`{x}` and `{x = d}` under the name of the variable, `{k: x}` and `{k: x = d}` under the key
`k` (`TakesOut`).  A default says what the variable is if there is no such entry.  It does not
change what the entry is called.

What the variable is called in the object is read off the place that the lookup returns.
However deep the pattern is nested, that is the place at which its innermost element binds
the variable (`BindsThrough.patternBinding?_eq`).  For `{k: x}` it is the element, which has
the key.  For `{k: x = d}` the search goes on into the default and returns the variable, from
which no key can be read off: this is the one form of which the name is lost
(`exported_name_is_key_iff`).
-/
namespace ComponentScan.Tree

/-- The element `e` of an object pattern gives the entry `key` of the object to a variable. -/
inductive TakesOut (t : Tree) (e : Nat) : String → Prop
  /-- `{x}` -/
  | shorthand : t.type e = .shorthandPropertyIdentifierPattern → TakesOut t e (t.text e)
  /-- `{x = d}` -/
  | shorthandDefault {x : Nat} : t.type e = .objectAssignmentPattern →
      t.child? e .left = some x → t.type x = .shorthandPropertyIdentifierPattern →
      TakesOut t e (t.text x)
  /-- `{k: x}` -/
  | renamed {k x : Nat} {key : String} : t.type e = .pairPattern → t.child? e .key = some k →
      t.keyName? k = some key → t.child? e .value = some x → t.type x = .identifier →
      TakesOut t e key
  /-- `{k: x = d}` -/
  | renamedDefault {k v x : Nat} {key : String} : t.type e = .pairPattern →
      t.child? e .key = some k → t.keyName? k = some key → t.child? e .value = some v →
      t.type v = .assignmentPattern → t.child? v .left = some x → t.type x = .identifier →
      TakesOut t e key

/-- The element has the form `{k: x = d}`. -/
def RenamesWithDefault (t : Tree) (e : Nat) : Prop :=
  t.type e = .pairPattern ∧ ∃ v, t.child? e .value = some v ∧ t.type v = .assignmentPattern

/-- A binding target binds a name by its part `e`: of several elements that bind the name the
first one counts. -/
inductive BindsThrough (t : Tree) (name : String) : Nat → Nat → Prop
  | self {e : Nat} : t.Binds e name → BindsThrough t name e e
  /-- The value of an element is a pattern again. -/
  | value {n v e : Nat} : t.type n = .pairPattern → t.child? n .value = some v →
      t.type v ≠ .identifier → BindsThrough t name v e → BindsThrough t name n e
  /-- The pattern has a default. -/
  | default {n left e : Nat} :
      t.type n = .assignmentPattern ∨ t.type n = .objectAssignmentPattern →
      t.child? n .left = some left → BindsThrough t name left e → BindsThrough t name n e
  /-- The pattern has elements. -/
  | element {n c e : Nat} {before after : List Nat} :
      t.type n = .objectPattern ∨ t.type n = .arrayPattern ∨ t.type n = .restPattern →
      t.contents n = before ++ c :: after → (∀ b ∈ before, ¬ t.Binds b name) →
      BindsThrough t name c e → BindsThrough t name n e

/-- The lookup of the variable `u` ends in a pattern, which binds the name by its part `e`. -/
def BoundThrough (t : Tree) (u e : Nat) : Prop :=
  ∃ p, t.binding? u = t.patternBinding? (t.text u) p ∧ t.BindsThrough (t.text u) p e

section Elements
variable {t : Tree} {name key : String} {u p e b : Nat}

theorem patternBinding?_eq_none_iff : t.patternBinding? name b = none ↔ ¬ t.Binds b name := by
  rw [← isSome_patternBinding?_iff, Bool.not_eq_true, Option.isSome_eq_false_iff,
    Option.isNone_iff_eq_none]

/-- Nothing is found in a pattern but what its part binds the name to. -/
theorem BindsThrough.patternBinding?_eq (h : t.BindsThrough name p e) :
    ∃ b, t.patternBinding? name p = some b ∧ t.patternBinding? name e = some b := by
  induction h with
  | self hbinds =>
    obtain ⟨b, hb⟩ := Option.isSome_iff_exists.mp (isSome_patternBinding?_iff.mpr hbinds)
    exact ⟨b, hb, hb⟩
  | value htype hvalue hpattern _ ih =>
    obtain ⟨b, hv, he⟩ := ih
    refine ⟨b, ?_, he⟩
    rw [Tree.patternBinding?_eq, htype]
    simp only [hvalue, Option.bind_some, if_neg hpattern, hv]
  | default htype hleft _ ih =>
    obtain ⟨b, hl, he⟩ := ih
    refine ⟨b, ?_, he⟩
    rw [Tree.patternBinding?_eq]
    rcases htype with htype | htype <;> simp only [htype, hleft, Option.bind_some, hl]
  | @element n c e before after htype hcontents hbefore _ ih =>
    obtain ⟨b, hc, he⟩ := ih
    have hfirst : (t.contents n).findSome? (t.patternBinding? name) = some b := by
      refine List.findSome?_eq_some_iff.mpr ⟨before, c, after, hcontents, hc, fun d hd => ?_⟩
      exact patternBinding?_eq_none_iff.mpr (hbefore d hd)
    refine ⟨b, ?_, he⟩
    rw [Tree.patternBinding?_eq]
    rcases htype with htype | htype | htype <;> simp only [htype, hfirst]

/-- What an element gives to a variable is called by the key, at the place where the variable
is bound; except with a default behind a key, where the place is a mere identifier. -/
theorem TakesOut.exportNameAt? (h : t.TakesOut e key) (hb : t.patternBinding? name e = some b) :
    t.RenamesWithDefault e ∧ t.exportNameAt? b = none ∨
      ¬ t.RenamesWithDefault e ∧ t.exportNameAt? b = some key := by
  rw [Tree.patternBinding?_eq] at hb
  cases h with
  | shorthand htype =>
    simp only [htype, Option.ite_none_right_eq_some, Option.some.injEq] at hb
    obtain ⟨-, rfl⟩ := hb
    exact .inr ⟨by simp [RenamesWithDefault, htype], by simp [Tree.exportNameAt?, htype]⟩
  | @shorthandDefault x htype hleft hx =>
    have hplace : t.patternBinding? name x = some b := by simpa [htype, hleft] using hb
    rw [Tree.patternBinding?_eq, hx] at hplace
    simp only [Option.ite_none_right_eq_some, Option.some.injEq] at hplace
    obtain ⟨-, rfl⟩ := hplace
    exact .inr ⟨by simp [RenamesWithDefault, htype], by simp [Tree.exportNameAt?, hx]⟩
  | renamed htype hk hkey hvalue hx =>
    simp only [htype, hvalue, hx, Option.bind_some, if_true, Option.ite_none_right_eq_some,
      Option.some.injEq] at hb
    obtain ⟨-, rfl⟩ := hb
    exact .inr ⟨by simp [RenamesWithDefault, hvalue, hx],
      by simp [Tree.exportNameAt?, htype, hk, hkey]⟩
  | @renamedDefault k v x key htype _ _ hvalue hv hleft hx =>
    -- the search goes on into the value, and from there to the variable
    have hplace : t.patternBinding? name v = some b := by simpa [htype, hvalue, hv] using hb
    rw [Tree.patternBinding?_eq, hv] at hplace
    simp only [hleft, Option.bind_some, patternBinding?_of_identifier hx,
      Option.ite_none_right_eq_some, Option.some.injEq] at hplace
    obtain ⟨-, rfl⟩ := hplace
    exact .inl ⟨⟨htype, v, hvalue, hv⟩, by simp [Tree.exportNameAt?, hx]⟩

theorem exportName?_of_identifier (hu : t.construct u = .identifier) :
    t.exportName? u = (t.binding? u).bind t.exportNameAt? := by
  simp [exportName?, unwrap_of_construct (show t.construct u ≠ .other by simp [hu]), hu]

end Elements

/-- **When a variable is known by the key that it was taken out under.**  Let the lookup of a
variable end in a pattern, nested to any depth, at an element that gives the entry `key` of an
object to it.  The name that the variable has in the object is found to be `key` exactly if
the element is not of the form `{k: x = d}`; of that form no name is found. -/
theorem exported_name_is_key_iff {t : Tree} {u e : Nat} {key : String}
    (hu : t.construct u = .identifier) (hbound : t.BoundThrough u e)
    (htakes : t.TakesOut e key) :
    (t.exportName? u = some key ↔ ¬ t.RenamesWithDefault e) ∧
      (t.RenamesWithDefault e → t.exportName? u = none) := by
  obtain ⟨p, hp, hthrough⟩ := hbound
  obtain ⟨b, hpb, heb⟩ := hthrough.patternBinding?_eq
  rw [exportName?_of_identifier hu, hp, hpb, Option.bind_some]
  rcases htakes.exportNameAt? heb with ⟨hdefault, hname⟩ | ⟨hplain, hname⟩
  · simp [hdefault, hname]
  · simp [hplain, hname]

/-- The tree of `var {a:{k:x}}=o;x`. -/
def nestedElement : Tree :=
  Table.toTree {
    source := Utf8.encode "var \x7ba:\x7bk:x\x7d\x7d=o;x"
    nodes := #[
      ⟨.program, none, 0, 17, none, true⟩,
      ⟨.variableDeclaration, some 0, 0, 16, none, true⟩,
      ⟨.variableDeclarator, some 1, 4, 15, none, true⟩,
      ⟨.objectPattern, some 2, 4, 13, some .name, true⟩,
      ⟨.pairPattern, some 3, 5, 12, none, true⟩,
      ⟨.propertyIdentifier, some 4, 5, 6, some .key, true⟩,
      ⟨.objectPattern, some 4, 7, 12, some .value, true⟩,
      ⟨.pairPattern, some 6, 8, 11, none, true⟩,
      ⟨.propertyIdentifier, some 7, 8, 9, some .key, true⟩,
      ⟨.identifier, some 7, 10, 11, some .value, true⟩,
      ⟨.identifier, some 2, 14, 15, some .value, true⟩,
      ⟨.expressionStatement, some 0, 16, 17, none, true⟩,
      ⟨.identifier, some 11, 16, 17, none, true⟩]
    nonempty := by decide
    ordered := by decide }

/-- Inside two patterns the variable is known by the inner key. -/
theorem nested_element_gives_inner_key : nestedElement.exportName? 12 = some "k" := by
  have houter : nestedElement.contents 3 = [] ++ 4 :: [] := by decide +kernel
  have hpattern : nestedElement.child? 4 .value = some 6 := by decide +kernel
  have hinner : nestedElement.contents 6 = [] ++ 7 :: [] := by decide +kernel
  have hvalue : nestedElement.child? 7 .value = some 9 := by decide +kernel
  have hkey : nestedElement.child? 7 .key = some 8 := by decide +kernel
  have hbinds : nestedElement.Binds 7 (nestedElement.text 12) := by
    rw [show nestedElement.text 12 = nestedElement.text 9 by decide +kernel]
    exact .pair (by decide +kernel) hvalue (.leaf (by decide +kernel))
  have hthrough : nestedElement.BindsThrough (nestedElement.text 12) 3 7 :=
    .element (by decide +kernel) houter (by simp) <|
      .value (by decide +kernel) hpattern (by decide +kernel) <|
        .element (by decide +kernel) hinner (by simp) (.self hbinds)
  have htakes : nestedElement.TakesOut 7 "k" :=
    .renamed (by decide +kernel) hkey (by decide +kernel) hvalue (by decide +kernel)
  refine (exported_name_is_key_iff (by decide +kernel) ⟨3, by decide +kernel, hthrough⟩
    htakes).1.mpr ?_
  rintro ⟨-, v, hv, htype⟩
  cases hvalue.symm.trans hv
  exact absurd htype (by decide +kernel)

/-- The tree of `var {k:x=1}=o;x`. -/
def defaultedElement : Tree :=
  Table.toTree {
    source := Utf8.encode "var \x7bk:x=1\x7d=o;x"
    nodes := #[
      ⟨.program, none, 0, 15, none, true⟩,
      ⟨.variableDeclaration, some 0, 0, 14, none, true⟩,
      ⟨.variableDeclarator, some 1, 4, 13, none, true⟩,
      ⟨.objectPattern, some 2, 4, 11, some .name, true⟩,
      ⟨.pairPattern, some 3, 5, 10, none, true⟩,
      ⟨.propertyIdentifier, some 4, 5, 6, some .key, true⟩,
      ⟨.assignmentPattern, some 4, 7, 10, some .value, true⟩,
      ⟨.identifier, some 6, 7, 8, some .left, true⟩,
      ⟨.number, some 6, 9, 10, some .right, true⟩,
      ⟨.identifier, some 2, 12, 13, some .value, true⟩,
      ⟨.expressionStatement, some 0, 14, 15, none, true⟩,
      ⟨.identifier, some 10, 14, 15, none, true⟩]
    nonempty := by decide
    ordered := by decide }

/-- With a default behind the key, the variable is not known by the key. -/
theorem default_hides_the_key : defaultedElement.construct 11 = .identifier ∧
    defaultedElement.BoundThrough 11 4 ∧ defaultedElement.TakesOut 4 "k" ∧
    4 ∈ defaultedElement.contents 3 ∧ defaultedElement.type 3 = .objectPattern ∧
    defaultedElement.exportName? 11 = none := by
  have hcontents : defaultedElement.contents 3 = [] ++ 4 :: [] := by decide +kernel
  have hvalue : defaultedElement.child? 4 .value = some 6 := by decide +kernel
  have hleft : defaultedElement.child? 6 .left = some 7 := by decide +kernel
  have hkey : defaultedElement.child? 4 .key = some 5 := by decide +kernel
  have hbinds : defaultedElement.Binds 4 (defaultedElement.text 11) := by
    rw [show defaultedElement.text 11 = defaultedElement.text 7 by decide +kernel]
    exact .pair (by decide +kernel) hvalue
      (.default (by decide +kernel) hleft (.leaf (by decide +kernel)))
  have hthrough : defaultedElement.BindsThrough (defaultedElement.text 11) 3 4 :=
    .element (by decide +kernel) hcontents (by simp) (.self hbinds)
  have htakes : defaultedElement.TakesOut 4 "k" :=
    .renamedDefault (by decide +kernel) hkey (by decide +kernel) hvalue (by decide +kernel) hleft
      (by decide +kernel)
  exact ⟨by decide +kernel, ⟨3, by decide +kernel, hthrough⟩, htakes, by decide +kernel,
    by decide +kernel, by decide +kernel⟩

end ComponentScan.Tree
