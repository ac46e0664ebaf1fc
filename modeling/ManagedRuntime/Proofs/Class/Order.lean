import ManagedRuntime.Proofs.Class.ByName
import ManagedRuntime.Proofs.Class.Hierarchy
import ManagedRuntime.Proofs.Class.Tiling

/-!
Assignability as an order, and types by name in one namespace. Main statements: where the hierarchy
has one root, assignability is reflexive and transitive; where moreover the bootstrap loader has
defined every class, the types that a class has by name are the classes that it is assignable to.
-/
namespace ManagedRuntime

theorem Registry.Keyed.componentName?_arrayName {r : Registry} (keyed : r.Keyed) (c : ClassId) :
    componentName? (r.cls c).arrayName =
      if (r.cls c).isPrimitive then none else some (r.cls c).name := by
  unfold componentName?
  rw [Class.toList_arrayName, Class.signature, Class.isPrimitive]
  cases kind : (r.cls c).kind with
  | primitive p => cases p <;> rfl
  | array e n =>
    obtain ⟨name, -, -⟩ := keyed.array c e n kind
    obtain ⟨cs, chars⟩ := isArrayName_iff.mp (isArrayName_arrayName (r.cls e))
    rw [← name] at chars
    simp only [chars, Bool.false_eq_true, if_false]
    rw [← chars, String.ofList_toList]
  | ordinary =>
    show (objectName? ('L' :: ((r.cls c).name.toList ++ [';']))).map String.ofList = _
    rw [objectName?_eq_some.mpr rfl, Option.map_some, String.ofList_toList]
    rfl

theorem Registry.componentName?_of_plain {name : String} (plain : isArrayName name = false) :
    componentName? name = none := by
  have other (cs : List Char) : name.toList ≠ '[' :: cs := fun bracket => by
    rw [isArrayName_iff.mpr ⟨cs, bracket⟩] at plain
    cases plain
  unfold componentName?
  split
  · rename_i cs chars
    exact absurd chars (other _)
  · rename_i cs _ chars
    exact absurd chars (other cs)
  · rfl

namespace Registry
variable {r : Registry} {root c t d e : ClassId} {name : String}

section rooted
variable (built : r.Built) (rooted : r.Rooted root)
include built rooted

/-- In a hierarchy with one root assignability is reflexive and transitive, between classes of all
kinds and of any loaders. -/
theorem Rooted.assignable_preorder : IsPreorder ClassId (r.assignable · · = true) where
  refl := assignable_self
  trans _ _ _ := rooted.assignable_trans built

theorem Rooted.above_ordinary (resolved : r.Resolved c) (above : r.Above c d) :
    (r.cls d).kind = .ordinary := by
  have formed := built.formed resolved.there
  rcases above with superclass | interface
  · cases kind : (r.cls c).kind with
    | ordinary => exact (built.stored resolved.there kind).above d superclass
    | primitive p =>
      have reference := resolved.notPrimitive
      rw [Class.isPrimitive, kind] at reference
      cases reference
    | array e n =>
      rw [rooted.array_superclass built resolved (by rw [Class.isArray, kind])] at superclass
      cases superclass
      exact built.keyed.ordinary_of_plain (find?_known rooted.isRoot) (by decide)
  · have declared := rooted.declared c resolved d interface
    have reference := (formed.beside d interface).notPrimitive
    cases kind : (r.cls d).kind with
    | ordinary => rfl
    | primitive p =>
      rw [Class.isPrimitive, kind] at reference
      cases reference
    | array e n =>
      rw [built.array_notInterface (by rw [Class.isArray, kind])] at declared
      cases declared

theorem Rooted.below_ordinary (resolved : r.Resolved c) (below : r.Below c d) (other : c ≠ d) :
    (r.cls d).kind = .ordinary := by
  rcases below.cases_tail with same | ⟨b, below, above⟩
  · exact absurd same.symm other
  · exact rooted.above_ordinary built (built.below_resolved resolved below) above

theorem Rooted.namedAs_ordinary (resolved : r.Resolved c) (ordinary : (r.cls c).kind = .ordinary)
    (named : r.NamedAs c name) : ∃ d, r.Below c d ∧ (r.cls d).name = name := by
  induction named with
  | here same => exact ⟨_, .refl, same⟩
  | component array =>
    rw [Class.component?, ordinary] at array
    cases array
  | @superclass c s _ above _ ih =>
    have above : r.Above c s := .inl above
    obtain ⟨d, below, same⟩ := ih (built.above_resolved above)
      (rooted.above_ordinary built resolved above)
    exact ⟨d, .head above below, same⟩
  | @interface c i _ above _ ih =>
    have above : r.Above c i := .inr above
    obtain ⟨d, below, same⟩ := ih (built.above_resolved above)
      (rooted.above_ordinary built resolved above)
    exact ⟨d, .head above below, same⟩

omit built rooted in
theorem Below.namedAs (below : r.Below c d) (same : (r.cls d).name = name) : r.NamedAs c name := by
  induction below using Relation.ReflTransGen.head_induction_on with
  | refl => exact .here same
  | head above _ ih =>
    rcases above with superclass | interface
    · exact .superclass superclass ih
    · exact .interface interface ih

/-- An array class has a type by name if a class above it is called so or its component has the type
with one dimension less. -/
theorem Rooted.namedAs_iff (resolved : r.Resolved c) :
    r.NamedAs c name ↔ (∃ d, r.Below c d ∧ (r.cls d).name = name) ∨
      ∃ e element, (r.cls c).component? = some e ∧ (r.cls e).isPrimitive = false ∧
        componentName? name = some element ∧ r.NamedAs e element := by
  have upward {d : ClassId} (above : r.Above c d) (named : r.NamedAs d name) :
      ∃ d, r.Below c d ∧ (r.cls d).name = name := by
    obtain ⟨b, below, same⟩ := rooted.namedAs_ordinary built (built.above_resolved above)
      (rooted.above_ordinary built resolved above) named
    exact ⟨b, .head above below, same⟩
  constructor
  · intro named
    cases named with
    | here same => exact .inl ⟨c, .refl, same⟩
    | component array reference text named => exact .inr ⟨_, _, array, reference, text, named⟩
    | superclass above named => exact .inl (upward (.inl above) named)
    | interface above named => exact .inl (upward (.inr above) named)
  · rintro (⟨d, below, same⟩ | ⟨e, element, array, reference, text, named⟩)
    · exact below.namedAs same
    · exact .component array reference text named

/-! One namespace. -/

def Unlayered (r : Registry) : Prop := ∀ c, r.Resolved c → (r.cls c).loader = none

variable (unlayered : r.Unlayered)
include unlayered

omit rooted in
theorem Unlayered.eq_of_name (first : r.Resolved c) (second : r.Resolved d)
    (same : (r.cls c).name = (r.cls d).name) : c = d :=
  built.keyed.unique c d first second same
    ((unlayered c first).trans (unlayered d second).symm)

omit rooted in
theorem Unlayered.below_named_iff (here : r.Resolved c) (there : r.Resolved t) :
    (∃ d, r.Below c d ∧ (r.cls d).name = (r.cls t).name) ↔ r.Below c t := by
  constructor
  · rintro ⟨d, below, same⟩
    rw [← unlayered.eq_of_name built (built.below_resolved here below) there same]
    exact below
  · exact fun below => ⟨t, below, rfl⟩

theorem Unlayered.namedAs_ordinary_iff (here : r.Resolved c) (there : r.Resolved t)
    (ordinary : (r.cls t).kind = .ordinary) :
    r.NamedAs c (r.cls t).name ↔ r.assignable c t = true := by
  have plain := built.keyed.ordinary t there.there ordinary
  rw [rooted.namedAs_iff built here, unlayered.below_named_iff built here there,
    componentName?_of_plain plain,
    rooted.assignable_ordinary_iff built here.notPrimitive there.there ordinary]
  simp

/-- The walk by name takes a dimension off the name where assignability goes to the component. -/
theorem Unlayered.namedAs_iff_assignable (here : r.Resolved c) (there : r.Resolved t) :
    r.NamedAs c (r.cls t).name ↔ r.assignable c t = true := by
  -- on the number of the target: a component has a smaller one than its array
  induction k : t.index using Nat.strongRecOn generalizing c t with
  | ind k ih =>
  subst k
  cases kind : (r.cls t).kind with
  | primitive p =>
    have reference := there.notPrimitive
    rw [Class.isPrimitive, kind] at reference
    cases reference
  | ordinary => exact unlayered.namedAs_ordinary_iff built rooted here there kind
  | array f n =>
    have component : (r.cls t).component? = some f := Class.component?_eq_some.mpr ⟨n, kind⟩
    have less := built.ordered.component_lt component
    have inside {c e : ClassId} (resolved : r.Resolved c) (array : (r.cls c).component? = some e)
        (reference : (r.cls e).isPrimitive = false) : r.Resolved e :=
      ⟨Nat.lt_trans (built.ordered.component_lt array) resolved.there, reference⟩
    have self : r.Below c t ↔ c = t := by
      refine ⟨fun below => ?_, fun same => same ▸ .refl⟩
      by_contra other
      have ordinary := rooted.below_ordinary built here below other
      rw [kind] at ordinary
      cases ordinary
    rw [rooted.namedAs_iff built here, unlayered.below_named_iff built here there, self,
      assignable_array_iff built.ordered component, (built.keyed.array t f n kind).1,
      built.keyed.componentName?_arrayName]
    refine or_congr_right (exists_congr fun e => ?_)
    constructor
    · rintro ⟨element, array, reference, text, named⟩
      split at text
      · cases text
      · rename_i reference'
        rw [Bool.not_eq_true] at reference'
        cases text
        exact ⟨array, reference, reference',
          (ih f.index less (inside here array reference) (inside there component reference') rfl).mp
            named⟩
    · rintro ⟨array, reference, reference', below⟩
      refine ⟨(r.cls f).name, array, reference, by simp [reference'], ?_⟩
      exact (ih f.index less (inside here array reference) (inside there component reference')
        rfl).mpr below

/-- Where the bootstrap loader has defined every class, a class is assignable to another exactly if
it has a type of that name. -/
theorem Rooted.subtypeNamed_iff_assignable (here : r.Resolved c) (there : r.Resolved t) :
    r.subtypeNamed c (r.cls t).name = true ↔ r.assignable c t = true := by
  rw [subtypeNamed_iff built.ordered]
  exact unlayered.namedAs_iff_assignable built rooted here there

end rooted

/-! Shapes and their parts. -/

def shapeClasses (loader : Reference) : Registry :=
  let root := (empty.define (ClassDef.named rootName).root none).2
  let cloneable := (root.define (ClassDef.interfaceNamed cloneableName) none).2
  let serializable := (cloneable.define (ClassDef.interfaceNamed serializableName) none).2
  let shape := (serializable.define (ClassDef.interfaceNamed "t/Shape") loader).2
  let part := (shape.define ((ClassDef.named "t/Part").implementing "t/Shape") loader).2
  let arrays := ((part.arrayClass "[[Lt/Shape;" loader).2.arrayClass "[[Lt/Part;" loader).2
  (arrays.arrayClass "[Ljava/lang/Cloneable;" none).2

theorem built_shapeClasses (loader : Reference) : (shapeClasses loader).Built :=
  (((((((Built.empty.define _ _).define _ _).define _ _).define _ _).define _ _).arrayClass _ _
    ).arrayClass _ _).arrayClass _ _

theorem rooted_shapeClasses {loader : Reference} (given : loader = none ∨ loader = some ⟨0⟩) :
    (shapeClasses loader).Rooted ⟨9⟩ := by
  rcases given with rfl | rfl
  · exact rooted_of_each (by decide +kernel) (by decide +kernel)
  · exact rooted_of_each (by decide +kernel) (by decide +kernel)

theorem arrays_of_shapeClasses (loader : Reference) (given : loader = none ∨ loader = some ⟨0⟩) :
    let r := shapeClasses loader
    ((r.cls ⟨17⟩).name = "[[Lt/Part;" ∧ (r.cls ⟨15⟩).name = "[[Lt/Shape;" ∧
        (r.cls ⟨18⟩).name = "[Ljava/lang/Cloneable;") ∧
      ((r.cls ⟨17⟩).isArray = true ∧ (r.cls ⟨15⟩).isArray = true) ∧
      r.assignable ⟨17⟩ ⟨15⟩ = true ∧ r.assignable ⟨15⟩ ⟨18⟩ = true ∧
      r.assignable ⟨15⟩ ⟨17⟩ = false := by
  rcases given with rfl | rfl
  · decide +kernel
  · decide +kernel

/-- With shapes of another loader: arrays of arrays of parts are assignable to arrays of cloneable
objects, for arrays of arrays of shapes are. -/
theorem parts_assignable_as_shapes :
    let r := shapeClasses (some ⟨0⟩)
    r.Built ∧ r.Rooted ⟨9⟩ ∧ (r.cls ⟨17⟩).name = "[[Lt/Part;" ∧
      (r.cls ⟨15⟩).name = "[[Lt/Shape;" ∧ (r.cls ⟨18⟩).name = "[Ljava/lang/Cloneable;" ∧
      r.assignable ⟨17⟩ ⟨15⟩ = true ∧ r.assignable ⟨15⟩ ⟨18⟩ = true ∧
      r.assignable ⟨17⟩ ⟨18⟩ = true := by
  intro r
  have built : r.Built := built_shapeClasses _
  have rooted : r.Rooted ⟨9⟩ := rooted_shapeClasses (.inr rfl)
  obtain ⟨⟨parts, shapes, cloneables⟩, -, first, second, -⟩ :=
    arrays_of_shapeClasses (some ⟨0⟩) (.inr rfl)
  refine ⟨built, rooted, parts, shapes, cloneables, first, second, ?_⟩
  exact (rooted.assignable_preorder built).trans _ _ _ first second

theorem parts_named_as_shapes :
    let r := shapeClasses none
    r.Built ∧ r.Rooted ⟨9⟩ ∧ r.Unlayered ∧ r.Resolved ⟨17⟩ ∧ r.Resolved ⟨15⟩ ∧
      (r.cls ⟨17⟩).name = "[[Lt/Part;" ∧ r.subtypeNamed ⟨17⟩ "[[Lt/Shape;" = true ∧
      r.subtypeNamed ⟨15⟩ "[[Lt/Part;" = false := by
  intro r
  have built : r.Built := built_shapeClasses _
  have rooted : r.Rooted ⟨9⟩ := rooted_shapeClasses (.inl rfl)
  have unlayered : r.Unlayered := by
    have each : ∀ i < r.loaded.size, (r.cls ⟨i⟩).loader = none := by decide +kernel
    exact fun c resolved => each c.index resolved.there
  obtain ⟨⟨partName, shapeName, -⟩, ⟨parts, shapes⟩, below, -, above⟩ :=
    arrays_of_shapeClasses none (.inl rfl)
  have part : r.Resolved ⟨17⟩ := resolved_of_isArray parts
  have shape : r.Resolved ⟨15⟩ := resolved_of_isArray shapes
  refine ⟨built, rooted, unlayered, part, shape, partName, ?_, ?_⟩
  · rw [← shapeName]
    exact (rooted.subtypeNamed_iff_assignable built unlayered part shape).mpr below
  · rw [← partName]
    refine Bool.eq_false_iff.mpr fun named => ?_
    rw [rooted.subtypeNamed_iff_assignable built unlayered shape part] at named
    cases named.symm.trans above

end Registry
end ManagedRuntime
