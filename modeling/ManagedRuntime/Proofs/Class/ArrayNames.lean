import ManagedRuntime.Proofs.Class.Names

/-!
Names of array classes: brackets, and then the name of an element class between `L` and `;` or the
letter of a primitive type. Main statement: the class that is made for such a name bears it, and
belongs to the loader that the element belongs to.
-/
namespace ManagedRuntime.Registry
variable {r r' : Registry} {name element : String} {loader : Reference} {a c e : ClassId}

theorem toList_eq_brackets (name : String) :
    name.toList = List.replicate (brackets name) '[' ++ name.toList.drop (brackets name) := by
  have front : name.toList.takeWhile (· = '[') = List.replicate (brackets name) '[' := by
    refine List.eq_replicate_iff.mpr ⟨rfl, fun c member => ?_⟩
    have all := List.all_takeWhile (p := (· = '[')) (l := name.toList)
    simpa using List.all_eq_true.mp all c member
  have split := List.takeWhile_append_dropWhile (p := (· = '[')) (l := name.toList)
  have back : name.toList.drop (brackets name) = name.toList.dropWhile (· = '[') := by
    rw [← congrArg (List.drop (brackets name)) split]
    exact List.drop_left
  rw [back, ← front, split]

theorem objectName?_eq_some {cs element : List Char} :
    objectName? cs = some element ↔ cs = 'L' :: (element ++ [';']) := by
  constructor
  · intro found
    unfold objectName? at found
    split at found
    · split at found
      · rename_i last
        cases found
        obtain ⟨front, chars⟩ := List.getLast?_eq_some_iff.mp last
        rw [chars, List.dropLast_concat]
      · cases found
    · cases found
  · rintro rfl
    simp [objectName?]

def elementName? (name : String) : Option String :=
  (objectName? (name.toList.drop (brackets name))).map String.ofList

/-- The class `c` is what the loader has defined under this name, or else what the bootstrap loader
has. -/
def Visible (r : Registry) (name : String) (loader : Reference) (c : ClassId) : Prop :=
  r.Known name loader c ∨ (∀ d, ¬ r.Known name loader d) ∧ r.Known name none c

theorem Keyed.findVisible?_iff (keyed : r.Keyed) :
    r.findVisible? name loader = some c ↔ r.Visible name loader c := by
  have none : r.find? name loader = none ↔ ∀ d, ¬ r.Known name loader d := by
    refine ⟨fun new d => unknown_of_find? new, fun unknown => ?_⟩
    exact Option.eq_none_iff_forall_ne_some.mpr fun d found => unknown d (find?_known found)
  unfold findVisible? Visible
  rw [← keyed.find?_iff, ← keyed.find?_iff, ← none]
  cases r.find? name loader <;> simp

theorem Keyed.ordinary_of_plain (keyed : r.Keyed) (known : r.Known name loader c)
    (plain : isArrayName name = false) : (r.cls c).kind = .ordinary := by
  cases kind : (r.cls c).kind with
  | ordinary => rfl
  | primitive p =>
    have reference := known.notPrimitive
    rw [Class.isPrimitive, kind] at reference
    cases reference
  | array e n =>
    have bracket := isArrayName_arrayName (r.cls e)
    rw [← (keyed.array c e n kind).1, known.name, plain] at bracket
    cases bracket

theorem Built.later_empty (built : r.Built) : Later Registry.empty r := by
  refine built.invariant (.refl _) ?_ ?_ ?_
  · exact fun r c _ later _ _ => later.trans (.add _)
  · exact fun r x _ later _ _ _ _ => later.trans (.add x)
  · exact fun r c f later => later.trans (.modifyState c f)

theorem Built.cls_primitive (built : r.Built) (p : Primitive) :
    r.cls (primitive p) = primitiveClass p := by
  have first : Registry.empty.cls (primitive p) = primitiveClass p := by cases p <;> rfl
  have there : (primitive p).index < Registry.empty.loaded.size := by
    cases p <;> decide
  rw [built.later_empty.cls _ there, first]

theorem Built.element?_cases (built : r.Built) {cs : List Char}
    (found : r.element? cs loader = some e) :
    objectName? cs = none ∧ (r.cls e).signature = cs ∧ (r.cls e).loader = none ∨
      ∃ chars, objectName? cs = some chars ∧ r.Visible (String.ofList chars) loader e := by
  unfold element? at found
  split at found
  · cases found
  · rename_i chars _ object
    exact .inr ⟨chars, object, built.keyed.findVisible?_iff.mp found⟩
  · rename_i object
    refine .inl ⟨object, ?_⟩
    split at found
    · rename_i letter
      split at found
      · cases found
      · cases found
      · rename_i p _ parsed
        cases found
        rw [built.cls_primitive p, ← Primitive.letter_of_ofLetter? parsed]
        exact ⟨rfl, rfl⟩
    · cases found

theorem ArrayOver.called {n : Nat} (keyed : r.Keyed) (spans : r.ArrayOver n a e)
    (positive : n ≠ 0) :
    r.Resolved a ∧
      (r.cls a).name.toList = List.replicate n '[' ++ (r.cls e).signature := by
  have signature := spans.signature keyed
  cases n with
  | zero => exact absurd rfl positive
  | succ n =>
    obtain ⟨b, component, -⟩ := spans
    obtain ⟨m, kind⟩ := Class.component?_eq_some.mp component
    refine ⟨resolved_of_isArray (Class.isArray_iff.mpr ⟨b, component⟩), ?_⟩
    rw [← signature, Class.signature, kind]

/-- Class `a` of the second registry is the array class of this name over what the loader sees in
the first. -/
inductive Arrays (r : Registry) (name : String) (loader : Reference) (a : ClassId)
    (r' : Registry) : Prop
  | primitive (named : elementName? name = none) (known : r'.Known name none a)
  | own {element : String} {e : ClassId} (named : elementName? name = some element)
      (component : r.Known element loader e) (known : r'.Known name loader a)
  | boot {element : String} {e : ClassId} (named : elementName? name = some element)
      (unseen : ∀ d, ¬ r.Known element loader d) (component : r.Known element none e)
      (known : r'.Known name none a)

theorem Built.arrayClass_arrays (built : r.Built)
    (plain : ∀ element, elementName? name = some element → isArrayName element = false)
    (made : r.arrayClass name loader = (some a, r')) :
    r'.Built ∧ Later r r' ∧ Arrays r name loader a r' := by
  have keyed := built.keyed
  have text := toList_eq_brackets name
  unfold Registry.arrayClass at made
  dsimp only at made
  split at made
  · cases made
  rename_i dims
  split at made
  · cases made
  rename_i e found
  cases made
  obtain ⟨built', later, spans⟩ :=
    built.arrayOfTimes (brackets name) (element?_lt built.ordered.primitives found)
  refine ⟨built', later, ?_⟩
  have there := element?_lt built.ordered.primitives found
  obtain ⟨resolved, chars⟩ := spans.called built'.keyed fun none => dims (.inl none)
  have belongs := spans.loader built'.keyed
  rw [later.cls e there] at chars belongs
  -- the name is right if the rest of it is the signature of the element
  have called (signature : (r.cls e).signature = name.toList.drop (brackets name)) :
      (Registry.arrayOfTimes (brackets name) e r).2.Known name (r.cls e).loader
        (Registry.arrayOfTimes (brackets name) e r).1 := by
    rw [signature, ← text] at chars
    exact ⟨resolved, String.toList_inj.mp chars, belongs⟩
  rcases built.element?_cases found with ⟨object, signature, boot⟩ | ⟨chars, object, visible⟩
  · have named : elementName? name = none := by rw [elementName?, object]; rfl
    have known := called signature
    rw [boot] at known
    exact .primitive named known
  · have named : elementName? name = some (String.ofList chars) := by rw [elementName?, object]; rfl
    have known {l : Reference} (component : r.Known (String.ofList chars) l e) :
        (Registry.arrayOfTimes (brackets name) e r).2.Known name l
          (Registry.arrayOfTimes (brackets name) e r).1 := by
      rw [← component.loader]
      refine called ?_
      rw [Class.signature, keyed.ordinary_of_plain component (plain _ named), component.name,
        String.toList_ofList, objectName?_eq_some.mp object]
    rcases visible with own | ⟨unseen, bootstrap⟩
    · exact .own named own (known own)
    · exact .boot named unseen bootstrap (known bootstrap)

end ManagedRuntime.Registry
