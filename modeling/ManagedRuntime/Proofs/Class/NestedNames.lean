import ManagedRuntime.Proofs.Class.Hierarchy
import ManagedRuntime.Proofs.Class.NamesBack

/-!
What the names of array classes stand for, and what the array classes that are there already have to
do with it. Between `L` and `;` the registry takes any name of a class, that of an array class
included. Main statement: a name gives classes of that name alone, and gives them whatever array
classes have been made before, exactly if it does not have the name of an array class there.
-/
namespace ManagedRuntime.Registry
variable {r r' : Registry} {name element : String} {loader : Reference} {c e : ClassId} {n : Nat}

def outcome (found : Option ClassId × Registry) : Option (String × Reference) :=
  found.1.map fun c => ((found.2.cls c).name, (found.2.cls c).loader)

def SameDefined (r r' : Registry) : Prop :=
  ∀ name loader, isArrayName name = false →
    ((r.find? name loader).isSome ↔ (r'.find? name loader).isSome)

/-- In every registry with the same classes and interfaces the lookup has the same outcome, and what
it gives is called `name`. -/
def Steady (r : Registry) (name : String) (look : Registry → Option ClassId × Registry) : Prop :=
  ∀ r', r'.Built → SameDefined r r' → outcome (look r') = outcome (look r) ∧
    ∀ found ∈ outcome (look r'), found.1 = name

theorem SameDefined.refl (r : Registry) : SameDefined r r := fun _ _ _ => .rfl

theorem Widens.sameDefined (widens : Widens r r') : SameDefined r r' :=
  fun _ loader plain => by rw [widens.find? plain loader]

/-! The element of an array name. -/

/-- An array class is called by as many brackets as were asked for, and then by what stands for the
class that was found. -/
theorem Built.outcome_arrayClass (built : r.Built) (dims : brackets name ≠ 0)
    (fits : brackets name ≤ FieldType.maxDimensions) :
    outcome (r.arrayClass name loader) =
      (r.element? (name.toList.drop (brackets name)) loader).map fun e =>
        (String.ofList (List.replicate (brackets name) '[' ++ (r.cls e).signature),
          (r.cls e).loader) := by
  unfold Registry.arrayClass
  dsimp only
  rw [if_neg (by omega)]
  cases found : r.element? (name.toList.drop (brackets name)) loader with
  | none => rfl
  | some e =>
    have there := element?_lt built.ordered.primitives found
    obtain ⟨built', later, spans⟩ := built.arrayOfTimes (brackets name) there
    have called := (spans.called built'.keyed dims).2
    have belongs := spans.loader built'.keyed
    rw [later.cls e there] at called belongs
    simp only [outcome, Option.map_some]
    rw [← called, String.ofList_toList, belongs]

theorem outcome_arrayClass_out (out : brackets name = 0 ∨ brackets name > FieldType.maxDimensions) :
    outcome (r.arrayClass name loader) = none := by
  rw [arrayClass, if_pos out]
  rfl

def elementOutcome (r : Registry) (cs : List Char) (loader : Reference) :
    Option (List Char × Reference) :=
  (r.element? cs loader).map fun e => ((r.cls e).signature, (r.cls e).loader)

/-- What stands for an element stands for the same class in every registry with the same classes and
interfaces, and is how the names of its array classes end. -/
def SteadyElement (r : Registry) (cs : List Char) (loader : Reference) : Prop :=
  ∀ r', r'.Built → SameDefined r r' → r'.elementOutcome cs loader = r.elementOutcome cs loader ∧
    ∀ e ∈ r'.element? cs loader, (r'.cls e).signature = cs

theorem SteadyElement.arrayClass (built : r.Built)
    (element : r.SteadyElement (name.toList.drop (brackets name)) loader) :
    r.Steady name (·.arrayClass name loader) := by
  intro r' built' same
  by_cases out : brackets name = 0 ∨ brackets name > FieldType.maxDimensions
  · rw [outcome_arrayClass_out out, outcome_arrayClass_out out]
    exact ⟨rfl, nofun⟩
  · have dims : brackets name ≠ 0 := fun zero => out (.inl zero)
    have fits : brackets name ≤ FieldType.maxDimensions :=
      Nat.le_of_not_lt fun more => out (.inr more)
    obtain ⟨alike, called⟩ := element r' built' same
    rw [built.outcome_arrayClass dims fits, built'.outcome_arrayClass dims fits]
    constructor
    · have mapped := congrArg (Option.map fun found : List Char × Reference =>
        (String.ofList (List.replicate (brackets name) '[' ++ found.1), found.2)) alike
      rwa [elementOutcome, elementOutcome, Option.map_map, Option.map_map] at mapped
    · rintro found member
      obtain ⟨e, here, rfl⟩ := Option.map_eq_some_iff.mp member
      rw [called e here, ← toList_eq_brackets, String.ofList_toList]

theorem element?_object {cs chars : List Char} (object : objectName? cs = some chars) :
    r.element? cs loader =
      if chars = [] then none else r.findVisible? (String.ofList chars) loader := by
  unfold element?
  rw [object]
  cases chars <;> rfl

theorem SteadyElement.of_unseen {cs : List Char}
    (unseen : ∀ r', r'.Built → SameDefined r r' → r'.element? cs loader = none) (built : r.Built) :
    r.SteadyElement cs loader := by
  intro r' built' same
  rw [elementOutcome, elementOutcome, unseen r' built' same, unseen r built (.refl r)]
  exact ⟨rfl, nofun⟩

theorem SteadyElement.of_letter {cs : List Char} (built : r.Built)
    (letter : objectName? cs = none) : r.SteadyElement cs loader := by
  intro r' built' _
  have known {r : Registry} (built : r.Built) {e : ClassId}
      (found : r.element? cs loader = some e) :
      (r.cls e).signature = cs ∧ (r.cls e).loader = none := by
    rcases built.element?_cases found with ⟨-, known⟩ | ⟨chars, object, -⟩
    · exact known
    · rw [letter] at object
      cases object
  have same : r'.element? cs loader = r.element? cs loader := by simp only [element?, letter]
  refine ⟨?_, fun e found => (known built' found).1⟩
  unfold elementOutcome
  cases found : r.element? cs loader with
  | none => rw [same, found, Option.map_none, Option.map_none]
  | some e =>
    have here := known built found
    have here' := known built' (same.trans found)
    rw [same, found, Option.map_some, Option.map_some, here.1, here.2, here'.1, here'.2]

theorem Built.signature_of_plain (built : r.Built) (known : r.Known name loader c)
    (plain : isArrayName name = false) : (r.cls c).signature = 'L' :: (name.toList ++ [';']) := by
  rw [Class.signature, built.keyed.ordinary_of_plain known plain, known.name]

theorem findVisible?_sees (found : r.findVisible? name loader = some c) :
    ∃ l, (l = loader ∨ l = none) ∧ r.Known name l c := by
  unfold findVisible? at found
  rcases Option.or_eq_some_iff.mp (by simpa using found) with own | ⟨-, bootstrap⟩
  · exact ⟨loader, .inl rfl, find?_known own⟩
  · exact ⟨none, .inr rfl, find?_known bootstrap⟩

/-- Of the classes of a name a loader sees its own, or else that of the bootstrap loader. -/
theorem Built.findVisible?_plain (built : r.Built) (plain : isArrayName name = false) :
    ((r.findVisible? name loader).map fun e => ((r.cls e).signature, (r.cls e).loader)) =
      if (r.find? name loader).isSome then some ('L' :: (name.toList ++ [';']), loader)
      else if (r.find? name none).isSome then some ('L' :: (name.toList ++ [';']), none)
      else none := by
  unfold findVisible?
  cases own : r.find? name loader with
  | some e =>
    have known := find?_known own
    simp [built.signature_of_plain known plain, known.loader]
  | none =>
    cases bootstrap : r.find? name none with
    | some e =>
      have known := find?_known bootstrap
      simp [built.signature_of_plain known plain, known.loader]
    | none => rfl

theorem SteadyElement.of_plain {cs chars : List Char} (built : r.Built)
    (object : objectName? cs = some chars) (plain : isArrayName (String.ofList chars) = false) :
    r.SteadyElement cs loader := by
  intro r' built' same
  have agree (l : Reference) :
      (r'.find? (String.ofList chars) l).isSome = (r.find? (String.ofList chars) l).isSome :=
    Bool.eq_iff_iff.mpr (same _ l plain).symm
  unfold elementOutcome
  rw [element?_object object, element?_object object]
  by_cases empty : chars = []
  · rw [if_pos empty, if_pos empty]
    exact ⟨rfl, nofun⟩
  · rw [if_neg empty, if_neg empty]
    constructor
    · rw [built.findVisible?_plain plain, built'.findVisible?_plain plain, agree, agree]
    · intro e found
      obtain ⟨l, -, known⟩ := findVisible?_sees found
      rw [built'.signature_of_plain known plain, String.toList_ofList,
        objectName?_eq_some.mp object]

/-! Names within names. -/

/-- Between its brackets with `L` and `;` the name has that of an array class: one over a primitive
class, or over a class or interface that the loader or the bootstrap loader has defined. -/
structure Nests (r : Registry) (name : String) (loader : Reference) (element : String) (n : Nat)
    (e : ClassId) : Prop where
  array : isArrayName name = true
  fits : brackets name ≤ FieldType.maxDimensions
  named : elementName? name = some element
  positive : n ≠ 0
  there : e.index < r.loaded.size
  plain : (r.cls e).isArray = false
  text : element.toList = List.replicate n '[' ++ (r.cls e).signature
  visible : (r.cls e).loader = loader ∨ (r.cls e).loader = none

/-- What arrays can be made of is the same where the same classes have been defined. -/
theorem Nests.sameDefined (built : r.Built) (built' : r'.Built) (same : SameDefined r r')
    (nests : r.Nests name loader element n e) : ∃ e', r'.Nests name loader element n e' := by
  obtain ⟨array, fits, named, positive, there, plain, text, visible⟩ := nests
  cases kind : (r.cls e).kind with
  | array d m => simp [Class.isArray, kind] at plain
  | primitive p =>
    obtain rfl := built.keyed.primitive e p kind
    rw [built.cls_primitive p] at text visible
    refine ⟨primitive p, array, fits, named, positive, ?_, ?_, ?_, ?_⟩
    · exact Nat.lt_of_lt_of_le (by cases p <;> decide) built'.ordered.primitives
    all_goals rw [built'.cls_primitive p]
    · rfl
    · exact text
    · exact visible
  | ordinary =>
    have known : r.Known (r.cls e).name (r.cls e).loader e :=
      ⟨⟨there, by rw [Class.isPrimitive, kind]⟩, rfl, rfl⟩
    have plainName := built.keyed.ordinary e there kind
    obtain ⟨e', found⟩ := Option.isSome_iff_exists.mp
      ((same _ _ plainName).mp (Option.isSome_iff_exists.mpr known.isSome))
    have known' := find?_known found
    refine ⟨e', array, fits, named, positive, known'.there, ?_, ?_, ?_⟩
    · rw [Class.isArray, built'.keyed.ordinary_of_plain known' plainName]
    · rw [text, built'.signature_of_plain known' plainName,
        built.signature_of_plain known plainName]
    · rw [known'.loader]
      exact visible

theorem Built.nests_of_found (built : r.Built) (array : isArrayName name = true)
    (fits : brackets name ≤ FieldType.maxDimensions) (named : elementName? name = some element)
    (bracket : isArrayName element = true) (found : r.findVisible? element loader = some c) :
    ∃ n e, r.Nests name loader element n e := by
  obtain ⟨l, sees, known⟩ := findVisible?_sees found
  obtain ⟨n, e, inner⟩ := built.ordered.exists_innermost c
  have positive : n ≠ 0 := by
    rintro rfl
    have arrays := built.isArray_of_arrayName bracket known
    rw [inner.spans, inner.plain] at arrays
    cases arrays
  have called := (inner.spans.called built.keyed positive).2
  rw [known.name] at called
  refine ⟨n, e, array, fits, named, positive, inner.spans.there built.ordered known.there,
    inner.plain, called, ?_⟩
  rw [← inner.spans.loader built.keyed, known.loader]
  exact sees

/-- Where the array class has been made, the name stands for a class that is called otherwise. -/
theorem Nests.misnamed (built : r.Built) (nests : r.Nests name loader element n e) :
    ∃ r', r'.Built ∧ SameDefined r r' ∧
      ∃ found ∈ outcome (r'.arrayClass name loader), found.1 ≠ name := by
  obtain ⟨built', later, spans⟩ := built.arrayOfTimes n nests.there
  have widens := (arrayOfTimes_leads n nests.there).1
  refine ⟨_, built', widens.sameDefined, ?_⟩
  generalize Registry.arrayOfTimes n e r = made at built' later spans
  obtain ⟨b, r'⟩ := made
  dsimp only at built' later spans ⊢
  obtain ⟨resolved, called⟩ := spans.called built'.keyed nests.positive
  have known : r'.Known element (r.cls e).loader b := by
    refine ⟨resolved, ?_, ?_⟩
    · rw [later.cls e nests.there, ← nests.text] at called
      exact String.toList_inj.mp called
    · rw [spans.loader built'.keyed, later.cls e nests.there]
  have seen : ∃ c, r'.findVisible? element loader = some c := by
    have found := built'.keyed.find?_iff.mpr known
    unfold findVisible?
    rcases nests.visible with own | bootstrap
    · rw [own] at found
      exact ⟨b, by rw [found]; rfl⟩
    · rw [bootstrap] at found
      rw [found]
      cases r'.find? element loader with
      | some c => exact ⟨c, rfl⟩
      | none => exact ⟨b, rfl⟩
  obtain ⟨c, seen⟩ := seen
  obtain ⟨l, -, other⟩ := findVisible?_sees seen
  have bracket : isArrayName element = true := by
    obtain ⟨m, positive⟩ := Nat.exists_eq_succ_of_ne_zero nests.positive
    refine isArrayName_iff.mpr ⟨List.replicate m '[' ++ (r.cls e).signature, ?_⟩
    rw [nests.text, positive, List.replicate_succ, List.cons_append]
  have signature : (r'.cls c).signature = element.toList := by
    obtain ⟨d, component⟩ := Class.isArray_iff.mp (built'.isArray_of_arrayName bracket other)
    obtain ⟨m, kind⟩ := Class.component?_eq_some.mp component
    rw [Class.signature, kind, other.name]
  -- what is between `L` and `;` is shorter than what is behind the brackets
  obtain ⟨chars, object, rfl⟩ := Option.map_eq_some_iff.mp nests.named
  have nonempty : chars ≠ [] := by
    rintro rfl
    cases bracket
  have dims : brackets name ≠ 0 := by simpa [isArrayName] using nests.array
  refine ⟨(String.ofList (List.replicate (brackets name) '[' ++ (r'.cls c).signature),
    (r'.cls c).loader), ?_, ?_⟩
  · rw [built'.outcome_arrayClass dims nests.fits, element?_object object, if_neg nonempty, seen]
    rfl
  · intro same
    have text := congrArg String.toList same
    rw [String.toList_ofList, signature, String.toList_ofList] at text
    have whole := toList_eq_brackets name
    rw [objectName?_eq_some.mp object, ← text] at whole
    have lengths := congrArg List.length (List.append_cancel_left whole)
    simp only [List.length_cons, List.length_append, List.length_nil] at lengths
    omega

theorem Built.unseen_of_apart (built : r.Built) (array : isArrayName name = true)
    (fits : brackets name ≤ FieldType.maxDimensions) (named : elementName? name = some element)
    (bracket : isArrayName element = true)
    (apart : ¬ ∃ element n e, r.Nests name loader element n e) (built' : r'.Built)
    (same : SameDefined r r') : r'.findVisible? element loader = none := by
  refine Option.eq_none_iff_forall_ne_some.mpr fun c found => apart ?_
  obtain ⟨n, e, nests⟩ := built'.nests_of_found array fits named bracket found
  obtain ⟨e', nests⟩ := nests.sameDefined built' built fun _ _ plain => (same _ _ plain).symm
  exact ⟨_, n, e', nests⟩

theorem Built.steady_of_apart (built : r.Built)
    (apart : ¬ ∃ element n e, r.Nests name loader element n e) :
    r.Steady name (·.arrayClass name loader) := by
  by_cases out : brackets name = 0 ∨ brackets name > FieldType.maxDimensions
  · intro r' _ _
    dsimp only
    rw [outcome_arrayClass_out out, outcome_arrayClass_out out]
    exact ⟨rfl, nofun⟩
  have array : isArrayName name = true := by simpa [isArrayName] using fun zero => out (.inl zero)
  have fits : brackets name ≤ FieldType.maxDimensions :=
    Nat.le_of_not_lt fun more => out (.inr more)
  refine SteadyElement.arrayClass built ?_
  cases object : objectName? (name.toList.drop (brackets name)) with
  | none => exact .of_letter built object
  | some chars =>
    cases bracket : isArrayName (String.ofList chars) with
    | false => exact .of_plain built object bracket
    | true =>
      have named : elementName? name = some (String.ofList chars) := by
        rw [elementName?, object]
        rfl
      refine .of_unseen (fun r' built' same => ?_) built
      rw [element?_object object,
        built.unseen_of_apart array fits named bracket apart built' same, ite_self]

theorem Built.steady_arrayClass_iff (built : r.Built) :
    r.Steady name (·.arrayClass name loader) ↔
      ¬ ∃ element n e, r.Nests name loader element n e := by
  refine ⟨?_, built.steady_of_apart⟩
  rintro steady ⟨element, n, e, nests⟩
  obtain ⟨r', built', same, found, here, other⟩ := nests.misnamed built
  exact other ((steady r' built' same).2 found here)

theorem Built.steady_findBootstrap_iff (built : r.Built) :
    r.Steady name (·.findBootstrap name) ↔ ¬ ∃ element n e, r.Nests name none element n e := by
  cases array : isArrayName name with
  | true =>
    have same : (fun r : Registry => r.findBootstrap name) = (·.arrayClass name none) := by
      funext r
      rw [findBootstrap, findLoaded, if_pos array]
    rw [same]
    exact built.steady_arrayClass_iff
  | false =>
    refine iff_of_true (fun r' built' same => ?_) ?_
    · have plain (r : Registry) : r.findBootstrap name = (r.find? name none, r) := by
        rw [findBootstrap, findLoaded, if_neg (by simp [array])]
      have bootstrap (r : Registry) : outcome (r.findBootstrap name) =
          if (r.find? name none).isSome then some (name, none) else none := by
        rw [plain]
        cases found : r.find? name none with
        | none => rfl
        | some c => simp [outcome, (find?_known found).name, (find?_known found).loader]
      have agree : (r'.find? name none).isSome = (r.find? name none).isSome :=
        Bool.eq_iff_iff.mpr (same _ _ array).symm
      dsimp only
      rw [bootstrap, bootstrap, agree]
      refine ⟨rfl, fun found member => ?_⟩
      split at member
      · cases member
        rfl
      · cases member
    · rintro ⟨element, n, e, nests⟩
      rw [nests.array] at array
      cases array

/-- A lookup of an array class, or one of the bootstrap loader, has the same outcome whatever array
classes have been made, and gives no class of another name, exactly if the name does not have that of
an array class between `L` and `;`. -/
theorem arrayNames_steady_iff (built : r.Built) (name : String) (loader : Reference) :
    (r.Steady name (·.arrayClass name loader) ↔
      ¬ ∃ element n e, r.Nests name loader element n e) ∧
    (r.Steady name (·.findBootstrap name) ↔ ¬ ∃ element n e, r.Nests name none element n e) :=
  ⟨built.steady_arrayClass_iff, built.steady_findBootstrap_iff⟩

/-! The root alone. -/

def rootOnly : Registry := (empty.define (ClassDef.named rootName).root none).2

theorem arrays_of_root_steady :
    rootOnly.Built ∧
      rootOnly.Steady "[[Ljava/lang/Object;" (·.findBootstrap "[[Ljava/lang/Object;") ∧
      outcome (rootOnly.findBootstrap "[[Ljava/lang/Object;") = some ("[[Ljava/lang/Object;", none) ∧
      ¬ rootOnly.Steady "[L[I;" (·.findBootstrap "[L[I;") := by
  have built : rootOnly.Built := .define .empty _ _
  refine ⟨built, (arrayNames_steady_iff built _ none).2.mpr ?_, by decide +kernel, fun steady => ?_⟩
  · rintro ⟨element, n, e, nests⟩
    have named : elementName? "[[Ljava/lang/Object;" = some rootName := by decide +kernel
    cases named.symm.trans nests.named
    have bracket := congrArg List.head? nests.text
    obtain ⟨m, positive⟩ := Nat.exists_eq_succ_of_ne_zero nests.positive
    rw [positive, List.replicate_succ, List.cons_append, List.head?_cons] at bracket
    exact absurd bracket (by decide)
  · refine (arrayNames_steady_iff built _ none).2.mp steady ⟨"[I", 1, primitive .int, ?_⟩
    constructor <;> decide +kernel

/-- The name stands for nothing, but once there is a class of arrays of the root it stands for arrays
of arrays, which are called otherwise. -/
theorem nested_name_misread :
    let arrays := (rootOnly.findBootstrap "[Ljava/lang/Object;").2
    Reaches empty rootOnly ∧ Reaches rootOnly arrays ∧ SameDefined rootOnly arrays ∧
      outcome (rootOnly.findBootstrap "[L[Ljava/lang/Object;;") = none ∧
      outcome (arrays.findBootstrap "[L[Ljava/lang/Object;;") =
        some ("[[Ljava/lang/Object;", none) := by
  have built : rootOnly.Built := .define .empty _ _
  have widens := (findLoaded_leads built.ordered.primitives "[Ljava/lang/Object;" none).1
  exact ⟨.single (.define _ none), .single (.findBootstrap _), widens.sameDefined,
    by decide +kernel, by decide +kernel⟩

end ManagedRuntime.Registry
