import ManagedRuntime.Proofs.Class.Names
import Mathlib.Logic.Relation

/-!
The registry as a table from names and loaders to classes. Registries are taken here after any
sequence of calls, those included that fail. Main statement: what the table says it says ever after
and says rightly, and each class has one array class, which is that of no other class.
-/
namespace ManagedRuntime.Registry
variable {r r' : Registry} {c d : ClassId}

inductive Call (r : Registry) : Registry → Prop where
  | define (d : ClassDef) (loader : Reference) : Call r (r.define d loader).2
  | arrayOf {c : ClassId} (there : c.index < r.loaded.size) : Call r (r.arrayOf c).2
  | arrayClass (name : String) (loader : Reference) : Call r (r.arrayClass name loader).2
  | findBootstrap (name : String) : Call r (r.findBootstrap name).2

abbrev Reaches : Registry → Registry → Prop := Relation.ReflTransGen Call

theorem Call.built (call : Call r r') (built : r.Built) : r'.Built := by
  cases call with
  | define d loader => exact built.define d loader
  | arrayOf there => exact built.arrayOf there
  | arrayClass name loader => exact built.arrayClass name loader
  | findBootstrap name =>
    unfold Registry.findBootstrap findLoaded
    split
    · exact built.arrayClass name none
    · exact built

theorem Call.grows (call : Call r r') (primitives : Primitive.all.length ≤ r.loaded.size) :
    Grows r r' := by
  cases call with
  | define d loader => exact define_grows d loader primitives
  | arrayOf there => exact (arrayOf_leads there).1.grows
  | arrayClass name loader => exact (arrayClass_leads primitives name loader).1.grows
  | findBootstrap name => exact (findLoaded_leads primitives name none).1.grows

theorem Reaches.built (reaches : Reaches r r') (built : r.Built) : r'.Built := by
  induction reaches with
  | refl => exact built
  | tail _ call ih => exact call.built ih

theorem Reaches.later (reaches : Reaches r r') (built : r.Built) : Later r r' := by
  induction reaches with
  | refl => exact .refl r
  | tail before call ih =>
    have ordered := (Reaches.built before built).ordered
    exact ih.trans ((call.grows ordered.primitives).extends ordered).later

theorem find?_define_refused {d : ClassDef} {loader : Reference} {f : Failure}
    (primitives : Primitive.all.length ≤ r.loaded.size) (refused : (r.define d loader).1 = .error f)
    {name : String} (plain : isArrayName name = false) (l : Reference) :
    (r.define d loader).2.find? name l = r.find? name l := by
  have comes := define_cases d loader primitives
  generalize r.define d loader = result at comes refused ⊢
  cases comes with
  | refused widens => exact widens.find? plain l
  | defined => cases refused

theorem arrayOf_find? (c : ClassId) :
    (r.arrayOf c).2.find? (r.cls c).arrayName (r.cls c).loader = some (r.arrayOf c).1 := by
  unfold Registry.arrayOf
  split
  · assumption
  · rename_i new
    rw [find?_add, new, if_pos (by simp [arrayClassOf, Class.isPrimitive])]
    rfl

/-- Once an array class has been made it is the one that is found. -/
theorem Later.arrayOf (built : r'.Built) (later : Later (r.arrayOf c).2 r')
    (there : c.index < r.loaded.size) : r'.arrayOf c = ((r.arrayOf c).1, r') := by
  have first := (arrayOf_leads there).1.grows
  have same : r'.cls c = r.cls c :=
    (later.cls c (Nat.lt_of_lt_of_le there first.size)).trans (first.cls there)
  have found := later.find? built (arrayOf_find? (r := r) c)
  rw [← same] at found
  simp only [Registry.arrayOf, found]

/-- The array class of `c` is `a`: whoever asks gets it, it has components of class `c` alone, and
who asks for arrays of another class gets another one. -/
structure ArraysAre (r : Registry) (c a : ClassId) : Prop where
  again : r.arrayOf c = (a, r)
  component : (r.cls a).component? = some c
  alone : ∀ d : ClassId, d.index < r.loaded.size → (r.arrayOf d).1 = a → d = c

theorem Later.arraysAre (built : r.Built) (built' : r'.Built) (later : Later (r.arrayOf c).2 r')
    (there : c.index < r.loaded.size) : r'.ArraysAre c (r.arrayOf c).1 := by
  have made := (arrayOf_leads there).2 _ rfl
  have component : (r'.cls (r.arrayOf c).1).component? = some c := by
    rw [later.cls _ made.there]
    exact built.arrayOf_component there
  refine ⟨later.arrayOf built' there, component, fun d here same => ?_⟩
  -- the class of arrays of `d` was there before, so the call for it has not touched it
  have old : (r.arrayOf c).1.index < r'.loaded.size := Nat.lt_of_lt_of_le made.there later.size
  have other := built'.arrayOf_component here
  rw [same, (arrayOf_leads here).1.grows.cls old, component] at other
  exact (Option.some.inj other).symm

/-- What clients of a registry may rely on, whatever they and others call from now on. -/
structure Faithful (r : Registry) : Prop where
  kept : ∀ r', Reaches r r' → ∀ name loader c, r.find? name loader = some c →
    r'.find? name loader = some c ∧ r'.cls c = r.cls c
  called : ∀ name loader c, r.find? name loader = some c →
    (r.cls c).name = name ∧ (r.cls c).loader = loader
  refused : ∀ d loader f, (r.define d loader).1 = .error f → ∀ name l, isArrayName name = false →
    (r.define d loader).2.find? name l = r.find? name l
  arrays : ∀ c : ClassId, c.index < r.loaded.size → ∀ r', Reaches (r.arrayOf c).2 r' →
    r'.ArraysAre c (r.arrayOf c).1

/-- After any calls the registry is a faithful table, and stays one. -/
theorem reached_faithful (reached : Reaches empty r) : r.Faithful := by
  have built := reached.built .empty
  refine ⟨fun r' reaches name loader c found => ?_, fun name loader c found => ?_,
    fun d loader f refused name l plain => ?_, fun c there r' reaches => ?_⟩
  · have later := reaches.later built
    exact ⟨later.find? (reaches.built built) found, later.cls c (find?_known found).there⟩
  · exact ⟨(find?_known found).name, (find?_known found).loader⟩
  · exact find?_define_refused built.ordered.primitives refused plain l
  · have step : Reaches r (r.arrayOf c).2 := .single (.arrayOf there)
    have made := step.built built
    exact (reaches.later made).arraysAre built (reaches.built made) there

/-- A class that bears the letter of a primitive type is not confused with it: arrays of either are
of classes of their own. -/
theorem letter_class_faithful :
    ∃ r c, Reaches empty r ∧ r.find? "I" none = some c ∧
      ∀ r', Reaches (r.arrayOf c).2 r' →
        r'.ArraysAre c (r.arrayOf c).1 ∧ (r'.arrayOf (primitive .int)).1 ≠ (r.arrayOf c).1 := by
  have reached : Reaches empty (empty.define (ClassDef.named "I").root none).2 :=
    .single (.define _ none)
  refine ⟨_, ⟨9⟩, reached, by decide +kernel, fun r' reaches => ?_⟩
  have arrays := (reached_faithful reached).arrays ⟨9⟩ (by decide +kernel) r' reaches
  refine ⟨arrays, fun same => ?_⟩
  have made : Reaches empty r' := (reached.tail (.arrayOf (by decide +kernel))).trans reaches
  have there : (primitive .int).index < r'.loaded.size :=
    Nat.lt_of_lt_of_le (by decide) (made.built .empty).ordered.primitives
  exact absurd (arrays.alone _ there same) (by decide)

end ManagedRuntime.Registry
