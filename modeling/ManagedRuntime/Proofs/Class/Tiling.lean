import ManagedRuntime.Heap.Basic
import ManagedRuntime.Proofs.Class.Layout
import ManagedRuntime.Proofs.Class.Namespace
import ManagedRuntime.Proofs.Value.Encoding
import Mathlib.Data.List.Pairwise

/-!
Fields and the storage that they lie in. Every field begins where the one before it ends, inherited
fields first. Main statement: after any calls of a registry, each slot of an instance, and each slot
of the static storage, belongs to exactly one field, the slots hold the zero values of the fields'
types, and subclasses add fields behind those that they inherit.
-/
namespace ManagedRuntime

def FieldType.zero (t : FieldType) : Value := (t.primitive?.bind Value.zero?).getD .null

def Field.stop (f : Field) : Nat := f.offset + f.type.slotCount

def Field.Apart (f g : Field) : Prop := f.stop ≤ g.offset ∨ g.stop ≤ f.offset

theorem Field.Apart.symm {f g : Field} (apart : f.Apart g) : g.Apart f := Or.symm apart

instance : Std.Symm Field.Apart := ⟨fun _ _ => Field.Apart.symm⟩

/-- Every one of the slots belongs to exactly one of the fields. -/
structure Tiles (fs : List Field) (slots : Nat) : Prop where
  apart : fs.Pairwise Field.Apart
  cover : ∀ i, i < slots ↔ ∃ f ∈ fs, f.offset ≤ i ∧ i < f.stop

def zeroedFields (fs : List Field) : List Slot := fs.flatMap fun f => Slot.zeroed f.type.primitive?

def Consecutive : Nat → List Field → Prop
  | _, [] => True
  | start, f :: fs => f.offset = start ∧ Consecutive f.stop fs

def FieldType.Inhabited (t : FieldType) : Prop := t.primitive? ≠ some .void

namespace FieldType
variable {t : FieldType}

theorem inhabited_of_parse {s : String} (parsed : parse s = .ok t) : t.Inhabited := by
  have scanned (depth : Nat) (cs rest : List Char) (t : FieldType)
      (found : scan depth cs = some (t, rest)) : t.Inhabited := by
    unfold scan at found
    split at found
    · cases found
    · split at found
      · obtain ⟨inner, -, same⟩ := Option.map_eq_some_iff.mp found
        cases same
        simp [FieldType.Inhabited, primitive?]
      · cases found
    · split at found
      · cases found
      · cases found
      · cases found
        simp [FieldType.Inhabited, primitive?]
    · split at found
      · cases found
      · cases found
      · rename_i p notVoid _
        cases found
        intro void
        cases void
        exact notVoid rfl
  unfold parse at parsed
  cases found : parse? s.toList with
  | none =>
    rw [found] at parsed
    cases parsed
  | some t' =>
    rw [found] at parsed
    cases parsed
    unfold parse? at found
    split at found
    · rename_i scanned'
      cases found
      exact scanned 0 _ _ _ scanned'
    · cases found

theorem slots_zero (inhabited : t.Inhabited) :
    Slot.zeroed t.primitive? = t.zero.slots ∧ t.zero.primitive? = t.primitive? := by
  cases t with
  | object name => exact ⟨rfl, rfl⟩
  | array component => exact ⟨rfl, rfl⟩
  | primitive p =>
    cases p with
    | void => exact absurd rfl inhabited
    | _ => exact ⟨rfl, rfl⟩

end FieldType

theorem zeroedFields_append (fs gs : List Field) :
    zeroedFields (fs ++ gs) = zeroedFields fs ++ zeroedFields gs := List.flatMap_append

theorem length_zeroedFields_cons (f : Field) (fs : List Field) :
    (zeroedFields (f :: fs)).length = f.type.slotCount + (zeroedFields fs).length := by
  rw [zeroedFields, List.flatMap_cons, List.length_append, FieldType.length_zeroed]
  rfl

namespace Consecutive
variable {start : Nat} {fs gs : List Field} {f : Field}

theorem append (front : Consecutive start fs)
    (back : Consecutive (start + (zeroedFields fs).length) gs) : Consecutive start (fs ++ gs) := by
  induction fs generalizing start with
  | nil => exact back
  | cons f fs ih =>
    obtain ⟨rfl, rest⟩ := front
    rw [length_zeroedFields_cons, ← Nat.add_assoc] at back
    exact ⟨rfl, ih rest back⟩

theorem before (consecutive : Consecutive start (fs ++ f :: gs)) :
    f.offset = start + (zeroedFields fs).length := by
  induction fs generalizing start with
  | nil => exact consecutive.1
  | cons g fs ih =>
    obtain ⟨rfl, rest⟩ := consecutive
    rw [ih rest, length_zeroedFields_cons, Field.stop, Nat.add_assoc]

theorem start_le (consecutive : Consecutive start fs) (member : f ∈ fs) : start ≤ f.offset := by
  obtain ⟨front, back, rfl⟩ := List.append_of_mem member
  have here := consecutive.before
  omega

theorem covers (consecutive : Consecutive start fs) (i : Nat) :
    start ≤ i ∧ i < start + (zeroedFields fs).length ↔ ∃ f ∈ fs, f.offset ≤ i ∧ i < f.stop := by
  induction fs generalizing start with
  | nil =>
    constructor
    · intro ⟨above, below⟩
      simp only [zeroedFields, List.flatMap_nil, List.length_nil] at below
      omega
    · intro ⟨f, member, _⟩
      cases member
  | cons f fs ih =>
    obtain ⟨rfl, rest⟩ := consecutive
    have later := ih rest
    have stop : f.stop = f.offset + f.type.slotCount := rfl
    rw [length_zeroedFields_cons]
    constructor
    · intro ⟨above, below⟩
      by_cases own : i < f.stop
      · exact ⟨f, List.mem_cons_self, above, own⟩
      · obtain ⟨g, member, inside⟩ := later.mp ⟨by omega, by omega⟩
        exact ⟨g, List.mem_cons_of_mem _ member, inside⟩
    · intro ⟨g, member, above, below⟩
      rcases List.mem_cons.mp member with rfl | tail
      · exact ⟨above, by omega⟩
      · have inside := later.mpr ⟨g, tail, above, below⟩
        exact ⟨by omega, by omega⟩

theorem apart (consecutive : Consecutive start fs) : fs.Pairwise Field.Apart := by
  induction fs generalizing start with
  | nil => exact .nil
  | cons f fs ih =>
    obtain ⟨-, rest⟩ := consecutive
    exact .cons (fun g member => .inl (rest.start_le member)) (ih rest)

theorem tiles (consecutive : Consecutive 0 fs) : Tiles fs (zeroedFields fs).length where
  apart := consecutive.apart
  cover i := by
    have covers := consecutive.covers i
    rw [Nat.zero_add] at covers
    rw [← covers]
    exact ⟨fun below => ⟨Nat.zero_le i, below⟩, And.right⟩

theorem readAt_zeroed (consecutive : Consecutive 0 fs) (member : f ∈ fs)
    (inhabited : f.type.Inhabited) :
    Slot.readAt (zeroedFields fs).toArray f.offset f.type.primitive? = some f.type.zero := by
  obtain ⟨front, back, rfl⟩ := List.append_of_mem member
  have here := consecutive.before
  rw [Nat.zero_add] at here
  obtain ⟨slots, type⟩ := FieldType.slots_zero inhabited
  have split : zeroedFields (front ++ f :: back) =
      zeroedFields front ++ f.type.zero.slots ++ zeroedFields back := by
    rw [zeroedFields_append, zeroedFields, zeroedFields, List.flatMap_cons, ← slots,
      List.append_assoc]
    rfl
  rw [split, here, ← type]
  exact Slot.readAt_slots _ _ _

end Consecutive

namespace Registry
variable {r r' : Registry} {c d : ClassId}

theorem Lays.consecutive {instanceAt staticAt : Nat} {fields : List Field}
    (lays : Lays instanceAt staticAt fields) :
    Consecutive instanceAt (fields.filter (!·.isStatic)) ∧
      Consecutive staticAt (fields.filter Field.isStatic) := by
  induction lays with
  | nil => exact ⟨trivial, trivial⟩
  | static static _ _ ih =>
    rw [List.filter_cons_of_neg (by simp [static]), List.filter_cons_of_pos static]
    exact ⟨ih.1, rfl, ih.2⟩
  | own own _ _ ih =>
    rw [List.filter_cons_of_pos (by simp [own]), List.filter_cons_of_neg (by simp [own])]
    exact ⟨⟨rfl, ih.1⟩, ih.2⟩

structure Stored (r : Registry) (c : ClassId) (x : Class) : Prop where
  below : ∀ s ∈ x.superclass, s.index < c.index
  above : ∀ s ∈ x.superclass, (r.cls s).kind = .ordinary
  template : x.template = r.inheritedTemplate x ++ x.ownTemplate
  instances : Consecutive (r.inheritedTemplate x).length (x.fields.filter (!·.isStatic))
  statics : Consecutive 0 (x.fields.filter Field.isStatic)

theorem Later.inheritedTemplate (later : Later r r') {x : Class}
    (there : ∀ s ∈ x.superclass, s.index < r.loaded.size) :
    r'.inheritedTemplate x = r.inheritedTemplate x := by
  unfold Registry.inheritedTemplate
  cases superclass : x.superclass with
  | none => rfl
  | some s => rw [Option.map_some, Option.map_some, later.cls s (there s superclass)]

theorem Stored.later {x : Class} (stored : r.Stored c x) (later : Later r r')
    (there : c.index ≤ r.loaded.size) : r'.Stored c x := by
  have old (s : ClassId) (root : s ∈ x.superclass) : s.index < r.loaded.size :=
    Nat.lt_of_lt_of_le (stored.below s root) there
  have inherited := later.inheritedTemplate old
  refine ⟨stored.below, fun s root => ?_, ?_, ?_, stored.statics⟩
  · rw [later.cls s (old s root)]
    exact stored.above s root
  · rw [inherited]
    exact stored.template
  · rw [inherited]
    exact stored.instances

theorem Extendable.ordinary (extendable : r.Extendable c) : (r.cls c).kind = .ordinary := by
  have notPrimitive := extendable.notPrimitive
  have notArray := extendable.notArray
  unfold Class.isPrimitive at notPrimitive
  unfold Class.isArray at notArray
  cases kind : (r.cls c).kind with
  | ordinary => rfl
  | primitive p => simp [kind] at notPrimitive
  | array e n => simp [kind] at notArray

theorem Built.stored (built : r.Built) (there : c.index < r.loaded.size)
    (ordinary : (r.cls c).kind = .ordinary) : r.Stored c (r.cls c) := by
  refine built.each (Q := fun r c x => x.kind = .ordinary → r.Stored c x) ?_ ?_ ?_ ?_ c there ordinary
  · intro r r' c x later before old ordinary
    exact (old ordinary).later later before
  · intro c inside ordinary
    rw [cls_empty] at ordinary
    have listed : c.index < Primitive.all.length := by simpa [Registry.empty] using inside
    rw [List.getElem?_eq_getElem listed] at ordinary
    cases ordinary
  · intro r c _ _ ordinary
    cases ordinary
  · intro r d loader superclass interfaces x _ above _ made _
    have lays := lays_of_layFields made.fields
    have roots (s : ClassId) (root : s ∈ x.superclass) : r.Extendable s :=
      above s (made.superclass ▸ root)
    exact ⟨fun s root => (roots s root).there, fun s root => (roots s root).ordinary, made.template,
      lays.consecutive.1, lays.consecutive.2⟩

theorem Built.unstored (built : r.Built) (there : c.index < r.loaded.size)
    (other : (r.cls c).kind ≠ .ordinary) : (r.cls c).fields = [] ∧ (r.cls c).template = [] := by
  refine built.each (Q := fun _ _ x => x.kind ≠ .ordinary → x.fields = [] ∧ x.template = [])
    ?_ ?_ ?_ ?_ c there other
  · exact fun _ _ _ _ _ _ old => old
  · intro c _ _
    rw [cls_empty]
    cases Primitive.all[c.index]? <;> exact ⟨rfl, rfl⟩
  · exact fun _ _ _ _ _ => ⟨rfl, rfl⟩
  · intro r d loader superclass interfaces x _ _ _ made other
    exact absurd made.kind other

/-! All instance fields of a class. -/

def allFields (r : Registry) (c : ClassId) : List Field := (r.instanceFields c).map Prod.snd

theorem instanceFields_eq (ordered : r.Ordered) (c : ClassId) :
    r.instanceFields c = (((r.cls c).superclass.map r.instanceFields).getD []) ++
      ((r.cls c).fields.filter (!·.isStatic)).map ((r.cls c).name, ·) := by
  unfold instanceFields
  rw [superChain_eq ordered]
  cases (r.cls c).superclass with
  | none => simp
  | some s => simp

theorem allFields_eq (ordered : r.Ordered) (c : ClassId) :
    r.allFields c = (((r.cls c).superclass.map r.allFields).getD []) ++
      (r.cls c).fields.filter (!·.isStatic) := by
  unfold allFields
  rw [instanceFields_eq ordered]
  cases (r.cls c).superclass <;> simp [Function.comp_def]

theorem mem_allFields (ordered : r.Ordered) {f : Field} :
    f ∈ r.allFields c ↔ ∃ d, r.Inherits c d ∧ f ∈ (r.cls d).fields ∧ f.isStatic = false := by
  simp only [allFields, instanceFields, List.map_flatMap, List.mem_flatMap, List.mem_reverse,
    mem_superChain_iff ordered, List.map_map, List.mem_map, List.mem_filter, Function.comp_apply,
    Bool.not_eq_true', exists_eq_right]

/-- Fields of a class lie one behind the other in its template, those that it inherits first. -/
theorem Built.template (built : r.Built) (there : c.index < r.loaded.size)
    (ordinary : (r.cls c).kind = .ordinary) :
    (r.cls c).template = zeroedFields (r.allFields c) ∧ Consecutive 0 (r.allFields c) := by
  induction k : c.index using Nat.strongRecOn generalizing c with
  | ind k ih =>
    subst k
    have stored := built.stored there ordinary
    rw [allFields_eq built.ordered, stored.template, zeroedFields_append]
    have instances := stored.instances
    unfold Registry.inheritedTemplate at instances ⊢
    cases superclass : (r.cls c).superclass with
    | none =>
      rw [superclass] at instances
      exact ⟨rfl, instances⟩
    | some s =>
      have less := stored.below s superclass
      obtain ⟨template, consecutive⟩ :=
        ih s.index less (Nat.lt_trans less there) (stored.above s superclass) rfl
      simp only [superclass, Option.map_some, Option.getD_some] at instances ⊢
      rw [template] at instances ⊢
      rw [← Nat.zero_add (zeroedFields (r.allFields s)).length] at instances
      exact ⟨rfl, consecutive.append instances⟩

theorem Built.inhabited (built : r.Built) {f : Field} (declared : f ∈ (r.cls c).fields) :
    f.type.Inhabited := FieldType.inhabited_of_parse (built.fields_fit declared).type

theorem Inherits.instanceFields (built : r.Built) (inherits : r.Inherits c d) :
    r.instanceFields d <+: r.instanceFields c := by
  induction inherits using Relation.ReflTransGen.head_induction_on with
  | refl => exact List.prefix_rfl
  | @head c s above _ ih =>
    refine ih.trans ?_
    rw [instanceFields_eq built.ordered c, show (r.cls c).superclass = some s from above]
    exact List.prefix_append _ _

theorem Built.consecutive (built : r.Built) (c : ClassId) : Consecutive 0 (r.allFields c) := by
  induction k : c.index using Nat.strongRecOn generalizing c with
  | ind k ih =>
    subst k
    by_cases ordinary : c.index < r.loaded.size ∧ (r.cls c).kind = .ordinary
    · exact (built.template ordinary.1 ordinary.2).2
    · have bare : (r.cls c).fields = [] := by
        by_cases there : c.index < r.loaded.size
        · exact (built.unstored there fun kind => ordinary ⟨there, kind⟩).1
        · rw [cls_of_unloaded (by omega)]
          rfl
      rw [allFields_eq built.ordered, bare]
      cases superclass : (r.cls c).superclass with
      | none => trivial
      | some s =>
        simp only [Option.map_some, Option.getD_some, List.filter_nil, List.append_nil]
        exact ih s.index (built.ordered.superclass_lt superclass) s rfl

theorem Built.consecutive_statics (built : r.Built) (c : ClassId) :
    Consecutive 0 ((r.cls c).fields.filter Field.isStatic) := by
  by_cases ordinary : c.index < r.loaded.size ∧ (r.cls c).kind = .ordinary
  · exact (built.stored ordinary.1 ordinary.2).statics
  · by_cases there : c.index < r.loaded.size
    · rw [(built.unstored there fun kind => ordinary ⟨there, kind⟩).1]
      trivial
    · rw [cls_of_unloaded (by omega)]
      trivial

theorem Built.apart_inherited (built : r.Built) {f g : Field} (inherits : r.Inherits c d)
    (below : c ≠ d) (own : f ∈ (r.cls c).fields) (instance_ : f.isStatic = false)
    (declared : g ∈ (r.cls d).fields) (instance' : g.isStatic = false) : f.Apart g := by
  rcases inherits.cases_head with same | ⟨s, above, rest⟩
  · exact absurd same below
  have chain := (built.consecutive c).apart
  have superclass : (r.cls c).superclass = some s := above
  rw [allFields_eq built.ordered, superclass] at chain
  have inherited : g ∈ r.allFields s :=
    (mem_allFields built.ordered).mpr ⟨d, rest, declared, instance'⟩
  have here : f ∈ (r.cls c).fields.filter (!·.isStatic) := List.mem_filter.mpr ⟨own, by simp [instance_]⟩
  exact ((List.pairwise_append.mp chain).2.2 g inherited f here).symm

theorem Built.apart (built : r.Built) {k : ClassId} {f g : Field} (first : r.Inherits k c)
    (second : r.Inherits k d) (own : f ∈ (r.cls c).fields) (instance_ : f.isStatic = false)
    (declared : g ∈ (r.cls d).fields) (instance' : g.isStatic = false)
    (other : c ≠ d ∨ f ≠ g) : f.Apart g := by
  by_cases same : c = d
  · subst same
    have chain := (built.consecutive c).apart
    have member {h : Field} (declared : h ∈ (r.cls c).fields) (instance_ : h.isStatic = false) :
        h ∈ r.allFields c := (mem_allFields built.ordered).mpr ⟨c, .refl, declared, instance_⟩
    exact chain.forall (member own instance_)
      (member declared instance') (other.resolve_left (absurd rfl))
  · -- superclasses follow one another, so one of the two classes is below the other
    have functional : Relator.RightUnique fun c d => (r.cls c).superclass = some d :=
      fun _ _ _ above above' => Option.some.inj (above.symm.trans above')
    rcases Relation.ReflTransGen.total_of_right_unique functional first second with below | below
    · exact built.apart_inherited below same own instance_ declared instance'
    · exact (built.apart_inherited below (Ne.symm same) declared instance' own instance_).symm

theorem Built.apart_statics (built : r.Built) {f g : Field} (own : f ∈ (r.cls c).fields)
    (static : f.isStatic = true) (declared : g ∈ (r.cls c).fields) (static' : g.isStatic = true)
    (other : f ≠ g) : f.Apart g :=
  (built.consecutive_statics c).apart.forall
    (List.mem_filter.mpr ⟨own, static⟩) (List.mem_filter.mpr ⟨declared, static'⟩) other

theorem Inherits.template (built : r.Built) (inherits : r.Inherits c d)
    (there : c.index < r.loaded.size) (ordinary : (r.cls c).kind = .ordinary) :
    (r.cls d).template <+: (r.cls c).template := by
  induction inherits using Relation.ReflTransGen.head_induction_on with
  | refl => exact List.prefix_rfl
  | @head c s above _ ih =>
    have superclass : (r.cls c).superclass = some s := above
    have stored := built.stored there ordinary
    have earlier := Nat.lt_trans (stored.below s superclass) there
    refine (ih earlier (stored.above s superclass)).trans ?_
    rw [stored.template, inheritedTemplate, superclass]
    exact List.prefix_append _ _

/-! Registries in which no program has run. -/

def Untouched (r : Registry) : Prop :=
  ∀ c : ClassId, c.index < r.loaded.size → r.state c = .initial (r.cls c)

theorem untouched_empty : Registry.empty.Untouched := by
  intro c there
  have listed : c.index < Primitive.all.length := by simpa [Registry.empty] using there
  simp [Registry.empty, state, cls, listed]

theorem Untouched.add (untouched : r.Untouched) (x : Class) : (r.add x).2.Untouched := by
  intro c there
  rw [state_add, cls_add]
  split
  · rfl
  · rename_i before
    rw [size_add] at there
    exact untouched c (by omega)

theorem Untouched.grows (untouched : r.Untouched) (grows : Grows r r') : r'.Untouched := by
  induction grows with
  | refl => exact untouched
  | array _ _ _ ih | ordinary _ _ _ _ ih => exact ih.add _

theorem Reaches.untouched (reaches : Reaches r r') (built : r.Built) (untouched : r.Untouched) :
    r'.Untouched := by
  induction reaches with
  | refl => exact untouched
  | tail before call ih =>
    exact ih.grows (call.grows (Reaches.built before built).ordered.primitives)

/-! Storage. -/

/-- How the fields of class `c` lie in instances and in static storage, when no program has run. -/
structure Tiled (r : Registry) (c : ClassId) : Prop where
  template : (r.cls c).template = r.inheritedTemplate (r.cls c) ++ (r.cls c).ownTemplate
  instances : Tiles (r.allFields c) (r.cls c).template.length
  statics : Tiles ((r.cls c).fields.filter Field.isStatic) (r.state c).statics.size
  fresh : ∀ h h' o, Heap.allocateResult h (Heap.newInstance r c) = (.ok o, h') →
    ∀ f ∈ r.allFields c, h'.readField o f.offset f.type.primitive? = some f.type.zero
  initially : ∀ f ∈ (r.cls c).fields, f.isStatic = true →
    r.readStatic c f.offset f.type.primitive? = some f.type.zero
  inherited : ∀ d, r.Inherits c d →
    r.instanceFields d <+: r.instanceFields c ∧ (r.cls d).template <+: (r.cls c).template

theorem readField_new {h h' : Heap} {o : ObjectId} {x : Object}
    (made : h.allocateResult (.ok x) = (.ok o, h')) (offset : Nat) (type : Option Primitive) :
    h'.readField o offset type = Slot.readAt x.fields offset type := by
  unfold Heap.allocateResult Heap.allocate at made
  dsimp only at made
  split at made
  · cases made
  · cases made
    simp [Heap.readField, Heap.get, Object.readField]

theorem Built.tiled (built : r.Built) (untouched : r.Untouched) (there : c.index < r.loaded.size)
    (ordinary : (r.cls c).kind = .ordinary) : r.Tiled c := by
  have stored := built.stored there ordinary
  obtain ⟨template, consecutive⟩ := built.template there ordinary
  have statics : (r.state c).statics = (zeroedFields ((r.cls c).fields.filter Field.isStatic)).toArray := by
    rw [untouched c there]
    rfl
  constructor
  · exact stored.template
  · rw [template]
    exact consecutive.tiles
  · rw [statics, List.size_toArray]
    exact stored.statics.tiles
  · intro h h' o made f member
    obtain ⟨d, -, declared, -⟩ := (mem_allFields built.ordered).mp member
    have instance_ : Heap.newInstance r c =
        .ok { cls := c, fields := (r.cls c).template.toArray, payload := .plain } := by
      simp [Heap.newInstance, Class.isArray, Class.isPrimitive, ordinary]
    rw [instance_] at made
    rw [readField_new made, template]
    exact consecutive.readAt_zeroed member (built.inhabited declared)
  · intro f declared static
    rw [readStatic, statics]
    exact stored.statics.readAt_zeroed (List.mem_filter.mpr ⟨declared, static⟩)
      (built.inhabited declared)
  · intro d inherits
    exact ⟨Inherits.instanceFields built inherits, Inherits.template built inherits there ordinary⟩

/-- After any calls the storage of every class and interface that has been defined is tiled by its
fields. Array classes and primitive ones have neither. -/
theorem reached_tiled (reached : Reaches empty r) (there : c.index < r.loaded.size) :
    ((r.cls c).kind = .ordinary → r.Tiled c) ∧
      ((r.cls c).kind ≠ .ordinary →
        (r.cls c).fields = [] ∧ (r.cls c).template = [] ∧ (r.state c).statics = #[]) := by
  have built := reached.built .empty
  have untouched := reached.untouched .empty untouched_empty
  constructor
  · exact built.tiled untouched there
  · intro other
    obtain ⟨fields, template⟩ := built.unstored there other
    refine ⟨fields, template, ?_⟩
    rw [untouched c there, ClassState.initial, Class.staticTemplate, fields]
    rfl

def mixedClasses : Registry :=
  let root := (ClassDef.named rootName).root.field "count" "J" .isStatic
    |>.field "wide" "D" .isPublic |>.field "name" "[I" .isStatic |>.field "flag" "Z" .isPublic
  let below := (ClassDef.named "t/Below").field "next" "Lt/Below;" .isPublic
    |>.field "first" "Lt/Below;" .isStatic
  ((empty.define root none).2.define below none).2

theorem mixedClasses_tiled :
    Reaches empty mixedClasses ∧ mixedClasses.Tiled ⟨10⟩ ∧
      (mixedClasses.allFields ⟨10⟩).map (fun f => (f.name, f.offset)) =
        [("wide", 0), ("flag", 2), ("next", 3)] := by
  have reached : Reaches empty mixedClasses := (Relation.ReflTransGen.single (.define _ none)).tail
    (.define _ none)
  refine ⟨reached, ?_, by decide +kernel⟩
  exact (reached_tiled reached (by decide +kernel)).1 (by decide +kernel)

def lockedClasses : Registry :=
  let root := (ClassDef.named rootName).root.field "lock" "I" .isPublic
  let c := (ClassDef.named "t/C").implementing "[Ljava/lang/Object;"
  ((empty.define root none).2.define c none).2

/-- The array class that a definition has asked for extends the root, and its instances have no
room for the field of the root. -/
theorem array_without_inherited_slots :
    Reaches empty lockedClasses ∧
      lockedClasses.find? "[Ljava/lang/Object;" none = some ⟨10⟩ ∧
      (lockedClasses.cls ⟨10⟩).superclass = some ⟨9⟩ ∧
      (lockedClasses.cls ⟨10⟩).template ≠
        (lockedClasses.cls ⟨9⟩).template ++ (lockedClasses.cls ⟨10⟩).ownTemplate ∧
      ¬ Tiles (lockedClasses.allFields ⟨10⟩) (lockedClasses.cls ⟨10⟩).template.length := by
  have reached : Reaches empty lockedClasses := (Relation.ReflTransGen.single (.define _ none)).tail
    (.define _ none)
  refine ⟨reached, by decide +kernel, by decide +kernel, by decide +kernel, ?_⟩
  intro tiles
  have inside : ∃ f ∈ lockedClasses.allFields ⟨10⟩, f.offset ≤ 0 ∧ 0 < f.stop := by decide +kernel
  have room : (lockedClasses.cls ⟨10⟩).template.length = 0 := by decide +kernel
  have below := (tiles.cover 0).mpr inside
  omega

end Registry
end ManagedRuntime
