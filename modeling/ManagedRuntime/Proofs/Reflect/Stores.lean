import ManagedRuntime.Proofs.Class.Namespace
import ManagedRuntime.Proofs.Execution.Alone
import ManagedRuntime.Proofs.Heap.Stock
import ManagedRuntime.Proofs.Reflect.Boxes
import ManagedRuntime.Proofs.Reflect.Conversion
import ManagedRuntime.Proofs.Value.Widening

/-!
Reflective stores. A store that succeeds leaves its value in one place, where it is read back, and
leaves every other field of that object, every other object and every other static field alone; a
store that fails changes nothing. An instance field of an interface has no place of its own in the
objects of classes that implement the interface, so there the other fields of the object are not
safe.
-/
namespace ManagedRuntime

theorem Exec.FieldPlace.field_ne {p q : Exec.FieldPlace} (other : q ≠ p) (cls : p.cls = q.cls)
    (holder : p.holder = q.holder) : p.field ≠ q.field := by
  intro field
  apply other
  cases p
  cases q
  cases cls
  cases holder
  cases field
  rfl

theorem Slot.Writes.read_apart {s s' : Array Slot} {f g : Field} {x : Value}
    (writes : Slot.Writes s f.offset x s') (type : x.primitive? = f.type.primitive?)
    (apart : f.Apart g) :
    Slot.readAt s' g.offset g.type.primitive? = Slot.readAt s g.offset g.type.primitive? := by
  have count : x.slots.length = f.type.slotCount := by
    rw [x.length_slots, Value.slotCount, type, FieldType.slotCount_eq]
  apply writes.read_other
  rw [count]
  exact apart.symm

namespace World
open Exec Registry
variable {η : Type} {w v u : World η} {c : ClassId} {slot : Nat} {receiver : Reference}

def valueAt? (w : World η) (p : FieldPlace) : Option Value :=
  match p.holder with
  | none => w.registry.readStatic p.cls p.field.offset p.field.type.primitive?
  | some o => w.heap.readField o p.field.offset p.field.type.primitive?

/-- A static field, or an instance field of an object of a class that has it. -/
structure Place (w : World η) (p : FieldPlace) : Prop where
  declared : p.field ∈ (w.cls p.cls).fields
  static : p.holder = none ↔ p.field.isStatic = true
  inherits : ∀ o, p.holder = some o → w.registry.Inherits (w.classOf o) p.cls

def receiverOf (w : World η) (c : ClassId) (receiver : Reference) : Except Failure ObjectId :=
  match receiver with
  | none => .error .nullReference
  | some o => if w.registry.assignable (w.classOf o) c then .ok o else .error .wrongReceiver

def placeOf (w : World η) (c : ClassId) (slot : Nat) (receiver : Reference) :
    Except Failure FieldPlace :=
  match (w.cls c).field? slot with
  | none => .error (.noFieldSlot (w.cls c).name slot)
  | some f =>
    if f.isStatic then .ok ⟨c, f, none⟩
    else (w.receiverOf c receiver).map fun o => ⟨c, f, some o⟩

structure Widened (w u : World η) : Prop where
  registry : Widens w.registry u.registry
  heap : u.heap = w.heap

theorem Like.widened (like : w.Like u) : w.Widened u := ⟨like.registry ▸ .refl, like.heap⟩

theorem Widened.trans (first : w.Widened v) (second : v.Widened u) : w.Widened u :=
  ⟨first.registry.trans second.registry, second.heap.trans first.heap⟩

/-- Only the slots of place `p` have changed, and they hold value `x`. -/
inductive Puts (w : World η) (p : FieldPlace) (x : Value) (u : World η) : Prop where
  | static {r : Registry} {slots : Array Slot} (holder : p.holder = none)
      (widens : Widens w.registry r)
      (writes : Slot.Writes (r.state p.cls).statics p.field.offset x slots)
      (registry : u.registry = r.modifyState p.cls ({ · with statics := slots }))
      (heap : u.heap = w.heap)
  | own {o : ObjectId} {slots : Array Slot} (holder : p.holder = some o)
      (widens : Widens w.registry u.registry)
      (writes : Slot.Writes (w.heap.get o).fields p.field.offset x slots)
      (heap : u.heap = w.heap.modify o fun _ => { w.heap.get o with fields := slots })

variable {p q : FieldPlace} {x : Value}

theorem Puts.widened (widened : w.Widened v) (puts : v.Puts p x u) : w.Puts p x u := by
  cases puts with
  | static holder widens writes registry heap =>
    exact .static holder (widened.registry.trans widens) writes registry (heap.trans widened.heap)
  | own holder widens writes heap =>
    rw [widened.heap] at writes heap
    exact .own holder (widened.registry.trans widens) writes heap

theorem Puts.later (built : w.registry.Built) (puts : w.Puts p x u) :
    u.registry.Built ∧ Later w.registry u.registry := by
  cases puts with
  | static _ widens _ registry _ =>
    rw [registry]
    exact ⟨(widens.built built).modifyState _ _,
      (widens.extends built.ordered).later.trans (.modifyState _ _)⟩
  | own _ widens _ _ => exact ⟨widens.built built, (widens.extends built.ordered).later⟩

/-- What a place of a class that is loaded gives, when only array classes are new. -/
theorem Widened.valueAt? (widened : w.Widened u) (there : q.cls.index < w.registry.loaded.size) :
    u.valueAt? q = w.valueAt? q := by
  unfold World.valueAt?
  rw [widened.heap, readStatic, readStatic, widened.registry.grows.state there]

theorem Place.there (place : w.Place q) : q.cls.index < w.registry.loaded.size := by
  apply Nat.lt_of_not_le
  intro outside
  have declared := place.declared
  rw [World.cls, cls_of_unloaded outside] at declared
  cases declared

theorem Puts.value (puts : w.Puts p x u) (there : p.cls.index < w.registry.loaded.size)
    (type : x.primitive? = p.field.type.primitive?) : u.valueAt? p = some x := by
  unfold World.valueAt?
  cases puts with
  | @static r slots holder widens writes registry heap =>
    have inside : p.cls.index < r.loaded.size := Nat.lt_of_lt_of_le there widens.size
    simp only [holder, readStatic]
    rw [registry, state_modifyState, if_pos ⟨rfl, inside⟩, ← type]
    exact writes.read
  | @own o slots holder widens writes heap =>
    have inside : o.index < w.heap.objects.size := by
      apply Nat.lt_of_not_le
      intro outside
      have room := writes.inside
      have positive := x.length_slots_pos
      rw [Heap.get, Array.getElem?_eq_none outside] at room
      exact absurd room (Nat.not_le.mpr (Nat.lt_of_lt_of_le positive (Nat.le_add_left _ _)))
    simp only [holder, Heap.readField, Object.readField]
    rw [heap, Heap.get_modify, if_pos ⟨rfl, inside⟩, ← type]
    exact writes.read

theorem Puts.object (puts : w.Puts p x u) (o : ObjectId) :
    u.heap.get o = w.heap.get o ∨
      p.holder = some o ∧ ∃ fields, u.heap.get o = { w.heap.get o with fields } := by
  cases puts with
  | static _ _ _ _ heap =>
    left
    rw [heap]
  | @own h slots holder widens writes heap =>
    rw [heap, Heap.get_modify]
    split
    · rename_i same
      obtain rfl := same.1
      exact .inr ⟨holder, slots, rfl⟩
    · exact .inl rfl

theorem Puts.classOf (puts : w.Puts p x u) (o : ObjectId) : u.classOf o = w.classOf o := by
  rcases puts.object o with same | ⟨-, fields, same⟩
  · rw [World.classOf, Heap.classOf, same]
    rfl
  · rw [World.classOf, Heap.classOf, same]
    rfl

theorem Puts.phase (puts : w.Puts p x u) {d : ClassId} (there : d.index < w.registry.loaded.size) :
    (u.registry.state d).phase = (w.registry.state d).phase := by
  cases puts with
  | static _ widens _ registry _ =>
    rw [registry, state_modifyState]
    split <;> rw [widens.grows.state there]
  | own _ widens _ _ => rw [widens.grows.state there]

/-- No other place is touched, if the one that is belongs to its object by inheritance. -/
theorem Puts.other (built : w.registry.Built) (puts : w.Puts p x u)
    (type : x.primitive? = p.field.type.primitive?) (declared : p.field ∈ (w.cls p.cls).fields)
    (static : p.holder = none ↔ p.field.isStatic = true) (place : w.Place q) (other : q ≠ p)
    (inherits : ∀ o, p.holder = some o → q.holder = some o → w.registry.Inherits (w.classOf o) p.cls) :
    u.valueAt? q = w.valueAt? q := by
  have there := place.there
  unfold World.valueAt?
  cases puts with
  | static holder widens writes registry heap =>
    cases holder' : q.holder with
    | some o => rw [heap]
    | none =>
      simp only [readStatic]
      rw [registry, state_modifyState]
      split
      · rename_i same
        have declared' := place.declared
        rw [same.1] at declared'
        have apart := built.apart_statics declared (static.mp holder) declared'
          (place.static.mp holder') (FieldPlace.field_ne other same.1.symm (holder.trans holder'.symm))
        rw [same.1] at there ⊢
        rw [widens.grows.state there] at writes ⊢
        exact writes.read_apart type apart
      · rw [widens.grows.state there]
  | @own h slots holder widens writes heap =>
    cases holder' : q.holder with
    | none =>
      simp only [readStatic]
      rw [widens.grows.state there]
    | some o =>
      simp only [Heap.readField, Object.readField]
      rw [heap, Heap.get_modify]
      split
      · rename_i same
        obtain rfl := same.1
        have own : p.field.isStatic = false := by
          rw [← Bool.not_eq_true, ← static, holder]
          exact Option.some_ne_none _
        have own' : q.field.isStatic = false := by
          rw [← Bool.not_eq_true, ← place.static, holder']
          exact Option.some_ne_none _
        have apart := built.apart (inherits h holder holder') (place.inherits h holder') declared own
          place.declared own' (Classical.or_iff_not_imp_left.mpr fun same =>
            FieldPlace.field_ne other (Classical.not_not.mp same) (holder.trans holder'.symm))
        exact writes.read_apart type apart
      · rfl

theorem inherits_of_accepted (stocked : Heap.Stocked w.registry w.heap) {o : ObjectId}
    (accepted : w.registry.assignable (w.classOf o) c = true) {f : Field}
    (declared : f ∈ (w.cls c).fields) (slots : 0 < (w.heap.get o).fields.size)
    (direct : (w.cls c).isInterface = true → w.classOf o = c) :
    w.registry.Inherits (w.classOf o) c := by
  have built := stocked.built
  have there : c.index < w.registry.loaded.size := by
    apply Nat.lt_of_not_le
    intro outside
    rw [World.cls, cls_of_unloaded outside] at declared
    cases declared
  have ordinary : (w.registry.cls c).kind = .ordinary := by
    by_contra other
    rw [World.cls, (built.unstored there other).1] at declared
    cases declared
  by_cases same : w.classOf o = c
  · exact same ▸ .refl
  · have notInterface : (w.registry.cls c).isInterface = false := by
      rw [← Bool.not_eq_true]
      exact fun interface => same (direct interface)
    rw [assignable, assignableWithin, if_neg same, ordinary] at accepted
    cases kind : (w.registry.cls (w.classOf o)).kind with
    | primitive p =>
      rw [kind] at accepted
      cases accepted
    | array e n =>
      have bare := stocked.array_bare (o := o) (by
        rw [Class.isArray, show (w.registry.cls (w.heap.classOf o)).kind = .array e n from kind])
      omega
    | ordinary =>
      rw [kind] at accepted
      simp only [notInterface, Bool.false_eq_true, if_false] at accepted
      exact (contains_tail_superChain built.ordered same).mp accepted

theorem receiverOf_ok {o : ObjectId} (accepted : w.receiverOf c receiver = .ok o) :
    receiver = some o ∧ w.registry.assignable (w.classOf o) c = true := by
  unfold receiverOf at accepted
  split at accepted
  · cases accepted
  · split at accepted
    · rename_i assignable
      cases accepted
      exact ⟨rfl, assignable⟩
    · cases accepted

theorem Like.receiverOf (like : w.Like v) (c : ClassId)
    (receiver : Reference) : v.receiverOf c receiver = w.receiverOf c receiver := by
  cases receiver with
  | none => rfl
  | some o =>
    unfold World.receiverOf World.classOf
    rw [like.registry, like.heap]

structure Located (w : World η) (c : ClassId) (slot : Nat) (receiver : Reference) (p : FieldPlace) :
    Prop where
  cls : p.cls = c
  field : (w.cls c).field? slot = some p.field
  static : p.holder = none ↔ p.field.isStatic = true
  accepted : ∀ o, p.holder = some o → w.receiverOf c receiver = .ok o

theorem placeOf_ok (found : w.placeOf c slot receiver = .ok p) : w.Located c slot receiver p := by
  unfold placeOf at found
  split at found
  · cases found
  · rename_i f declared
    split at found
    · rename_i static
      cases found
      exact ⟨rfl, declared, iff_of_true rfl static, fun _ same => by cases same⟩
    · rename_i own
      cases accepted : w.receiverOf c receiver with
      | error f =>
        rw [accepted] at found
        cases found
      | ok o =>
        rw [accepted] at found
        cases found
        exact ⟨rfl, declared, iff_of_false (Option.some_ne_none o) own, fun _ same => by cases same; exact accepted⟩

theorem Located.there (located : w.Located c slot receiver p) :
    c.index < w.registry.loaded.size ∧ p.field ∈ (w.cls c).fields := by
  have declared : p.field ∈ (w.cls c).fields := List.mem_of_getElem? located.field
  refine ⟨Nat.lt_of_not_le fun outside => ?_, declared⟩
  rw [World.cls, cls_of_unloaded outside] at declared
  cases declared

theorem Puts.placeOf (stocked : Heap.Stocked w.registry w.heap)
    (found : w.placeOf c slot receiver = .ok p) (puts : w.Puts p x u) :
    u.placeOf c slot receiver = .ok p := by
  have located := placeOf_ok found
  have there := located.there.1
  obtain ⟨-, later⟩ := puts.later stocked.built
  have receivers : u.receiverOf c receiver = w.receiverOf c receiver := by
    cases receiver with
    | none => rfl
    | some o =>
      have inside : (w.classOf o).index < w.registry.loaded.size := (stocked.room o).there
      unfold World.receiverOf
      dsimp only
      rw [puts.classOf, later.assignable stocked.built.ordered inside there]
  rw [← found]
  unfold World.placeOf World.cls
  rw [later.cls c there, receivers]

theorem Puts.accounting (puts : w.Puts p x u) : u.heap.accounting = w.heap.accounting := by
  cases puts with
  | static _ _ _ _ heap => rw [heap]
  | own _ _ _ heap =>
    rw [heap]
    rfl

end World

namespace Exec
open World Registry
variable {η : Type} {code : Code η} {w v u : World η} {c : ClassId} {slot : Nat}
  {receiver : Reference} {p : FieldPlace} {x : Value}

theorem runOn_receiverOf (c : ClassId) (receiver : Reference) :
    (receiverOf c receiver).runOn w = (w.receiverOf c receiver, w) := by
  cases receiver with
  | none => rfl
  | some o =>
    unfold receiverOf World.receiverOf
    rw [Atomic.runOn_get_bind]
    dsimp only
    split <;> rfl

theorem gives_locateField (initialized : (w.registry.state c).phase = .initialized) :
    Gives code w (locateField c slot receiver) fun r u => r = w.placeOf c slot receiver ∧ w.Like u := by
  unfold locateField
  refine gives_bind (P := fun r u => r = .ok (w.cls c) ∧ w.Like u)
    (gives_ask fun refs => ⟨rfl, .during w refs⟩) ?_ ?_
  · intro a v ⟨same, like⟩
    cases same
    have phase : (v.registry.state c).phase = .initialized := by rw [like.registry, initialized]
    unfold World.placeOf
    cases (w.cls c).field? slot with
    | none => exact gives_throw ⟨rfl, like⟩
    | some f =>
      dsimp only
      split
      · refine gives_bind (gives_initializeClass phase) ?_ ?_
        · intro _ v' ⟨_, like'⟩
          exact gives_pure ⟨rfl, like.trans like'⟩
        · intro _ _ ⟨same, _⟩
          cases same
      · refine gives_bind (P := fun r v' => r = w.receiverOf c receiver ∧ w.Like v') ?_ ?_ ?_
        · apply gives_act
          intro refs
          have during := like.trans (.during v refs)
          rw [runOn_receiverOf, during.receiverOf]
          exact ⟨rfl, during⟩
        · intro o v' ⟨same, like'⟩
          rw [← same]
          exact gives_pure ⟨rfl, like'⟩
        · intro f v' ⟨same, like'⟩
          rw [← same]
          exact ⟨rfl, like'⟩
  · intro f v ⟨same, _⟩
    cases same

/-! Writing. -/

theorem writePlace_cases (p : FieldPlace) (x : Value) :
    (∃ u, (writePlace p x).runOn w = (.ok (), u) ∧ w.Puts p x u) ∨
      ∃ f, (writePlace p x).runOn w = (.error f, w) := by
  unfold writePlace
  cases holder : p.holder with
  | none =>
    cases wrote : Slot.write? (w.registry.state p.cls).statics p.field.offset x with
    | none =>
      right
      refine ⟨.unwritableField p.field.name, ?_⟩
      rw [Atomic.runOn_bind, Atomic.runOn_writeStatic, writeStatic?, wrote]
      rfl
    | some slots =>
      left
      have writes := Slot.write?_eq_some wrote
      let r := w.registry.modifyState p.cls ({ · with statics := slots })
      refine ⟨{ w with registry := r }, ?_, .static holder .refl writes rfl rfl⟩
      rw [Atomic.runOn_bind, Atomic.runOn_writeStatic, writeStatic?, wrote]
      rfl
  | some o =>
    cases wrote : Slot.write? (w.heap.get o).fields p.field.offset x with
    | none =>
      right
      refine ⟨.unwritableField p.field.name, ?_⟩
      rw [Atomic.runOn_bind, Atomic.runOn_writeField, Heap.writeField?, Object.writeField?, wrote]
      rfl
    | some slots =>
      left
      have writes := Slot.write?_eq_some wrote
      let heap := w.heap.modify o fun _ => { w.heap.get o with fields := slots }
      refine ⟨{ w with heap }, ?_, .own holder .refl writes rfl⟩
      rw [Atomic.runOn_bind, Atomic.runOn_writeField, Heap.writeField?, Object.writeField?, wrote]
      rfl

/-! Stores. -/

/-- A reflective store: of a primitive value, or of an object, with the class of the field's type if
the caller has it. -/
inductive Store where
  | primitive (value : Value)
  | object (given : Option ClassId) (value : Reference)

def Store.run (s : Store) (c : ClassId) (slot : Nat) (receiver : Reference) : Exec η Unit :=
  match s with
  | .primitive value => setPrimitiveField c slot receiver value
  | .object given value => setField c slot receiver given value

def Store.value? (s : Store) (w : World η) (t : FieldType) : Option Value :=
  match t.primitive?, s with
  | some p, .primitive value => value.widen p
  | some p, .object _ value => (value.bind (Atomic.unbox? w)).bind (·.widen p)
  | none, .primitive _ => none
  | none, .object _ value => some (.ref value)

theorem Store.primitive?_value? {s : Store} {t : FieldType} (converted : s.value? w t = some x) :
    x.primitive? = t.primitive? := by
  unfold Store.value? at converted
  cases type : t.primitive? with
  | none =>
    rw [type] at converted
    cases s with
    | primitive value => cases converted
    | object given value =>
      cases converted
      rfl
  | some p =>
    rw [type] at converted
    cases s with
    | primitive value => exact Value.primitive?_widen converted
    | object given value =>
      obtain ⟨v, -, widened⟩ := Option.bind_eq_some_iff.mp converted
      exact Value.primitive?_widen widened

theorem Store.value?_like (s : Store) (like : w.Like v) (t : FieldType) :
    s.value? v t = s.value? w t := by
  have unboxed : Atomic.unbox? v = Atomic.unbox? w := by
    funext o
    unfold Atomic.unbox? World.cls World.classOf
    rw [like.registry, like.heap]
  unfold Store.value?
  rw [unboxed]

theorem isOfType_widens (built : w.registry.Built) (o : ObjectId) (name : String)
    (given : Option ClassId) (loader : Reference) :
    ∃ b u, (Atomic.isOfType o name given loader).runOn w = (.ok b, u) ∧ w.Widened u := by
  unfold Atomic.isOfType
  rw [Atomic.runOn_get_bind]
  cases given.filter fun c => (w.cls c).name == name with
  | some k => exact ⟨_, w, rfl, .refl, rfl⟩
  | none =>
    exact ⟨_, { w with registry := (w.registry.inScope name loader).2 }, rfl,
      inScope_widens built.ordered name loader, rfl⟩

/-- A conversion that succeeds gives the value to be stored; it loads array classes at most. -/
theorem convert_stores (built : w.registry.Built) (given : Option ClassId) (value : Reference)
    (t : FieldType) (loader : Reference) (mismatch : Failure) :
    ∃ r u, (Atomic.convert value t given loader mismatch).runOn w = (r, u) ∧ w.Widened u ∧
      ∀ x, r = .ok x → (Store.object given value).value? w t = some x := by
  unfold Atomic.convert Store.value?
  cases t.primitive? with
  | some p =>
    dsimp only
    rw [Atomic.runOn_get_bind]
    cases (value.bind (Atomic.unbox? w)).bind (·.widen p) with
    | none => exact ⟨_, w, rfl, ⟨.refl, rfl⟩, fun x same => by cases same⟩
    | some v => exact ⟨.ok v, w, rfl, ⟨.refl, rfl⟩, fun x same => by cases same; rfl⟩
  | none =>
    cases value with
    | none => exact ⟨.ok .null, w, rfl, ⟨.refl, rfl⟩, fun x same => by cases same; rfl⟩
    | some o =>
      obtain ⟨b, u, ran, widened⟩ := isOfType_widens built o t.className given loader
      dsimp only
      rw [Atomic.runOn_bind, ran]
      cases b with
      | true => exact ⟨_, u, rfl, widened, fun x same => by cases same; rfl⟩
      | false => exact ⟨_, u, rfl, widened, fun x same => by cases same⟩

/-- What a store comes to: its value is in its place, or nothing has changed. -/
inductive Comes (w : World η) (s : Store) (c : ClassId) (slot : Nat) (receiver : Reference) :
    Except Failure Unit → World η → Prop where
  | stored {p : FieldPlace} {x : Value} {u : World η} (found : w.placeOf c slot receiver = .ok p)
      (converted : s.value? w p.field.type = some x) (puts : w.Puts p x u) :
      Comes w s c slot receiver (.ok ()) u
  | refused {f : Failure} {u : World η} (widened : w.Widened u) :
      Comes w s c slot receiver (.error f) u

theorem gives_writePlace {s : Store} (found : w.placeOf c slot receiver = .ok p)
    (converted : s.value? w p.field.type = some x) (widened : w.Widened v) :
    Gives code v (act (writePlace p x)) (Comes w s c slot receiver) := by
  apply gives_act
  intro refs
  have before := widened.trans (Like.during v refs).widened
  rcases writePlace_cases (w := v.during refs) p x with ⟨u, ran, puts⟩ | ⟨f, ran⟩
  · rw [ran]
    exact .stored found converted (puts.widened before)
  · rw [ran]
    exact .refused before

theorem gives_store (built : w.registry.Built)
    (initialized : (w.registry.state c).phase = .initialized) (s : Store) :
    Gives code w (s.run c slot receiver) (Comes w s c slot receiver) := by
  cases s with
  | primitive value =>
    refine gives_bind (gives_locateField initialized) ?_ ?_
    · intro p v ⟨found, like⟩
      have converted : (Store.primitive value).value? w p.field.type =
          p.field.type.primitive?.bind value.widen := by
        unfold Store.value?
        cases p.field.type.primitive? <;> rfl
      cases stored : p.field.type.primitive?.bind value.widen with
      | none => exact gives_throw (.refused like.widened)
      | some x => exact gives_writePlace found.symm (converted.trans stored) like.widened
    · intro f v ⟨_, like⟩
      exact .refused like.widened
  | object given value =>
    refine gives_bind (gives_locateField initialized) ?_ ?_
    · intro p v ⟨found, like⟩
      refine gives_bind (P := fun r v' => w.Like v' ∧ ∃ loader, r = .ok loader)
        (gives_ask fun refs => ⟨like.trans (.during v refs), _, rfl⟩) ?_ ?_
      · intro loader v' ⟨like', _⟩
        refine gives_bind (P := fun r u => w.Widened u ∧
          ∀ x, r = .ok x → (Store.object given value).value? w p.field.type = some x) ?_ ?_ ?_
        · apply gives_act
          intro refs
          have during := like'.trans (.during v' refs)
          have built' : (v'.during refs).registry.Built := by
            rw [during.registry]
            exact built
          obtain ⟨r, u, ran, widened, converted⟩ := convert_stores built' given value
            p.field.type loader .fieldTypeMismatch
          rw [ran]
          refine ⟨during.widened.trans widened, fun x same => ?_⟩
          rw [← Store.value?_like _ during]
          exact converted x same
        · intro x u ⟨widened, converted⟩
          exact gives_writePlace found.symm (converted x rfl) widened
        · intro f u ⟨widened, _⟩
          exact .refused widened
      · intro f v' ⟨_, loader, same⟩
        cases same
    · intro f v ⟨_, like⟩
      exact .refused like.widened

/-! Reading. -/

theorem gives_readPlace (read : w.valueAt? p = some x) (like : w.Like v) :
    Gives code v (act (readPlace p)) fun r u => r = .ok x ∧ w.Like u := by
  apply gives_act
  intro refs
  have during := like.trans (.during v refs)
  have read' : (v.during refs).valueAt? p = some x := by
    rw [← read]
    unfold World.valueAt?
    rw [during.registry, during.heap]
  unfold readPlace
  rw [Atomic.runOn_get_bind]
  unfold World.valueAt? at read'
  cases holder : p.holder with
  | none =>
    simp only [holder] at read' ⊢
    rw [read']
    exact ⟨rfl, during⟩
  | some o =>
    simp only [holder] at read' ⊢
    rw [read']
    exact ⟨rfl, during⟩

theorem gives_getPrimitiveField (initialized : (w.registry.state c).phase = .initialized)
    (found : w.placeOf c slot receiver = .ok p) (read : w.valueAt? p = some x)
    (type : x.primitive? = p.field.type.primitive?) (want : Primitive) :
    Gives code w (getPrimitiveField c slot receiver want) fun r u =>
      r = (x.widen want).elim (.error .fieldTypeMismatch) .ok ∧ w.Like u := by
  refine gives_bind (gives_locateField initialized) ?_ ?_
  · intro p' v ⟨same, like⟩
    cases found.symm.trans same.symm
    cases reference : p.field.type.isReference with
    | true =>
      have none : x.primitive? = none := by
        rw [type]
        exact Option.isNone_iff_eq_none.mp reference
      have mismatch : x.widen want = Option.none := by
        unfold Value.widen
        rw [none]
      rw [mismatch]
      exact gives_throw ⟨rfl, like⟩
    | false =>
      refine gives_bind (gives_readPlace read like) ?_ ?_
      · intro x' u ⟨same, like'⟩
        cases same
        cases x.widen want with
        | none => exact gives_throw ⟨rfl, like'⟩
        | some y => exact gives_pure ⟨rfl, like'⟩
      · intro f u ⟨same, _⟩
        cases same
  · intro f v ⟨same, _⟩
    rw [found] at same
    cases same

theorem gives_getField (built : w.registry.Built) (wrappers : w.registry.HasWrappers)
    (unlimited : w.heap.accounting.maxBytes = 0)
    (initialized : (w.registry.state c).phase = .initialized)
    (found : w.placeOf c slot receiver = .ok p) (read : w.valueAt? p = some x) :
    Gives code w (getField c slot receiver) fun r u => ∃ b, r = .ok b ∧ u.StandsFor b x := by
  refine gives_bind (gives_locateField initialized) ?_ ?_
  · intro p' v ⟨same, like⟩
    cases found.symm.trans same.symm
    refine gives_bind (gives_readPlace read like) ?_ ?_
    · intro x' u ⟨same, like'⟩
      cases same
      apply gives_act
      intro refs
      have during := like'.trans (.during u refs)
      obtain ⟨b, u', ran, -, stands⟩ := Atomic.box_stands (w := u.during refs)
        (by rw [during.registry]; exact built) (by rw [during.registry]; exact wrappers)
        (by rw [during.heap]; exact unlimited) x
      rw [ran]
      exact ⟨b, rfl, stands⟩
    · intro f u ⟨same, _⟩
      cases same
  · intro f v ⟨same, _⟩
    rw [found] at same
    cases same

/-! The laws of stores. -/

/-- What is so after value `x` has been stored at place `p`, which belongs to a field of class `c`. -/
structure Stored (code : Code η) (w : World η) (c : ClassId) (slot : Nat) (receiver : Reference)
    (p : FieldPlace) (x : Value) (u : World η) : Prop where
  widened : ∀ want, Gives code u (getPrimitiveField c slot receiver want) fun r _ =>
    r = (x.widen want).elim (.error .fieldTypeMismatch) .ok
  stands : Gives code u (getField c slot receiver) fun r v => ∃ b, r = .ok b ∧ v.StandsFor b x
  others : ∀ q, w.Place q → q ≠ p →
    ((w.cls c).isInterface = true → ∀ o, p.holder = some o → q.holder = some o → w.classOf o = c) →
    u.valueAt? q = w.valueAt? q
  objects : ∀ o, u.heap.get o = w.heap.get o ∨
    p.holder = some o ∧ ∃ fields, u.heap.get o = { w.heap.get o with fields }

theorem stored_of_puts (stocked : Heap.Stocked w.registry w.heap) (wrappers : w.registry.HasWrappers)
    (unlimited : w.heap.accounting.maxBytes = 0)
    (initialized : (w.registry.state c).phase = .initialized)
    (found : w.placeOf c slot receiver = .ok p) (type : x.primitive? = p.field.type.primitive?)
    (puts : w.Puts p x u) : Stored code w c slot receiver p x u := by
  have located := placeOf_ok found
  obtain ⟨there, declared⟩ := located.there
  obtain ⟨built, later⟩ := puts.later stocked.built
  have cls := located.cls
  subst cls
  have found' := puts.placeOf stocked found
  have read := puts.value there type
  have initialized' : (u.registry.state p.cls).phase = .initialized := by
    rw [puts.phase there, initialized]
  constructor
  · intro want
    exact (gives_getPrimitiveField initialized' found' read type want).weaken fun _ _ => And.left
  · exact gives_getField built (wrappers.later built later) (by rw [puts.accounting, unlimited])
      initialized' found' read
  · intro q place other direct
    refine puts.other stocked.built type declared located.static place other ?_
    intro o holder holder'
    obtain ⟨-, accepted⟩ := receiverOf_ok (located.accepted o holder)
    refine inherits_of_accepted stocked accepted declared ?_ fun interface =>
      direct interface o holder holder'
    cases puts with
    | static none _ _ _ _ =>
      rw [none] at holder
      cases holder
    | own some _ writes _ =>
      cases some.symm.trans holder
      have room := writes.inside
      have positive := x.length_slots_pos
      omega
  · exact puts.object

/-- A store of a value that succeeds can be read back, as any type that the value widens to, and
leaves all else alone; one that fails changes no field. It always ends, for its class is initialised
and no code is run. -/
theorem store_laws (stocked : Heap.Stocked w.registry w.heap) (wrappers : w.registry.HasWrappers)
    (unlimited : w.heap.accounting.maxBytes = 0)
    (initialized : (w.registry.state c).phase = .initialized) (s : Store) :
    Gives code w (s.run c slot receiver) fun r u =>
      match r with
      | .ok () => ∃ p x, w.placeOf c slot receiver = .ok p ∧
          s.value? w p.field.type = some x ∧ Stored code w c slot receiver p x u
      | .error _ => ∀ q, w.Place q → u.valueAt? q = w.valueAt? q := by
  apply (gives_store stocked.built initialized s).weaken
  intro r u comes
  cases comes with
  | @stored p x _ found converted puts =>
    exact ⟨p, x, found, converted,
      stored_of_puts stocked wrappers unlimited initialized found
        (Store.primitive?_value? converted) puts⟩
  | refused widened => exact fun q place => widened.valueAt? place.there

def tagged : Registry :=
  let tag := (ClassDef.interfaceNamed "t/Tag").field "x" "I" .isPublic
  let item := ((ClassDef.named "t/Item").implementing "t/Tag").field "y" "I" .isPublic
  (Universe.roots ++ Universe.wrappers ++ [tag, item]).foldl (fun r d => (r.define d none).2) empty

theorem reaches_tagged : Reaches empty tagged := by
  have defined (ds : List ClassDef) {r : Registry} (reached : Reaches empty r) :
      Reaches empty (ds.foldl (fun r d => (r.define d none).2) r) := by
    induction ds generalizing r with
    | nil => exact reached
    | cons d ds ih => exact ih (reached.tail (.define d none))
  exact defined _ .refl

def taggedReady : Registry :=
  (tagged.modifyState ⟨27⟩ ({ · with phase := .initialized })).modifyState ⟨28⟩
    ({ · with phase := .initialized })

def tagField : Field := ⟨"x", "I", .primitive .int, .isPublic, 0⟩

def itemField : Field := ⟨"y", "I", .primitive .int, .isPublic, 0⟩

def taggedWorld : World Unit :=
  { Boot.initialWorld .silent taggedReady 0 with
    heap := ((Heap.empty 0 0).allocate { cls := ⟨28⟩, fields := #[.int 0], payload := .plain }).2 }

theorem taggedReady_evaluated :
    28 < taggedReady.loaded.size ∧ (taggedReady.cls ⟨27⟩).fields = [tagField] ∧
      (taggedReady.cls ⟨28⟩).fields = [itemField] ∧ (taggedReady.cls ⟨28⟩).kind = .ordinary ∧
      (taggedReady.cls ⟨28⟩).isAbstract = false ∧ (taggedReady.cls ⟨28⟩).template = [.int 0] ∧
      taggedReady.assignable ⟨28⟩ ⟨27⟩ = true ∧
      (taggedReady.state ⟨27⟩).phase = .initialized ∧
      (taggedReady.state ⟨28⟩).phase = .initialized ∧
      ∀ p ∈ Primitive.all, p ≠ .void → (taggedReady.find? p.wrapper none).any (fun c =>
        ((taggedReady.cls c).declaredField? Atomic.valueField).any fun f =>
          !f.isStatic && f.type == .primitive p) = true := by
  decide +kernel

theorem stocked_taggedWorld : Heap.Stocked taggedReady taggedWorld.heap := by
  have built : taggedReady.Built := ((reaches_tagged.built .empty).modifyState _ _).modifyState _ _
  have later : Later empty taggedReady :=
    ((reaches_tagged.later .empty).trans (.modifyState _ _)).trans (.modifyState _ _)
  obtain ⟨there, -, -, ordinary, concrete, template, -⟩ := taggedReady_evaluated
  have made : Heap.newInstance taggedReady ⟨28⟩ =
      .ok { cls := ⟨28⟩, fields := #[.int 0], payload := .plain } := by
    simp [Heap.newInstance, Class.isArray, Class.isPrimitive, ordinary, template]
  exact (Heap.Stocked.classes (.empty 0 0) built later).allocate (.plain there made)

theorem hasWrappers_taggedReady : taggedReady.HasWrappers := by
  intro p inhabited
  obtain ⟨-, -, -, -, -, -, -, -, -, each⟩ := taggedReady_evaluated
  have wrapped := each p (by cases p <;> decide) inhabited
  obtain ⟨c, found, declares⟩ := (Option.any_eq_true _ _).mp wrapped
  obtain ⟨f, declared, valued⟩ := (Option.any_eq_true _ _).mp declares
  simp only [Bool.and_eq_true, Bool.not_eq_true', beq_iff_eq] at valued
  exact ⟨c, f, found, declared, valued.1, valued.2⟩

theorem placeOf_tag : taggedWorld.placeOf ⟨27⟩ 0 (some ⟨0⟩) = .ok ⟨⟨27⟩, tagField, some ⟨0⟩⟩ := by
  obtain ⟨-, fields, -, -, -, -, accepted, -⟩ := taggedReady_evaluated
  have field : (taggedWorld.cls ⟨27⟩).field? 0 = some tagField := by
    rw [Class.field?, World.cls, show taggedWorld.registry = taggedReady from rfl, fields]
    rfl
  have receiver : taggedWorld.receiverOf ⟨27⟩ (some ⟨0⟩) = .ok ⟨0⟩ := if_pos accepted
  unfold World.placeOf
  rw [field, receiver]
  rfl

theorem placeOf_item : taggedWorld.placeOf ⟨28⟩ 0 (some ⟨0⟩) = .ok ⟨⟨28⟩, itemField, some ⟨0⟩⟩ := by
  obtain ⟨-, -, fields, -⟩ := taggedReady_evaluated
  have field : (taggedWorld.cls ⟨28⟩).field? 0 = some itemField := by
    rw [Class.field?, World.cls, show taggedWorld.registry = taggedReady from rfl, fields]
    rfl
  unfold World.placeOf
  rw [field]
  rfl

/-- A byte that is stored in the field of the class is there as an integer. -/
theorem tagged_store_laws :
    Heap.Stocked taggedReady taggedWorld.heap ∧ taggedReady.HasWrappers ∧
      taggedWorld.heap.accounting.maxBytes = 0 ∧
      (taggedReady.state ⟨28⟩).phase = .initialized ∧
      ∃ e u, Ends noCode Undisturbed taggedWorld (.new ⟨0⟩ 8)
          ((Store.primitive (.byte 5)).run ⟨28⟩ 0 (some ⟨0⟩)) (.ok ()) e u ∧
        Stored noCode taggedWorld ⟨28⟩ 0 (some ⟨0⟩) ⟨⟨28⟩, itemField, some ⟨0⟩⟩ (.int 5) u := by
  obtain ⟨-, -, -, -, -, -, -, -, initialized, -⟩ := taggedReady_evaluated
  refine ⟨stocked_taggedWorld, hasWrappers_taggedReady, rfl, initialized, ?_⟩
  let ended := (((Store.primitive (.byte 5)).run ⟨28⟩ 0 (some ⟨0⟩)).runIn (.new ⟨0⟩ 8)).runAlone
    noCode 16 taggedWorld
  have result : ended.map (·.1.1) = some (.ok ()) := by decide +kernel
  obtain ⟨⟨⟨r, e⟩, u⟩, run, same⟩ := Option.map_eq_some_iff.mp result
  cases same
  have ends := Task.runs_of_runAlone undisturbed_refl run
  have laws := @store_laws Unit noCode taggedWorld ⟨28⟩ 0 (some ⟨0⟩) stocked_taggedWorld
    hasWrappers_taggedReady rfl initialized (.primitive (.byte 5))
  obtain ⟨p, x, found, converted, stored⟩ := laws.all _ _ e u ends
  cases placeOf_item.symm.trans found
  cases converted
  exact ⟨e, u, ends, stored⟩

/-- The store into the field of the interface is accepted, and it overwrites the field of the class.
-/
theorem tagged_store_overwrites :
    Heap.Stocked taggedReady taggedWorld.heap ∧ taggedReady.HasWrappers ∧
      taggedWorld.heap.accounting.maxBytes = 0 ∧
      (taggedReady.state ⟨27⟩).phase = .initialized ∧
      ∃ q e u, Ends noCode Undisturbed taggedWorld (.new ⟨0⟩ 8)
          ((Store.primitive (.int 5)).run ⟨27⟩ 0 (some ⟨0⟩)) (.ok ()) e u ∧
        taggedWorld.placeOf ⟨27⟩ 0 (some ⟨0⟩) = .ok ⟨⟨27⟩, tagField, some ⟨0⟩⟩ ∧
        taggedWorld.Place q ∧ q ≠ ⟨⟨27⟩, tagField, some ⟨0⟩⟩ ∧ u.valueAt? q ≠ taggedWorld.valueAt? q := by
  obtain ⟨-, -, fields, -, -, -, -, initialized, -⟩ := taggedReady_evaluated
  let ended := (((Store.primitive (.int 5)).run ⟨27⟩ 0 (some ⟨0⟩)).runIn (.new ⟨0⟩ 8)).runAlone
    noCode 16 taggedWorld
  have result : ended.map (fun x => (x.1.1, x.2.valueAt? ⟨⟨28⟩, itemField, some ⟨0⟩⟩)) =
      some (.ok (), some (.int 5)) := by decide +kernel
  obtain ⟨⟨⟨r, e⟩, u⟩, run, same⟩ := Option.map_eq_some_iff.mp result
  obtain ⟨rfl, after⟩ := Prod.mk.inj same
  have declared : itemField ∈ (taggedWorld.cls ⟨28⟩).fields := by
    rw [World.cls, show taggedWorld.registry = taggedReady from rfl, fields]
    exact List.mem_singleton_self _
  have place : taggedWorld.Place ⟨⟨28⟩, itemField, some ⟨0⟩⟩ :=
    ⟨declared, iff_of_false (Option.some_ne_none _) (by decide), fun o same => by cases same; exact .refl⟩
  have ends := Task.runs_of_runAlone undisturbed_refl run
  refine ⟨stocked_taggedWorld, hasWrappers_taggedReady, rfl, initialized, _, e, u, ends, placeOf_tag,
    place, ?_, ?_⟩
  · exact fun same => absurd (congrArg (·.cls.index) same) (by decide)
  · rw [after]
    decide

end Exec
end ManagedRuntime
