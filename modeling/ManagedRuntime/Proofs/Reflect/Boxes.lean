import ManagedRuntime.Proofs.Class.ArrayNames
import ManagedRuntime.Proofs.Value.Storage
import ManagedRuntime.Proofs.World.CoreClasses
import ManagedRuntime.Reflect.Boxing

/-!
Boxes for primitive values. Main statements: with the runtime's wrapper classes and no limit on
memory every value is boxed as an object that unboxes to it, and a runtime that has started has
these classes if the embedding program puts nothing in their place.
-/
namespace ManagedRuntime

namespace Registry
variable {r r' : Registry}

structure Wraps (r : Registry) (p : Primitive) (c : ClassId) (f : Field) : Prop where
  found : r.find? p.wrapper none = some c
  declared : (r.cls c).declaredField? Atomic.valueField = some f
  own : f.isStatic = false
  type : f.type = .primitive p

def HasWrappers (r : Registry) : Prop := ∀ p, p ≠ .void → ∃ c f, r.Wraps p c f

theorem Wraps.later {p : Primitive} {c : ClassId} {f : Field} (wraps : r.Wraps p c f)
    (built : r'.Built) (later : Later r r') : r'.Wraps p c f where
  found := later.find? built wraps.found
  declared := by
    rw [later.cls c (find?_known wraps.found).there]
    exact wraps.declared
  own := wraps.own
  type := wraps.type

theorem HasWrappers.later (wrappers : r.HasWrappers) (built : r'.Built) (later : Later r r') :
    r'.HasWrappers := by
  intro p inhabited
  obtain ⟨c, f, wraps⟩ := wrappers p inhabited
  exact ⟨c, f, wraps.later built later⟩

end Registry

theorem Primitive.isArrayName_wrapper (p : Primitive) :
    Registry.isArrayName p.wrapper = false := by
  cases p <;> decide +kernel

/-- The reference is the value itself, or a box of it. -/
def World.StandsFor {η : Type} (w : World η) (b : Reference) (v : Value) : Prop :=
  v = .ref b ∨ ∃ o, b = some o ∧ Atomic.unbox? w o = some v

namespace Atomic
open Registry
variable {η : Type} {w : World η}

theorem boxedType?_wrapper {x : Class} {p : Primitive} (inhabited : p ≠ .void)
    (name : x.name = p.wrapper) (loader : x.loader = none) : boxedType? x = some p := by
  rw [boxedType?, loader, name]
  cases p with
  | void => exact absurd rfl inhabited
  | _ => decide +kernel

theorem runOn_newInstance {c : ClassId} (ordinary : (w.cls c).kind = .ordinary) :
    (newInstance c).runOn w = (allocate
      { cls := c, fields := (w.cls c).template.toArray, payload := .plain }).runOn w := by
  have made : Heap.newInstance w.registry c =
      .ok { cls := c, fields := (w.cls c).template.toArray, payload := .plain } := by
    rw [World.cls] at ordinary
    simp [Heap.newInstance, Class.isArray, Class.isPrimitive, World.cls, ordinary]
  rw [newInstance, runOn_get_bind, made]
  rfl

theorem writeField_fits {o : ObjectId} {offset : Nat} {v : Value}
    (inside : offset + v.slots.length ≤ (w.heap.get o).fields.size) :
    ∃ heap slots, (writeField o offset v).runOn w = (.ok true, { w with heap }) ∧
      Slot.Writes (w.heap.get o).fields offset v slots ∧
      heap = w.heap.modify o fun _ => { w.heap.get o with fields := slots } := by
  obtain ⟨slots, written⟩ := Slot.write?_isSome inside
  refine ⟨_, slots, ?_, Slot.write?_eq_some written, rfl⟩
  have wrote : w.heap.writeField? o offset v =
      some (w.heap.modify o fun _ => { w.heap.get o with fields := slots }) := by
    rw [Heap.writeField?, Object.writeField?, written]
    rfl
  rw [runOn_writeField, wrote]

theorem newInstance_filled {c : ClassId} {f : Field} {v : Value} (built : w.registry.Built)
    (unlimited : w.heap.accounting.maxBytes = 0) (ordinary : (w.cls c).kind = .ordinary)
    (declared : f ∈ (w.cls c).fields) (own : f.isStatic = false)
    (type : v.primitive? = f.type.primitive?) (refused : Failure) :
    ∃ o u, (do
        let o ← newInstance c
        if ← writeField o f.offset v then return some o else throw refused :
          Atomic η Reference).runOn w = (.ok (some o), u) ∧
      u.registry = w.registry ∧ u.classOf o = c ∧
      u.heap.readField o f.offset f.type.primitive? = some v := by
  let fresh : Object := { cls := c, fields := (w.cls c).template.toArray, payload := .plain }
  obtain ⟨heap, accounting, alike, -, allocated⟩ := allocate_unlimited unlimited fresh
  let o : ObjectId := ⟨w.heap.objects.size⟩
  let made : World η := { w with heap := ⟨heap.objects.push fresh, accounting⟩ }
  have object : made.heap.get o = fresh := by
    rw [Heap.get_push, if_pos alike.size.symm]
  have inside : f.offset + v.slots.length ≤ (made.heap.get o).fields.size := by
    have bound := (built.fields_fit declared).inside own
    rw [object, List.size_toArray, v.length_slots, Value.slotCount, type, ← f.type.slotCount_eq]
    exact bound
  obtain ⟨heap', slots, ran, writes, modified⟩ := writeField_fits inside
  have there : o.index < made.heap.objects.size := by
    rw [Array.size_push, alike.size]
    exact Nat.lt_succ_self _
  have result : heap'.get o = { fresh with fields := slots } := by
    rw [modified, Heap.get_modify, if_pos ⟨rfl, there⟩, object]
  refine ⟨o, { made with heap := heap' }, ?_, rfl, congrArg Object.cls result, ?_⟩
  · rw [runOn_bind, runOn_newInstance ordinary, allocated]
    dsimp only
    rw [runOn_bind, ran]
    rfl
  · rw [Heap.readField, result, ← type]
    exact writes.read

theorem box_stands (built : w.registry.Built) (wrappers : w.registry.HasWrappers)
    (unlimited : w.heap.accounting.maxBytes = 0) (v : Value) :
    ∃ b u, (box v).runOn w = (.ok b, u) ∧ u.registry = w.registry ∧ u.StandsFor b v := by
  unfold box
  cases type : v.primitive? with
  | none =>
    cases v with
    | ref r => exact ⟨r, w, rfl, rfl, .inl rfl⟩
    | _ => cases type
  | some p =>
    have inhabited : p ≠ .void := by
      rintro rfl
      cases v <;> cases type
    obtain ⟨c, f, wraps⟩ := wrappers p inhabited
    have known := find?_known wraps.found
    have ordinary := built.keyed.ordinary_of_plain known p.isArrayName_wrapper
    have same : v.primitive? = f.type.primitive? := by rw [type, wraps.type]; rfl
    obtain ⟨o, u, ran, registry, cls, read⟩ := newInstance_filled built unlimited ordinary
      (List.mem_of_find?_eq_some wraps.declared) wraps.own same (.valueNotWritable (w.cls c).name)
    refine ⟨some o, u, ?_, registry, .inr ⟨o, rfl, ?_⟩⟩
    · dsimp only
      rw [runOn_bind, runOn_bootClass p.isArrayName_wrapper wraps.found]
      dsimp only
      rw [runOn_ask_bind, show (w.cls c).declaredField? valueField = some f from wraps.declared]
      exact ran
    · rw [unbox?, cls, World.cls, registry, boxedType?_wrapper inhabited known.name known.loader,
        wraps.declared]
      rw [← same, type] at read
      exact read

/-! Boxing fails for want of a wrapper class, of its field or of memory, never as a call does. -/

def FailsWith {α : Type} (x : Atomic η α) (P : Failure → Prop) : Prop :=
  ∀ w f u, x.runOn w = (.error f, u) → P f

section fails
variable {α β : Type} {P : Failure → Prop}

theorem failsWith_pure (a : α) : FailsWith (pure a : Atomic η α) P := fun _ _ _ ran => by cases ran

theorem failsWith_throw {f : Failure} (known : P f) : FailsWith (throw f : Atomic η α) P :=
  fun _ _ _ ran => by
    cases ran
    exact known

theorem FailsWith.bind {x : Atomic η α} {g : α → Atomic η β} (first : FailsWith x P)
    (rest : ∀ a, FailsWith (g a) P) : FailsWith (x >>= g) P := by
  intro w f u ran
  rw [runOn_bind] at ran
  split at ran
  · exact rest _ _ _ _ ran
  · rename_i g v failed
    cases ran
    exact first _ _ _ failed

end fails

inductive Unboxable : Failure → Prop
  | missing (name : String) : Unboxable (.missingBootClass name)
  | fieldless (name : String) : Unboxable (.noValueField name)
  | noInstance (name : String) : Unboxable (.notInstanceClass name)
  | unwritable (name : String) : Unboxable (.valueNotWritable name)
  | exhausted (requested inUse limit : Nat) : Unboxable (.heapExhausted requested inUse limit)

theorem failsWith_allocate (o : Object) : FailsWith (allocate o : Atomic η _) Unboxable := by
  intro w f u ran
  have comes := allocate_cases w o
  rw [ran] at comes
  cases comes
  exact .exhausted _ _ _

theorem failsWith_newInstance (c : ClassId) : FailsWith (newInstance c : Atomic η _) Unboxable := by
  intro w f u ran
  rw [newInstance, runOn_get_bind] at ran
  cases made : Heap.newInstance w.registry c with
  | ok o =>
    rw [made] at ran
    exact failsWith_allocate o w f u ran
  | error g =>
    rw [made] at ran
    cases ran
    unfold Heap.newInstance at made
    dsimp only at made
    split at made
    · cases made
      exact .noInstance _
    · cases made

theorem failsWith_writeField (o : ObjectId) (offset : Nat) (v : Value) :
    FailsWith (writeField o offset v : Atomic η _) P := by
  intro w f u ran
  rw [runOn_writeField] at ran
  split at ran <;> cases ran

theorem failsWith_box (v : Value) : FailsWith (box v : Atomic η _) Unboxable := by
  unfold box
  cases v.primitive? with
  | none => exact failsWith_pure _
  | some p =>
    have named : FailsWith (bootClass p.wrapper : Atomic η _) Unboxable := by
      refine FailsWith.bind (fun _ _ _ ran => by cases ran) fun found => ?_
      cases found with
      | none => exact failsWith_throw (.missing _)
      | some c => exact failsWith_pure c
    refine named.bind fun c => FailsWith.bind (fun _ _ _ ran => by cases ran) fun x => ?_
    cases x.declaredField? valueField with
    | none => exact failsWith_throw (.fieldless _)
    | some f =>
      refine (failsWith_newInstance c).bind fun o => (failsWith_writeField _ _ _).bind fun b => ?_
      cases b with
      | true => exact failsWith_pure _
      | false => exact failsWith_throw (.unwritable _)

/-- The text about a wrong number of arguments ends like no other of these. -/
theorem Unboxable.not_call {f : Failure} (unboxable : Unboxable f) :
    (∀ g, f ≠ .invocationTarget g) ∧ ∀ text n, f ≠ .wrongArgumentCount text n := by
  have ending {s text : String} {n : Nat} (same : Failure.internal s = .wrongArgumentCount text n) :
      s.toList.reverse.take 2 = ['s', 't'] := by
    cases same
    simp
  constructor
  · rintro g rfl
    cases unboxable
  · intro text n same
    cases unboxable with
    | exhausted => cases same
    | _ =>
      have last := ending same
      simp at last

end Atomic

/-! The wrapper classes of a runtime that has started. -/

theorem Universe.wrapper_defined {p : Primitive} (inhabited : p ≠ .void) :
    ∃ d ∈ Universe.wrappers, d.name = p.wrapper ∧ ∃ m ∈ d.fields, d.fields = [m] ∧
      m.name = Atomic.valueField ∧ m.flags.contains .isStatic = false ∧
      FieldType.parse m.descriptor = .ok (.primitive p) := by
  cases p with
  | void => exact absurd rfl inhabited
  | _ => decide +kernel

/-- A runtime that has started has its wrapper classes, if nothing has been put in their place. -/
theorem Embedding.hasWrappers_boot {η : Type} {e : Embedding η} {w : World η}
    (booted : e.boot = .ok w)
    (kept : ∀ p : Primitive, p ≠ .void → e.classes.find? (·.name == p.wrapper) = none) :
    w.registry.HasWrappers := by
  intro p inhabited
  obtain ⟨d, listed, name, m, -, fields, valued, own, type⟩ := Universe.wrapper_defined inhabited
  have defined : d ∈ Universe.definitions := by
    simp only [Universe.definitions, List.mem_append]
    exact .inl (.inl (.inl (.inr listed)))
  have known := kept p inhabited
  rw [← name] at known
  obtain ⟨c, ⟨known, r₀, superclass, interfaces, makes⟩⟩ := core_made booted defined known
  have laid := makes.fields
  rw [fields, Registry.layFields, type] at laid
  simp only [own, Bool.false_eq_true, if_false, Registry.layFields, Except.map] at laid
  have found := (sane_boot booted).built.keyed.find?_iff.mpr known
  rw [name] at found
  let offset := (r₀.inheritedTemplate (w.registry.cls c)).length
  refine ⟨c, ⟨m.name, m.descriptor, .primitive p, m.flags, offset⟩, found, ?_, own, rfl⟩
  rw [Class.declaredField?, ← Except.ok.inj laid]
  simp [valued, offset]

end ManagedRuntime
