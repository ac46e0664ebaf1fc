import ManagedRuntime.Natives.Threads
import ManagedRuntime.Proofs.Execution.Arguments
import ManagedRuntime.Proofs.Execution.Guarantees
import ManagedRuntime.Proofs.Reflect.Stores

/-!
Thread objects as the runtime writes them. The field in which a thread object refers to the runtime's
object for the thread is looked for by name, from the class of the object upward. Main statement:
creating a thread and detaching it from its object when it ends leave all other fields of the object
alone, whatever other threads do in between, if and only if no class below the class of threads hides
that field.
-/
namespace ManagedRuntime

namespace Registry
variable {r r' : Registry} {c d T : ClassId} {f g : Field} {name : String}

structure ThreadField (r : Registry) (T : ClassId) (f : Field) : Prop where
  known : r.Known "java/lang/Thread" none T
  declared : (r.cls T).declaredField? "vmThread" = some f
  own : f.isStatic = false
  reference : f.type.primitive? = none

/-- No class on the way from `c` up to `T` has an instance field of that name. Of several fields of a
class that have the name the first one counts. -/
def Unshadowed (r : Registry) (c T : ClassId) : Prop :=
  ∀ d g, r.Inherits c d → r.Inherits d T → d ≠ T →
    (r.cls d).declaredField? "vmThread" = some g → g.isStatic = true

theorem ThreadField.later (field : r.ThreadField T f) (later : Later r r') : r'.ThreadField T f where
  known := later.known field.known
  declared := by
    rw [later.cls T field.known.there]
    exact field.declared
  own := field.own
  reference := field.reference

theorem Inherits.there (inherits : r.Inherits c d) (there : d.index < r.loaded.size) :
    c.index < r.loaded.size := by
  rcases inherits.cases_head with rfl | ⟨s, above, -⟩
  · exact there
  · exact Above.there (.inl above)

theorem Unshadowed.later (unshadowed : r.Unshadowed c T) (later : Later r r') (ordered : r.Ordered)
    (there : c.index < r.loaded.size) : r'.Unshadowed c T := by
  intro d g below above other declared
  have below := (later.inherits_iff ordered there).mp below
  have there' : d.index < r.loaded.size :=
    Nat.lt_of_le_of_lt (below.below.le ordered) there
  rw [later.cls d there'] at declared
  exact unshadowed d g below ((later.inherits_iff ordered there').mp above) other declared

/-! Which field is meant by a name. -/

theorem instanceFieldOffset?_here (ordered : r.Ordered)
    (declared : (r.cls c).declaredField? name = some g) (own : g.isStatic = false) :
    r.instanceFieldOffset? c name = some g.offset := by
  rw [instanceFieldOffset?, superChain_eq ordered, List.findSome?_cons, declared, Option.bind_some,
    own]
  rfl

theorem instanceFieldOffset?_above (ordered : r.Ordered)
    (static : ∀ g, (r.cls c).declaredField? name = some g → g.isStatic = true)
    (above : (r.cls c).superclass = some d) :
    r.instanceFieldOffset? c name = r.instanceFieldOffset? d name := by
  have none : (((r.cls c).declaredField? name).bind fun f =>
      if f.isStatic then none else some f.offset) = none := by
    cases declared : (r.cls c).declaredField? name with
    | none => rfl
    | some g => rw [Option.bind_some, if_pos (static g declared)]
  rw [instanceFieldOffset?, superChain_eq ordered, List.findSome?_cons, none, above]
  rfl

/-- The name means the field of the class of threads, or one that is declared nearer. -/
theorem ThreadField.meant (field : r.ThreadField T f) (ordered : r.Ordered)
    (below : r.Inherits c T) :
    r.Unshadowed c T ∧ r.instanceFieldOffset? c "vmThread" = some f.offset ∨
      ∃ d g, (r.Inherits c d ∧ r.Inherits d T ∧ d ≠ T) ∧
        (r.cls d).declaredField? "vmThread" = some g ∧ g.isStatic = false ∧
        r.instanceFieldOffset? c "vmThread" = some g.offset := by
  induction below using Relation.ReflTransGen.head_induction_on with
  | refl =>
    refine .inl ⟨fun d g above back other _ => absurd ?_ other, ?_⟩
    · have up := Inherits.below above |>.le ordered
      have down := Inherits.below back |>.le ordered
      cases d
      cases T
      exact congrArg ClassId.mk (Nat.le_antisymm up down)
    · exact instanceFieldOffset?_here ordered field.declared field.own
  | @head c s above rest ih =>
    by_cases static : ∀ g, (r.cls c).declaredField? "vmThread" = some g → g.isStatic = true
    · rw [instanceFieldOffset?_above ordered static above]
      rcases ih with ⟨unshadowed, offset⟩ | ⟨d, g, ⟨inherits, between⟩, found⟩
      · refine .inl ⟨fun d g inherits back other declared => ?_, offset⟩
        rcases inherits.cases_head with rfl | ⟨s', above', inherits'⟩
        · exact static g declared
        · cases above.symm.trans above'
          exact unshadowed d g inherits' back other declared
      · exact .inr ⟨d, g, ⟨.head above inherits, between⟩, found⟩
    · push Not at static
      obtain ⟨g, declared, instance_⟩ := static
      have own : g.isStatic = false := by simpa using instance_
      have other : c ≠ T := by
        rintro rfl
        have less := ordered.superclass_lt above
        have least := (Inherits.below rest).le ordered
        omega
      exact .inr ⟨c, g, ⟨.refl, .head above rest, other⟩, declared, own,
        instanceFieldOffset?_here ordered declared own⟩

end Registry

namespace Atomic
variable {η : Type} {w : World η}

theorem heap_bootClass (name : String) : ((bootClass name).runOn w).2.heap = w.heap := by
  have ran : (findBootstrap name).runOn w = (.ok (w.registry.findBootstrap name).1,
      { w with registry := (w.registry.findBootstrap name).2 }) := rfl
  unfold bootClass
  rw [runOn_bind, ran]
  cases (w.registry.findBootstrap name).1 <;> rfl

theorem runOn_readNamed (o : ObjectId) (name : String) (type : Option Primitive) :
    ((readNamed o name type).runOn w).2 = w := by
  unfold readNamed fieldOffset
  rw [runOn_get_bind, runOn_bind, runOn_get_bind]
  cases w.registry.instanceFieldOffset? (w.classOf o) name with
  | none => rfl
  | some offset =>
    have ran : (pure offset : Atomic η Nat).runOn w = (.ok offset, w) := rfl
    rw [ran]
    dsimp only
    cases w.heap.readField o offset type <;> rfl

theorem runOn_writeNamed (o : ObjectId) (name : String) (v : Value) :
    ((writeNamed o name v).runOn w).2 =
      ((w.registry.instanceFieldOffset? (w.classOf o) name).bind (w.heap.writeField? o · v)).elim w
        fun heap => { w with heap } := by
  unfold writeNamed fieldOffset
  rw [runOn_get_bind, runOn_bind, runOn_get_bind]
  cases w.registry.instanceFieldOffset? (w.classOf o) name with
  | none => rfl
  | some offset =>
    have ran : (pure offset : Atomic η Nat).runOn w = (.ok offset, w) := rfl
    rw [ran]
    dsimp only
    rw [runOn_bind, runOn_writeField, Option.bind_some]
    cases w.heap.writeField? o offset v <;> rfl

end Atomic

namespace World
open Exec Registry
variable {η : Type} {w v u : World η} {p q : FieldPlace} {T : ClassId} {f : Field}
  {o key : ObjectId}

/-- Among the instance fields of the object that has place `p` no other one has changed, and what
could be read as a value of its type still can. -/
structure SparesBut (p : FieldPlace) (w u : World η) : Prop where
  others : ∀ q, w.Place q → q.holder = p.holder → q ≠ p → u.valueAt? q = w.valueAt? q
  readable : ∀ q, w.Place q → q.holder = p.holder → (w.valueAt? q).isSome = true →
    (u.valueAt? q).isSome = true

theorem SparesBut.of_fields (holder : p.holder = some o)
    (same : (u.heap.get o).fields = (w.heap.get o).fields) : w.SparesBut p u := by
  have each (q : FieldPlace) (holder' : q.holder = p.holder) : u.valueAt? q = w.valueAt? q := by
    unfold World.valueAt?
    rw [holder', holder]
    dsimp only
    rw [Heap.readField, Heap.readField, Object.readField, Object.readField, same]
  exact ⟨fun q _ holder' _ => each q holder', fun q _ holder' read => by rwa [each q holder']⟩

theorem SparesBut.of_heap (holder : p.holder = some o) (same : u.heap = w.heap) :
    w.SparesBut p u := .of_fields holder (by rw [same])

theorem SparesBut.of_during {refs : List ObjectId} (spares : (w.during refs).SparesBut p u) :
    w.SparesBut p u where
  others q place := spares.others q ⟨place.declared, place.static, place.inherits⟩
  readable q place := spares.readable q ⟨place.declared, place.static, place.inherits⟩

theorem SparesBut.setMonitor (key : ObjectId) (m : Monitor) :
    w.SparesBut ⟨T, f, some o⟩ (w.setMonitor key m) := by
  refine .of_fields rfl ?_
  unfold World.setMonitor
  dsimp only
  rw [Heap.get_modify]
  split <;> rfl

structure ThreadObject (w : World η) (T : ClassId) (f : Field) (o : ObjectId) : Prop where
  sane : w.Sane
  field : w.registry.ThreadField T f
  made : o.index < w.heap.objects.size
  below : w.registry.Inherits (w.classOf o) T
  unshadowed : w.registry.Unshadowed (w.classOf o) T

theorem ThreadObject.upheld (thread : w.ThreadObject T f o) (upholds : w.Upholds u) :
    u.ThreadObject T f o := by
  obtain ⟨sane, later⟩ := upholds.tame thread.sane
  have ordered := thread.sane.built.ordered
  have there := thread.sane.objects o
  have same := upholds.classOf o thread.made
  refine ⟨sane, thread.field.later later, Nat.lt_of_lt_of_le thread.made upholds.objects, ?_, ?_⟩
  · rw [same]
    exact (later.inherits_iff ordered there).mpr thread.below
  · rw [same]
    exact thread.unshadowed.later later ordered there

theorem ThreadObject.offset (thread : w.ThreadObject T f o) :
    w.registry.instanceFieldOffset? (w.classOf o) "vmThread" = some f.offset := by
  rcases thread.field.meant thread.sane.built.ordered thread.below with
    ⟨-, offset⟩ | ⟨d, g, ⟨inherits, back, other⟩, declared, own, -⟩
  · exact offset
  · rw [thread.unshadowed d g inherits back other declared] at own
    cases own

theorem ThreadObject.spares_written (thread : w.ThreadObject T f o) (r : Reference) :
    w.SparesBut ⟨T, f, some o⟩ ((Atomic.writeNamed o "vmThread" (.ref r)).runOn w).2 := by
  rw [Atomic.runOn_writeNamed, thread.offset, Option.bind_some]
  cases wrote : w.heap.writeField? o f.offset (.ref r) with
  | none => exact .of_heap rfl rfl
  | some heap =>
    rw [Option.elim_some]
    obtain ⟨slots, writes, heap'⟩ := Heap.writeField?_cases wrote
    have puts : w.Puts ⟨T, f, some o⟩ (.ref r) { w with heap } := .own rfl .refl writes heap'
    have type : (Value.ref r).primitive? = f.type.primitive? := thread.field.reference.symm
    have others (q : FieldPlace) (place : w.Place q) (other : q ≠ ⟨T, f, some o⟩) :
        World.valueAt? { w with heap } q = w.valueAt? q := by
      refine puts.other thread.sane.built type (List.mem_of_find?_eq_some thread.field.declared)
        (iff_of_false (Option.some_ne_none o) (by simp [thread.field.own])) place other ?_
      rintro _ holder -
      cases holder
      exact thread.below
    refine ⟨fun q place _ other => others q place other, fun q place _ read => ?_⟩
    by_cases same : q = ⟨T, f, some o⟩
    · subst same
      rw [puts.value thread.field.known.there type]
      rfl
    · rwa [others q place same]

theorem SparesBut.written_elsewhere (other : key ≠ o) (name : String) (v : Value) :
    w.SparesBut ⟨T, f, some o⟩ ((Atomic.writeNamed key name v).runOn w).2 := by
  rw [Atomic.runOn_writeNamed]
  cases wrote : (w.registry.instanceFieldOffset? (w.classOf key) name).bind
      (w.heap.writeField? key · v) with
  | none => exact .of_heap rfl rfl
  | some heap =>
    obtain ⟨offset, -, written⟩ := Option.bind_eq_some_iff.mp wrote
    obtain ⟨slots, -, rfl⟩ := Heap.writeField?_cases written
    refine .of_fields rfl ?_
    rw [Option.elim_some, Heap.get_modify, if_neg fun both => other both.1]

theorem ThreadObject.spares_new (thread : w.ThreadObject T f o) (x : Object) :
    w.SparesBut ⟨T, f, some o⟩ ((Atomic.allocate x).runOn w).2 ∧
      ((Atomic.allocate x).runOn w).1 ≠ .ok o := by
  have comes := Atomic.allocate_cases w x
  generalize (Atomic.allocate x).runOn w = result at comes ⊢
  cases comes with
  | @made heap accounting alike limit =>
    have older : o.index ≠ heap.objects.size := by
      rw [alike.size]
      exact Nat.ne_of_lt thread.made
    refine ⟨.of_fields rfl ?_, fun same => ?_⟩
    · dsimp only
      rw [Heap.get_push, if_neg older]
      exact alike.fields o
    · cases same
      exact absurd thread.made (Nat.lt_irrefl _)
  | exhausted alike full => exact ⟨.of_fields rfl (alike.fields o), nofun⟩

end World

/-! Programs. -/

namespace Exec
open World Registry
variable {η α β : Type} {w v u : World η} {env d : Env} {T : ClassId} {f : Field} {o key : ObjectId}
  {P : α → World η → Prop} {Q : β → World η → Prop}

section
-- only the rules are used here; unfolded, the judgement goes through the task step by step
attribute [local irreducible] Unaided

/-- While others uphold what there is, the program spares all fields of thread object `o` but one, and
`P` holds of its result. It has nothing run and never waits. -/
def Serves (T : ClassId) (f : Field) (o : ObjectId) (w : World η) (env : Env) (x : Exec η α)
    (P : α → World η → Prop) : Prop :=
  Unaided Upholds (SparesBut ⟨T, f, some o⟩) w env x fun r _ u =>
    u.ThreadObject T f o ∧ ∀ a, r = .ok a → P a u

theorem Serves.bind {x : Exec η α} {g : α → Exec η β} (first : Serves T f o w env x P)
    (rest : ∀ a d v, v.ThreadObject T f o → P a v → Serves T f o v d (g a) Q) :
    Serves T f o w env (x >>= g) Q := by
  refine unaided_bind (first.weaken fun r d v ⟨thread, holds⟩ => ?_)
  cases r with
  | ok a => exact rest a d v thread (holds a rfl)
  | error f' => exact ⟨thread, nofun⟩

theorem Serves.outcome {x : Exec η α} (serves : Serves T f o w env x P) :
    Serves T f o w env (outcome x) fun _ _ => True :=
  unaided_outcome (serves.weaken fun _ _ _ ⟨thread, _⟩ => ⟨thread, fun _ _ => trivial⟩)

theorem Serves.discard {x : Exec η α} (serves : Serves T f o w env x P) :
    Serves T f o w env (discard x) fun _ _ => True :=
  unaided_discard (serves.weaken fun _ _ _ ⟨thread, _⟩ => ⟨thread, fun _ _ => trivial⟩)

theorem serves_act {x : Atomic η α} (thread : w.ThreadObject T f o)
    (acts : ∀ y : World η, y.ThreadObject T f o → w.Upholds y →
      y.Changes (x.runOn y).2 ∧ y.SparesBut ⟨T, f, some o⟩ (x.runOn y).2 ∧
        ∀ a, (x.runOn y).1 = .ok a → P a (x.runOn y).2) :
    Serves T f o w env (act x) P := by
  refine unaided_act fun y refs upholds => ?_
  have during := upholds.trans (.during y (env.references ++ refs))
  have thread := thread.upheld during
  obtain ⟨changes, spares, holds⟩ := acts _ thread during
  exact ⟨spares.of_during, thread.upheld changes.upholds, holds⟩

theorem serves_aside {x : Atomic η α} (thread : w.ThreadObject T f o)
    (changes : ∀ y, Changes y (x.runOn y).2)
    (heap : ∀ y, (x.runOn y).2.heap = y.heap) :
    Serves T f o w env (act x) fun _ _ => True :=
  serves_act thread fun y _ _ => ⟨changes y, .of_heap rfl (heap y), fun _ _ => trivial⟩

theorem serves_bootClass (thread : w.ThreadObject T f o) (name : String) :
    Serves T f o w env (act (Atomic.bootClass name)) fun k u =>
      k.index < u.registry.loaded.size :=
  serves_act thread fun _ thread _ =>
    have orderly := Atomic.orderly_bootClass name thread.sane
    ⟨orderly.1, .of_heap rfl (Atomic.heap_bootClass name), fun k found => (orderly.2 k found).head⟩

theorem serves_newInstance (thread : w.ThreadObject T f o) {k : ClassId}
    (there : k.index < w.registry.loaded.size) :
    Serves T f o w env (act (Atomic.newInstance k)) fun key _ => key ≠ o := by
  refine serves_act thread fun y thread' upholds => ?_
  have later := (upholds.tame thread.sane).2
  refine ⟨(Atomic.orderly_newInstance (Nat.lt_of_lt_of_le there later.size) thread'.sane).1, ?_⟩
  unfold Atomic.newInstance
  rw [Atomic.runOn_get_bind]
  cases Heap.newInstance y.registry k with
  | error f' => exact ⟨.of_heap rfl rfl, nofun⟩
  | ok x =>
    obtain ⟨spares, other⟩ := thread'.spares_new x
    refine ⟨spares, fun key made same => other ?_⟩
    rw [← same]
    exact made

theorem serves_writeNamed (thread : w.ThreadObject T f o) (other : key ≠ o) (name : String)
    (x : Value) : Serves T f o w env (act (Atomic.writeNamed key name x)) fun _ _ => True :=
  serves_act thread fun _ thread _ =>
    ⟨(Atomic.orderly_writeNamed key name x thread.sane).1, .written_elsewhere other name x,
      fun _ _ => trivial⟩

theorem serves_writeOwn (thread : w.ThreadObject T f o) (r : Reference) :
    Serves T f o w env (act (Atomic.writeNamed o "vmThread" (.ref r))) fun _ _ => True :=
  serves_act thread fun _ thread _ =>
    ⟨(Atomic.orderly_writeNamed o _ _ thread.sane).1, thread.spares_written r, fun _ _ => trivial⟩

theorem serves_threadName (thread : w.ThreadObject T f o) :
    Serves T f o w env (threadName o) fun _ _ => True := by
  have read : Serves T f o w env (act (Atomic.readNamed o "name" none)) fun _ _ => True :=
    serves_aside thread
      (fun y => by rw [Atomic.runOn_readNamed])
      fun y => by rw [Atomic.runOn_readNamed]
  refine read.outcome.bind fun given d v thread _ => ?_
  exact serves_aside thread (fun _ => .refl) fun _ => rfl

theorem serves_createThread (thread : w.ThreadObject T f o) :
    Serves T f o w env (createThread o) fun _ _ => True := by
  unfold createThread
  refine (serves_bootClass thread _).bind fun k d v thread there => ?_
  refine (serves_newInstance thread there).bind fun key d v thread other => ?_
  refine (serves_writeNamed thread other _ _).bind fun _ d v thread _ => ?_
  refine (serves_writeOwn thread _).bind fun _ d v thread _ => ?_
  refine (serves_threadName thread).bind fun name d v thread _ => ?_
  exact serves_aside thread (fun y => .single (.threads _ _ _ y.deadlines)) fun _ => rfl

theorem serves_create (thread : w.ThreadObject T f o) {call : NativeCall}
    (given : call.argument? env.stack 0 = some (.ref (some o))) :
    Serves T f o w env (ThreadNative.run .create call) fun _ _ => True := by
  have receives : Serves T f o w env (objectArg call 0) fun p _ => p = o :=
    unaided_objectArg given ⟨thread, fun p same => (Except.ok.inj same).symm⟩
  refine receives.bind fun p d v thread same => ?_
  subst same
  refine (serves_createThread thread).bind fun _ d v thread _ => ?_
  have ends (r : Except Failure Unit) (d : Env) : v.ThreadObject T f p ∧
      ∀ a, r = .ok a → True := ⟨thread, fun _ _ => trivial⟩
  refine Serves.bind (P := fun _ _ => True) (unaided_onEnv (ends _ d)) fun _ d v thread _ => ?_
  exact unaided_get_bind (unaided_pure ⟨thread, fun _ _ => trivial⟩)

theorem serves_onMonitor (thread : w.ThreadObject T f o) (key : ObjectId)
    (change : Monitor → ThreadId → Except Failure Monitor) :
    Serves T f o w env (onMonitor key change) fun _ _ => True := by
  refine unaided_get_bind (serves_act thread fun y _ _ => ?_)
  rw [Atomic.runOn_ofFunction]
  cases change (y.monitorOf key) env.thread with
  | error f' => exact ⟨.refl, .of_heap rfl rfl, fun _ _ => trivial⟩
  | ok m => exact ⟨y.changes_setMonitor key m, .setMonitor key m, fun _ _ => trivial⟩

theorem serves_release (thread : w.ThreadObject T f o) (key : ObjectId) :
    Serves T f o w env (do
      discard (outcome (act (Atomic.writeNamed o "vmThread" .null)))
      discard (outcome (notifyAll o))
      discard (outcome (exitMonitor o))
      act (modify fun w => { w with threads := w.threads.erase key })) fun _ _ => True := by
  refine (serves_writeOwn thread none).outcome.discard.bind fun _ d v thread _ => ?_
  refine (serves_onMonitor thread o _).outcome.discard.bind fun _ d v thread _ => ?_
  refine (serves_onMonitor thread o _).outcome.discard.bind fun _ d v thread _ => ?_
  exact serves_aside thread (fun y => .single (.threads y.records _ y.starting y.deadlines))
    fun _ => rfl

end

def detachThread (start : ThreadStart) : Exec η Unit := do
  act (modify (·.modifyRecord start.thread ({ · with alive := false })))
  enterMonitor start.object
  discard (outcome (act (Atomic.writeNamed start.object "vmThread" .null)))
  discard (outcome (notifyAll start.object))
  discard (outcome (exitMonitor start.object))
  act (modify fun w => { w with threads := w.threads.erase start.key })

theorem guarantees_detachThread {start : ThreadStart} (thread : w.ThreadObject T f start.object) :
    Guarantees Upholds (SparesBut ⟨T, f, some start.object⟩) w env (detachThread start)
      fun _ _ _ => True := by
  have marks : Serves T f start.object w env
      (act (modify (·.modifyRecord start.thread ({ · with alive := false })))) fun _ _ => True :=
    serves_aside thread (fun y => y.changes_modifyRecord _ _) fun _ => rfl
  refine guarantees_bind (Unaided.guarantees (marks.weaken fun r d v ⟨thread, _⟩ => ?_))
  cases r with
  | error f' => trivial
  | ok _ =>
    refine guarantees_bind (guarantees_get_bind ?_)
    refine guarantees_await fun y refs r u upholds step => ?_
    obtain ⟨m, -, same⟩ := Option.map_eq_some_iff.mp step
    cases same
    have during := upholds.trans (.during y (d.references ++ refs))
    have entered := ((y.during (d.references ++ refs)).changes_setMonitor start.object m).upholds
    have thread := thread.upheld (during.trans entered)
    refine ⟨SparesBut.of_during (.setMonitor start.object m), ?_⟩
    exact Unaided.guarantees ((serves_release thread start.key).weaken fun _ _ _ _ => trivial)

/-- Neither the native that makes a thread of object `o` nor the detaching of that thread changes a
field of the object but `p` or makes one unreadable, whatever other threads do in between. -/
structure SparesThread (w : World η) (p : FieldPlace) (o : ObjectId) : Prop where
  create : ∀ env call, call.argument? env.stack 0 = some (.ref (some o)) →
    Unaided Upholds (SparesBut p) w env (ThreadNative.run .create call) fun _ _ _ => True
  detach : ∀ env start, start.object = o →
    Guarantees Upholds (SparesBut p) w env (detachThread start) fun _ _ _ => True

end Exec

theorem World.ThreadObject.sparesThread {η : Type} {w : World η} {T : ClassId} {f : Field}
    {o : ObjectId} (thread : w.ThreadObject T f o) : Exec.SparesThread w ⟨T, f, some o⟩ o where
  create _ _ given := (Exec.serves_create thread given).weaken fun _ _ _ _ => trivial
  detach _ start here := by
    subst here
    exact Exec.guarantees_detachThread thread

theorem Value.eq_null_of_read {slots : List Slot} {type : Option Primitive} {x : Value}
    (null : Value.read slots none = some .null) (found : Value.read slots type = some x) :
    x = .null := by
  cases slots with
  | nil => cases null
  | cons s rest =>
    cases s with
    | ref r =>
      cases null
      cases type with
      | none =>
        cases found
        rfl
      | some p => cases p <;> cases found
    | int | wide | wideTail | empty => cases null

theorem FieldType.Inhabited.exists_value {t : FieldType} (inhabited : t.Inhabited) :
    ∃ x : Value, x.primitive? = t.primitive? ∧ x ≠ .null := by
  cases t with
  | object name | array component => exact ⟨.ref (some ⟨0⟩), rfl, nofun⟩
  | primitive p =>
    refine ⟨_, (FieldType.slots_zero inhabited).2, ?_⟩
    cases p with
    | void => exact absurd rfl inhabited
    | _ => nofun

namespace Heap
open Registry

theorem exists_stocked {r : Registry} {c : ClassId} (built : r.Built)
    (there : c.index < r.loaded.size) (ordinary : (r.cls c).kind = .ordinary) {offset : Nat}
    {x : Value} (inside : offset + x.slots.length ≤ (r.cls c).template.length) :
    ∃ h : Heap, Stocked r h ∧ h.objects.size = 1 ∧ h.classOf ⟨0⟩ = c ∧
      (∀ o, (h.get o).payload = .plain) ∧ (h.get ⟨0⟩).monitor = .unowned ∧
      h.readField ⟨0⟩ offset x.primitive? = some x := by
  let new : Object := { cls := c, fields := (r.cls c).template.toArray, payload := .plain }
  have made : newInstance r c = .ok new := by
    simp [new, newInstance, Class.isArray, Class.isPrimitive, ordinary]
  let h := ((Heap.empty 0 0).allocate new).2
  have stocked : Stocked r h :=
    ((Stocked.empty 0 0).classes built built.later_empty).allocate (.plain there made)
  have first : h.get ⟨0⟩ = new := rfl
  have room : offset + x.slots.length ≤ new.fields.size := by simpa [new] using inside
  obtain ⟨slots, fitted⟩ := Slot.write?_isSome room
  let h' := h.modify ⟨0⟩ fun _ => { new with fields := slots }
  have wrote : h.writeField? ⟨0⟩ offset x = some h' := by
    rw [writeField?, first, Object.writeField?, fitted]
    rfl
  have first' : h'.get ⟨0⟩ = { new with fields := slots } := rfl
  refine ⟨h', stocked.writeField wrote, rfl, rfl, fun o => ?_, rfl, ?_⟩
  · rw [get_modify]
    split
    · rfl
    · rcases get_allocate (h := Heap.empty 0 0) new o with same | same
      · rw [same]
        rfl
      · rw [same]
  · rw [readField, first']
    exact (Slot.write?_eq_some fitted).read

end Heap

namespace Exec
open World Registry
variable {η β : Type} {w : World η} {c T : ClassId} {f : Field} {o : ObjectId}

theorem not_sparesBut_of_null {p q : FieldPlace} {x : Value} {y : World η} {refs : List ObjectId}
    (meant : y.registry.instanceFieldOffset? (y.classOf o) "vmThread" = some q.field.offset)
    (holder : p.holder = some o) (holder' : q.holder = some o) (place : y.Place q) (other : q ≠ p)
    (read : y.valueAt? q = some x) (notNull : x ≠ .null)
    (inside : q.field.offset < (y.heap.get o).fields.size) :
    ¬ y.SparesBut p ((Atomic.writeNamed o "vmThread" .null).runOn (y.during refs)).2 := by
  intro spares
  have after := (spares.others q place (holder'.trans holder.symm) other).trans read
  obtain ⟨heap, wrote, null⟩ := Heap.writeField?_ref (h := y.heap) none inside
  have ran : ((Atomic.writeNamed o "vmThread" .null).runOn (y.during refs)).2 =
      { y.during refs with heap } := by
    rw [Atomic.runOn_writeNamed]
    show ((y.registry.instanceFieldOffset? (y.classOf o) "vmThread").bind
      (y.heap.writeField? o · .null)).elim _ _ = _
    rw [meant, Option.bind_some, show y.heap.writeField? o q.field.offset .null = _ from wrote]
    rfl
  rw [ran] at after
  unfold World.valueAt? at after
  rw [holder'] at after
  exact notNull (Value.eq_null_of_read null after)

theorem Guarantees.after_enterMonitor {rely does : World η → World η → Prop} {env : Env}
    {x : World η} {g : Unit → Exec η β} {R : Except Failure β → Env → World η → Prop}
    (guarantees : Guarantees rely does w env (enterMonitor o >>= g) R) (change : rely w x)
    (unowned : (x.monitorOf o).owner = none) :
    ∃ refs m d, Guarantees rely does ((x.during refs).setMonitor o m) d (g ()) R := by
  let enter (w : World η) : Option (Except Failure Unit × World η) :=
    ((w.monitorOf o).enter? env.thread).map fun m => (.ok (), w.setMonitor o m)
  have waits : Guarantees rely does w env (await enter >>= g) R := guarantees
  have enters : (x.monitorOf o).enter? env.thread =
      some ((x.monitorOf o).give env.thread ((x.monitorOf o).count + 1)) := if_pos (.inl unowned)
  have step : enter (x.during (env.references ++ [])) = some (.ok (),
      (x.during (env.references ++ [])).setMonitor o _) := congrArg (Option.map _) enters
  exact ⟨_, _, _, (waits.after_await [] change step).2⟩

/-- The end of a thread comes to the action that detaches its object. -/
theorem Guarantees.detaches {does : World η → World η → Prop} {start : ThreadStart} {env : Env}
    {x : World η} {R : Except Failure Unit → Env → World η → Prop}
    (guarantees : Guarantees Upholds does x env (detachThread start) R) (sane : x.Sane)
    (unowned : (x.monitorOf start.object).owner = none) :
    ∃ refs, does x ((Atomic.writeNamed start.object "vmThread" .null).runOn (x.during refs)).2 := by
  -- other threads may bring the state back to what it was before each action
  obtain ⟨-, entering⟩ := guarantees.after_await [] (.refl x) rfl
  let y := x.during (env.references ++ [])
  have during : x.Upholds y := .during x _
  have marked : x.Upholds (y.modifyRecord start.thread ({ · with alive := false })) :=
    during.trans (y.changes_modifyRecord _ _).upholds
  obtain ⟨refs, m, d, writing⟩ := entering.after_enterMonitor (marked.back sane rfl rfl) unowned
  have during : x.Upholds (x.during refs) := .during x refs
  have entered := during.trans ((x.during refs).changes_setMonitor start.object m).upholds
  exact ⟨_, (writing x [] _ _ (entered.back sane rfl Array.size_modify) rfl).1⟩

/-- A field that hides the one of the class of threads is written over when a thread is detached. -/
theorem not_sparesThread_of_shadowed (built : w.registry.Built)
    (there : c.index < w.registry.loaded.size) (ordinary : (w.registry.cls c).kind = .ordinary)
    {d : ClassId} {g : Field} (inherits : w.registry.Inherits c d) (other : d ≠ T)
    (declared : (w.registry.cls d).declaredField? "vmThread" = some g) (own : g.isStatic = false)
    (meant : w.registry.instanceFieldOffset? c "vmThread" = some g.offset) :
    ∃ heap, Heap.Stocked w.registry heap ∧ World.Sane { w with heap } ∧
      heap.objects.size = 1 ∧ heap.classOf ⟨0⟩ = c ∧
      ¬ SparesThread { w with heap } ⟨T, f, some ⟨0⟩⟩ ⟨0⟩ := by
  have member := List.mem_of_find?_eq_some declared
  obtain ⟨x, type, notNull⟩ := (built.inhabited member).exists_value
  have inside : g.offset + x.slots.length ≤ (w.registry.cls c).template.length := by
    rw [x.length_slots, Value.slotCount, type, ← FieldType.slotCount_eq]
    exact Nat.le_trans ((built.fields_fit member).inside own)
      (inherits.template built there ordinary).length_le
  obtain ⟨heap, stocked, size, cls, plain, unowned, read⟩ :=
    Heap.exists_stocked built there ordinary inside
  have sane : World.Sane { w with heap } := by
    refine ⟨built, fun o => (stocked.room o).there, fun o k mirrors => ?_⟩
    rw [Object.mirrored?, plain] at mirrors
    cases mirrors
  refine ⟨heap, stocked, sane, size, cls, fun spares => ?_⟩
  have detach := spares.detach (.new ⟨0⟩ 0) ⟨⟨0⟩, ⟨0⟩, ⟨0⟩⟩ rfl
  obtain ⟨refs, sparing⟩ := detach.detaches sane (congrArg Monitor.owner unowned)
  have place : World.Place { w with heap } ⟨d, g, some ⟨0⟩⟩ := by
    refine ⟨member, iff_of_false (Option.some_ne_none _) (by simp [own]), fun o same => ?_⟩
    cases same
    rwa [show World.classOf { w with heap } ⟨0⟩ = c from cls]
  refine not_sparesBut_of_null (q := ⟨d, g, some ⟨0⟩⟩) ?_ rfl rfl place ?_ ?_ notNull ?_ sparing
  · rwa [show World.classOf { w with heap } ⟨0⟩ = c from cls]
  · exact fun same => other (congrArg FieldPlace.cls same)
  · rw [← read, type]
    rfl
  · have room := (stocked.room ⟨0⟩).filled (by rw [Object.elements?, plain])
    have positive := x.length_slots_pos
    rw [show (heap.get ⟨0⟩).cls = c from cls] at room
    show g.offset < (heap.get ⟨0⟩).fields.size
    omega

/-- Threads are created and detached without touching any field of an object of class `c` but the one
of the class of threads, and without making a field unreadable, if and only if no class from `c` on up
hides that one. A thread runs and is then detached. -/
theorem thread_fields_spared_iff (built : w.registry.Built) (field : w.registry.ThreadField T f)
    (below : w.registry.Inherits c T) (ordinary : (w.registry.cls c).kind = .ordinary) :
    ((∀ heap o, Heap.Stocked w.registry heap → World.Sane { w with heap } →
        o.index < heap.objects.size → heap.classOf o = c →
        SparesThread { w with heap } ⟨T, f, some o⟩ o) ↔
      w.registry.Unshadowed c T) ∧
    ∀ start, (threadProgram start : Exec η Unit) = (do
      hold [start.object, start.key]
      releasing (discard (outcome (callVirtual start.object "run" "()V" [])))
      detachThread start) := by
  refine ⟨?_, fun _ => rfl⟩
  constructor
  · intro spares
    rcases field.meant built.ordered below with
      ⟨unshadowed, -⟩ | ⟨d, g, ⟨inherits, back, other⟩, declared, own, meant⟩
    · exact unshadowed
    · have there := below.there field.known.there
      obtain ⟨heap, stocked, sane, size, cls, touched⟩ :=
        not_sparesThread_of_shadowed (f := f) built there ordinary inherits other declared own meant
      exact absurd (spares heap ⟨0⟩ stocked sane (size ▸ Nat.one_pos) cls) touched
  · intro unshadowed heap o _ sane made cls
    have thread : World.ThreadObject { w with heap } T f o := by
      refine ⟨sane, field, made, ?_, ?_⟩
      · rwa [show World.classOf { w with heap } o = c from cls]
      · rwa [show World.classOf { w with heap } o = c from cls]
    exact thread.sparesThread

def threadsWith (worker : ClassDef) : Registry :=
  [(ClassDef.named rootName).root, Universe.threadClass, Universe.vmThreadClass,
    worker.extending "java/lang/Thread"].foldl (fun r d => (r.define d none).2) empty

theorem built_threadsWith (worker : ClassDef) : (threadsWith worker).Built :=
  (((Built.empty.define _ none).define _ none).define _ none).define _ none

def vmThreadField : Field :=
  ⟨"vmThread", "Ljava/lang/VMThread;", .object "java/lang/VMThread", .empty, 0⟩

def HasThreads (r : Registry) : Bool :=
  r.find? "java/lang/Thread" none = some ⟨10⟩ &&
    (r.cls ⟨10⟩).declaredField? "vmThread" = some vmThreadField &&
    (r.cls ⟨12⟩).superclass = some ⟨10⟩ && (r.cls ⟨12⟩).kind = .ordinary

theorem threads_of_has {r : Registry} (has : HasThreads r = true) :
    r.ThreadField ⟨10⟩ vmThreadField ∧ r.Inherits ⟨12⟩ ⟨10⟩ ∧ (r.cls ⟨12⟩).kind = .ordinary := by
  simp only [HasThreads, Bool.and_eq_true, decide_eq_true_eq] at has
  obtain ⟨⟨⟨found, declared⟩, above⟩, ordinary⟩ := has
  exact ⟨⟨find?_known found, declared, by decide, rfl⟩, .single above, ordinary⟩

def workers : Registry :=
  threadsWith ((((ClassDef.named "t/Worker").field "name" "I" .isPublic).field
    "vmThread" "J" .isStatic).field "count" "D" .isPublic)

theorem unshadowed_workers : workers.Unshadowed ⟨12⟩ ⟨10⟩ := by
  have each : ∀ d ∈ workers.superChain ⟨12⟩, d = ⟨10⟩ ∨ d.index < 10 ∨
      ∀ g ∈ (workers.cls d).declaredField? "vmThread", g.isStatic = true := by decide +kernel
  intro d g inherits back other declared
  have built : workers.Built := built_threadsWith _
  have above := (mem_superChain_iff built.ordered _ _).mpr inherits
  rcases each d above with same | low | static
  · exact absurd same other
  · exact absurd ((Inherits.below back).le built.ordered) (Nat.not_le_of_lt low)
  · exact static g declared

/-- Nothing happens to the fields of such a class. -/
theorem worker_fields_spared :
    workers.Built ∧ workers.ThreadField ⟨10⟩ vmThreadField ∧ workers.Inherits ⟨12⟩ ⟨10⟩ ∧
      (workers.cls ⟨12⟩).kind = .ordinary ∧ workers.Unshadowed ⟨12⟩ ⟨10⟩ ∧
      ∀ heap o, Heap.Stocked workers heap →
        World.Sane { Boot.initialWorld .silent workers 0 with heap } →
        o.index < heap.objects.size → heap.classOf o = ⟨12⟩ →
        SparesThread { Boot.initialWorld .silent workers 0 with heap }
          ⟨⟨10⟩, vmThreadField, some o⟩ o := by
  have built : workers.Built := built_threadsWith _
  obtain ⟨field, below, ordinary⟩ := threads_of_has (r := workers) (by decide +kernel)
  have spared := thread_fields_spared_iff (w := Boot.initialWorld .silent workers 0) built field
    below ordinary
  exact ⟨built, field, below, ordinary, unshadowed_workers, spared.1.mpr unshadowed_workers⟩

def concealing : Registry :=
  threadsWith ((ClassDef.named "t/Numbered").field "vmThread" "I" .isPublic)

def numberField : Field := ⟨"vmThread", "I", .primitive .int, .isPublic, 4⟩

def concealingWorld : World Unit :=
  { Boot.initialWorld .silent concealing 0 with
    heap := ((Heap.empty 0 0).allocate
      { cls := ⟨12⟩, payload := .plain,
        fields := #[.ref none, .ref none, .int 0, .int 0, .int 7] }).2 }

def createMethod : Method :=
  ⟨⟨11⟩, "java/lang/VMThread", "create", "(Ljava/lang/Thread;J)V",
    ⟨[.object "java/lang/Thread", .primitive .long], none⟩,
    .isPublic ||| .isStatic ||| .isNative, 1⟩

def creatingEnv : Env :=
  { Env.new ⟨0⟩ 8 with stack := ⟨#[.ref (some ⟨0⟩), .wide 0, .wideTail], 8⟩ }

/-- The creation of the thread goes well, and the number cannot be read any more. -/
theorem concealing_field_overwritten :
    concealing.ThreadField ⟨10⟩ vmThreadField ∧ concealing.Inherits ⟨12⟩ ⟨10⟩ ∧
      createMethod ∈ (concealing.cls ⟨11⟩).methods ∧ concealingWorld.classOf ⟨0⟩ = ⟨12⟩ ∧
      concealingWorld.Place ⟨⟨12⟩, numberField, some ⟨0⟩⟩ ∧
      concealingWorld.valueAt? ⟨⟨12⟩, numberField, some ⟨0⟩⟩ = some (.int 7) ∧
      ∃ r e u, Ends noCode Undisturbed concealingWorld creatingEnv
          (ThreadNative.run .create ⟨createMethod, 0⟩) (.ok r) e u ∧
        u.valueAt? ⟨⟨12⟩, numberField, some ⟨0⟩⟩ = none := by
  obtain ⟨field, below, -⟩ := threads_of_has (r := concealing) (by decide +kernel)
  have place : concealingWorld.Place ⟨⟨12⟩, numberField, some ⟨0⟩⟩ :=
    ⟨by decide +kernel, by decide, fun o same => by cases same; exact .refl⟩
  let ended := ((ThreadNative.run .create ⟨createMethod, 0⟩).runIn creatingEnv).runAlone noCode 16
    concealingWorld
  have result : ended.map (fun x => (x.1.1, x.2.valueAt? ⟨⟨12⟩, numberField, some ⟨0⟩⟩)) =
      some (.ok 0, none) := by decide +kernel
  obtain ⟨⟨⟨r, e⟩, u⟩, run, same⟩ := Option.map_eq_some_iff.mp result
  obtain ⟨rfl, after⟩ := Prod.mk.inj same
  exact ⟨field, below, by decide +kernel, rfl, place, by decide +kernel, 0, e, u,
    Task.runs_of_runAlone undisturbed_refl run, after⟩

end Exec
end ManagedRuntime
