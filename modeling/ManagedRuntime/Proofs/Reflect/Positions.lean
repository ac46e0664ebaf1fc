import ManagedRuntime.Natives.Members
import ManagedRuntime.Proofs.Class.Names
import ManagedRuntime.Proofs.Execution.Arguments
import ManagedRuntime.Proofs.Execution.Calls
import ManagedRuntime.Proofs.Reflect.Members
import ManagedRuntime.Proofs.World.Running

/-!
Which member a position names. The natives that report on members and access them are given the
mirror of a class and a position, and look the member up there. Main statement: such a native does just
what it does with that member itself, as long as classes stay and objects mirror what they mirror.
-/
namespace ManagedRuntime
variable {η α β : Type}

/-! What is done with a member that is known. -/

namespace Exec

def placeOf (c : ClassId) (f : Field) (receiver : Reference) : Exec η FieldPlace := do
  let _ ← act (Atomic.ask (·.cls c))
  if f.isStatic then
    initializeClass c
    return ⟨c, f, none⟩
  else
    let o ← act (receiverOf c receiver)
    return ⟨c, f, some o⟩

def getFieldOf (c : ClassId) (f : Field) (receiver : Reference) : Exec η Reference := do
  let p ← placeOf c f receiver
  let v ← act (readPlace p)
  act (Atomic.box v)

def getPrimitiveFieldOf (c : ClassId) (f : Field) (receiver : Reference) (want : Primitive) :
    Exec η Value := do
  let p ← placeOf c f receiver
  if p.field.type.isReference then throw .fieldTypeMismatch
  let v ← act (readPlace p)
  match v.widen want with
  | some x => return x
  | none => throw .fieldTypeMismatch

def setFieldOf (c : ClassId) (f : Field) (receiver : Reference) (given : Option ClassId)
    (value : Reference) : Exec η Unit := do
  let p ← placeOf c f receiver
  let loader ← act (Atomic.ask fun w => (w.cls c).loader)
  let v ← act (Atomic.convert value p.field.type given loader .fieldTypeMismatch)
  act (writePlace p v)

def setPrimitiveFieldOf (c : ClassId) (f : Field) (receiver : Reference) (value : Value) :
    Exec η Unit := do
  let p ← placeOf c f receiver
  match p.field.type.primitive?.bind value.widen with
  | some v => act (writePlace p v)
  | none => throw .fieldTypeMismatch

def invokeMethod (c : ClassId) (m : Method) (receiver args : Reference) : Exec η Reference := do
  let _ ← act (Atomic.ask (·.cls c))
  let (target, this) ← invocationTarget c m receiver
  let loader ← act (Atomic.ask fun w => (w.cls c).loader)
  let values ← act (convertArguments target loader args)
  let all := this ++ values
  hold (Value.objects all)
  match ← callTarget target all with
  | none => return none
  | some v => act (Atomic.box v)

def constructBy (c : ClassId) (m : Method) (args : Reference) : Exec η ObjectId := do
  let _ ← act (Atomic.ask (·.cls c))
  let x ← act (Atomic.ask (·.cls c))
  if x.isInterface || x.isAbstract then throw (.instantiation x.dottedName)
  let values ← act (convertArguments m x.loader args)
  hold (Value.objects values)
  initializeClass c
  let o ← act (Atomic.newInstance c)
  releasing (discard (callTarget m (.ref (some o) :: values)))
  return o

end Exec

namespace MemberNative
open Exec

/-- What a native for fields does with this field; none if it is not for fields. -/
def onField (n : MemberNative) (call : NativeCall) (f : Field) : Option (Exec η Nat) :=
  match n with
  | fieldModifiers => some do
    let c ← classArg call 1
    let _ ← slotArg call 2
    let _ ← act (Atomic.ask (·.cls c))
    finishInt call f.flags.bits.toUInt32.toInt32
  | getField => some do
    let receiver ← referenceArg call 1
    let c ← classArg call 2
    let _ ← slotArg call 4
    let r ← getFieldOf c f receiver
    finishRef call r
  | setField => some do
    let receiver ← referenceArg call 1
    let c ← classArg call 2
    let _ ← slotArg call 4
    let given ← releasing do
      match ← referenceArg call 3 with
      | none => return none
      | some o => some <$> act (Atomic.mirroredClass o)
    let value ← referenceArg call 5
    setFieldOf c f receiver given value
    finishVoid call
  | getPrimitiveField => some do
    match call.method.type.result.bind FieldType.primitive? with
    | none => throw (.noPrimitiveResult call.method.text)
    | some want =>
      let receiver ← referenceArg call 1
      let c ← classArg call 2
      let _ ← slotArg call 4
      let v ← getPrimitiveFieldOf c f receiver want
      finish call (some v)
  | setPrimitiveField => some do
    let receiver ← referenceArg call 1
    let c ← classArg call 2
    let _ ← slotArg call 4
    let value ← arg call 5
    setPrimitiveFieldOf c f receiver value
    finishVoid call
  | invoke | construct | methodModifiers => none

def onMethod (n : MemberNative) (call : NativeCall) (m : Method) : Option (Exec η Nat) :=
  match n with
  | methodModifiers => some do
    let c ← classArg call 1
    let _ ← slotArg call 2
    let _ ← act (Atomic.ask (·.cls c))
    finishInt call m.flags.bits.toUInt32.toInt32
  | invoke => some do
    let receiver ← referenceArg call 1
    let args ← referenceArg call 2
    let c ← classArg call 3
    let _ ← slotArg call 4
    let r ← invokeMethod c m receiver args
    finishRef call r
  | construct => some do
    let args ← referenceArg call 1
    let c ← classArg call 2
    let _ ← slotArg call 3
    let o ← constructBy c m args
    finishRef call (some o)
  | fieldModifiers | getField | setField | getPrimitiveField | setPrimitiveField => none

def on? (n : MemberNative) (call : NativeCall) : Member → Option (Exec η Nat)
  | .field f => n.onField call f
  | .method m => n.onMethod call m

def mirrorAt : MemberNative → Nat
  | fieldModifiers | methodModifiers => 1
  | getField | setField | getPrimitiveField | setPrimitiveField | construct => 2
  | invoke => 3

def slotAt : MemberNative → Nat
  | fieldModifiers | methodModifiers => 2
  | construct => 3
  | getField | setField | getPrimitiveField | setPrimitiveField | invoke => 4

end MemberNative

def Class.Has (x : Class) (slot : Nat) : Member → Prop
  | .field f => x.field? slot = some f
  | .method m => x.method? slot = some m

theorem Class.has_of_member? {x : Class} {kind : MemberKind} {slot : Nat} {y : Member}
    (found : x.member? kind slot = some y) : x.Has slot y := by
  cases kind with
  | field =>
    obtain ⟨f, here, rfl⟩ := Option.map_eq_some_iff.mp found
    exact here
  | method | constructor =>
    obtain ⟨m, filtered, rfl⟩ := Option.map_eq_some_iff.mp found
    exact (Option.filter_eq_some_iff.mp filtered).1

namespace World
variable {w v u : World η} {mirror : ObjectId} {c : ClassId} {slot : Nat} {y : Member}

structure Recalls (w u : World η) : Prop where
  later : Registry.Later w.registry u.registry
  mirrors : ∀ o c, (w.heap.get o).mirrored? = some c → (u.heap.get o).mirrored? = some c

theorem Recalls.trans (first : w.Recalls v) (second : v.Recalls u) : w.Recalls u :=
  ⟨first.later.trans second.later, fun o c mirrors => second.mirrors o c (first.mirrors o c mirrors)⟩

theorem Recalls.during (w : World η) (refs : List ObjectId) : w.Recalls (w.during refs) :=
  ⟨.refl _, fun _ _ => id⟩

structure Names (w : World η) (mirror : ObjectId) (c : ClassId) (slot : Nat) (y : Member) : Prop where
  mirrors : (w.heap.get mirror).mirrored? = some c
  there : c.index < w.registry.loaded.size
  here : (w.cls c).Has slot y

theorem Names.recalled (names : w.Names mirror c slot y) (recalls : w.Recalls u) :
    u.Names mirror c slot y := by
  refine ⟨recalls.mirrors mirror c names.mirrors,
    Nat.lt_of_lt_of_le names.there recalls.later.size, ?_⟩
  rw [World.cls, recalls.later.cls c names.there]
  exact names.here

end World

namespace Exec
open World
variable {code : Code η} {rely : World η → World η → Prop} {w v u : World η} {env d e : Env}
  {call : NativeCall} {index slot : Nat} {mirror : ObjectId} {c : ClassId} {f : Field} {m : Method}
  {receiver : Reference}

theorem ends_bind_congr {x : Exec η α} {g h : α → Exec η β} {r : Except Failure β}
    (same : ∀ a d v, Ends code rely w env x (.ok a) d v →
      (Ends code rely v d (g a) r e u ↔ Ends code rely v d (h a) r e u)) :
    Ends code rely w env (x >>= g) r e u ↔ Ends code rely w env (x >>= h) r e u := by
  rw [ends_bind, ends_bind]
  refine or_congr Iff.rfl (exists_congr fun a => exists_congr fun d => exists_congr fun v => ?_)
  exact and_congr_right (same a d v)

theorem ends_congr_bind {x y : Exec η α} {g : α → Exec η β} {r : Except Failure β}
    (same : ∀ r d v, Ends code rely w env x r d v ↔ Ends code rely w env y r d v) :
    Ends code rely w env (x >>= g) r e u ↔ Ends code rely w env (y >>= g) r e u := by
  simp only [ends_bind, same]

theorem Ends.read {a : Value} (ends : Ends code rely w env (arg call index) (.ok a) d v) :
    d.stack = env.stack ∧ v = w := by
  unfold arg at ends
  cases there : call.method.layout.params[index]? with
  | none =>
    rw [there] at ends
    cases (ends_throw.mp ends).1
  | some p =>
    rw [there] at ends
    have ends := ends_get_bind.mp ends
    dsimp only at ends
    cases read : env.stack.read (call.base + p.offset) p.type with
    | none =>
      rw [read] at ends
      cases (ends_throw.mp ends).1
    | some b =>
      rw [read] at ends
      have ends := ends_modify_bind.mp ends
      obtain ⟨-, rfl, rfl⟩ := ends_pure.mp ends
      exact ⟨rfl, rfl⟩

theorem Ends.readReference {r : Reference}
    (ends : Ends code rely w env (referenceArg call index) (.ok r) d v) :
    d.stack = env.stack ∧ v = w := by
  obtain ⟨_, _, same⟩ | ⟨a, d', v', first, rest⟩ := ends_bind.mp ends
  · cases same
  obtain ⟨stack, rfl⟩ := first.read
  cases a with
  | ref s =>
    obtain ⟨-, rfl, rfl⟩ := ends_pure.mp rest
    exact ⟨stack, rfl⟩
  | byte | short | char | boolean | int | long | float | double =>
    obtain ⟨_, _, same⟩ | ⟨t, d', v', asked, thrown⟩ := ends_bind.mp rest
    · cases same
    · cases (ends_throw.mp thrown).1

theorem ends_referenceArg_bind {g h : Reference → Exec η β} {r : Except Failure β}
    (same : ∀ s d, d.stack = env.stack →
      (Ends code rely w d (g s) r e u ↔ Ends code rely w d (h s) r e u)) :
    Ends code rely w env (referenceArg call index >>= g) r e u ↔
      Ends code rely w env (referenceArg call index >>= h) r e u := by
  refine ends_bind_congr fun s d v ends => ?_
  obtain ⟨stack, rfl⟩ := ends.readReference
  exact same s d stack

theorem ends_slotArg_bind {g h : Nat → Exec η β} {r : Except Failure β} (small : slot < 2 ^ 31)
    (given : call.argument? env.stack index = some (.int (.ofNat slot)))
    (same : Ends code rely w env (g slot) r e u ↔ Ends code rely w env (h slot) r e u) :
    Ends code rely w env (slotArg call index >>= g) r e u ↔
      Ends code rely w env (slotArg call index >>= h) r e u := by
  refine ends_bind_congr fun a d v ends => ?_
  have reads : Unaided rely (fun _ _ => True) w env (slotArg call index) fun r d u =>
      r = .ok slot ∧ d = env ∧ u = w := unaided_slotArg given small ⟨rfl, rfl, rfl⟩
  obtain ⟨found, rfl, rfl⟩ := Task.Unaided.of_run reads ends
  cases found
  exact same

section steady
variable (steady : ∀ w x : World η, rely w x → w.Recalls x)
include steady

theorem ends_classArg_bind {y : Member} {g h : ClassId → Exec η β} {r : Except Failure β}
    (names : w.Names mirror c slot y)
    (given : call.argument? env.stack index = some (.ref (some mirror)))
    (same : ∀ v d, d.stack = env.stack → v.Names mirror c slot y →
      (Ends code rely v d (g c) r e u ↔ Ends code rely v d (h c) r e u)) :
    Ends code rely w env (classArg call index >>= g) r e u ↔
      Ends code rely w env (classArg call index >>= h) r e u := by
  refine ends_bind_congr fun a d v ends => ?_
  have reads : Unaided rely (fun _ _ => True) w env (classArg call index) fun r d u =>
      r = .ok c ∧ d.stack = env.stack ∧ u.Names mirror c slot y :=
    unaided_classArg given (fun x change => (steady w x change).mirrors _ _ names.mirrors)
      fun x refs change =>
        ⟨trivial, rfl, rfl, names.recalled ((steady w x change).trans (.during x refs))⟩
  obtain ⟨found, stack, names⟩ := Task.Unaided.of_run reads ends
  cases found
  exact same v d stack names

theorem ends_memberArgs_bind {y : Member} {i j : Nat} {g h : ClassId → Nat → Exec η β}
    {r : Except Failure β} (small : slot < 2 ^ 31) (names : w.Names mirror c slot y)
    (mirrorGiven : call.argument? env.stack i = some (.ref (some mirror)))
    (slotGiven : call.argument? env.stack j = some (.int (.ofNat slot)))
    (same : ∀ v d, v.Names mirror c slot y →
      (Ends code rely v d (g c slot) r e u ↔ Ends code rely v d (h c slot) r e u)) :
    Ends code rely w env (classArg call i >>= fun c => slotArg call j >>= g c) r e u ↔
      Ends code rely w env (classArg call i >>= fun c => slotArg call j >>= h c) r e u := by
  refine ends_classArg_bind steady names mirrorGiven fun v d stack names => ?_
  exact ends_slotArg_bind small (stack ▸ slotGiven) (same v d names)

theorem ends_accessArgs_bind {y : Member} {i j : Nat} {g h : Reference → ClassId → Nat → Exec η β}
    {r : Except Failure β} (small : slot < 2 ^ 31) (names : w.Names mirror c slot y)
    (mirrorGiven : call.argument? env.stack i = some (.ref (some mirror)))
    (slotGiven : call.argument? env.stack j = some (.int (.ofNat slot)))
    (same : ∀ s v d, v.Names mirror c slot y →
      (Ends code rely v d (g s c slot) r e u ↔ Ends code rely v d (h s c slot) r e u)) :
    Ends code rely w env
        (referenceArg call index >>= fun s => classArg call i >>= fun c => slotArg call j >>= g s c)
        r e u ↔
      Ends code rely w env
        (referenceArg call index >>= fun s => classArg call i >>= fun c => slotArg call j >>= h s c)
        r e u := by
  refine ends_referenceArg_bind fun s d stack => ?_
  rw [← stack] at mirrorGiven slotGiven
  exact ends_memberArgs_bind steady small names mirrorGiven slotGiven (same s)

theorem ends_askClass_bind {y : Member} {g h : Class → Exec η β} {r : Except Failure β}
    (names : w.Names mirror c slot y)
    (same : ∀ x : Class, x.Has slot y → ∀ v d,
      (Ends code rely v d (g x) r e u ↔ Ends code rely v d (h x) r e u)) :
    Ends code rely w env (act (Atomic.ask (·.cls c)) >>= g) r e u ↔
      Ends code rely w env (act (Atomic.ask (·.cls c)) >>= h) r e u := by
  refine ends_bind_congr fun x d v ends => ?_
  obtain ⟨⟨z, refs, change, rfl⟩, found, -⟩ := ends_ask.mp ends
  cases found
  exact same _ (names.recalled ((steady w z change).trans (.during z refs))).here _ d

theorem ends_locateField (names : w.Names mirror c slot (.field f)) {r : Except Failure FieldPlace} :
    Ends code rely w env (locateField c slot receiver) r e u ↔
      Ends code rely w env (placeOf c f receiver) r e u := by
  refine ends_askClass_bind steady names fun x here v d => ?_
  rw [show x.field? slot = some f from here]

theorem ends_methodAt_bind (names : w.Names mirror c slot (.method m)) {g : Method → Exec η β}
    {r : Except Failure β} :
    Ends code rely w env (act (methodAt c slot) >>= g) r e u ↔
      Ends code rely w env (act (Atomic.ask (·.cls c)) >>= fun _ => g m) r e u := by
  have found (y : World η) (refs : List ObjectId) (change : rely w y) :
      (methodAt c slot).runOn (y.during refs) = (.ok m, y.during refs) := by
    have here := (names.recalled ((steady w y change).trans (.during y refs))).here
    unfold methodAt
    rw [Atomic.runOn_ask_bind, show ((y.during refs).cls c).method? slot = some m from here]
    rfl
  rw [ends_bind, ends_bind]
  refine or_congr ?_ ?_
  · refine exists_congr fun f => and_congr_left fun _ => ?_
    rw [ends_act, ends_ask]
    constructor
    · rintro ⟨y, refs, change, ran, -⟩
      cases (found y _ change).symm.trans ran
    · rintro ⟨-, same, -⟩
      cases same
  · constructor
    · rintro ⟨a, d, v, first, rest⟩
      obtain ⟨y, refs, change, ran, rfl⟩ := ends_act.mp first
      cases (found y _ change).symm.trans ran
      exact ⟨_, _, _, ends_act.mpr ⟨y, refs, change, rfl, rfl⟩, rest⟩
    · rintro ⟨a, d, v, first, rest⟩
      obtain ⟨y, refs, change, ran, rfl⟩ := ends_act.mp first
      cases ran
      exact ⟨_, _, _, ends_act.mpr ⟨y, refs, change, found y _ change, rfl⟩, rest⟩

theorem ends_given_bind {y : Member} {g h : Option ClassId → Exec η β} {r : Except Failure β}
    (names : w.Names mirror c slot y)
    (same : ∀ k v d, v.Names mirror c slot y →
      (Ends code rely v d (g k) r e u ↔ Ends code rely v d (h k) r e u)) :
    Ends code rely w env (releasing (do
        match ← referenceArg call index with
        | none => return none
        | some o => some <$> act (Atomic.mirroredClass o)) >>= g) r e u ↔
      Ends code rely w env (releasing (do
        match ← referenceArg call index with
        | none => return none
        | some o => some <$> act (Atomic.mirroredClass o)) >>= h) r e u := by
  refine ends_bind_congr fun k d v ends => same k v d ?_
  obtain ⟨d', ends, -⟩ := ends_keeping.mp ends
  obtain ⟨_, _, same⟩ | ⟨s, d'', v', first, rest⟩ := ends_bind.mp ends
  · cases same
  obtain ⟨-, rfl⟩ := first.readReference
  cases s with
  | none =>
    obtain ⟨-, -, rfl⟩ := ends_pure.mp rest
    exact names
  | some o =>
    dsimp only at rest
    rw [map_eq_pure_bind] at rest
    obtain ⟨_, _, same⟩ | ⟨k', d₃, v₃, asked, rest⟩ := ends_bind.mp rest
    · cases same
    obtain ⟨-, -, rfl⟩ := ends_pure.mp rest
    obtain ⟨z, refs, change, ran, -⟩ := ends_act.mp asked
    have left : ((Atomic.mirroredClass o).runOn (z.during (d''.references ++ refs))).2 =
        z.during (d''.references ++ refs) := by
      unfold Atomic.mirroredClass
      rw [Atomic.runOn_get_bind]
      cases ((z.during (d''.references ++ refs)).heap.get o).mirrored? <;> rfl
    rw [ran] at left
    subst left
    exact names.recalled ((steady v' z change).trans (.during z _))

section natives
variable {r : Except Failure Nat} {n : MemberNative} {prog : Exec η Nat} (small : slot < 2 ^ 31)
  (mirrorGiven : call.argument? env.stack n.mirrorAt = some (.ref (some mirror)))
  (slotGiven : call.argument? env.stack n.slotAt = some (.int (.ofNat slot)))
include small mirrorGiven slotGiven

theorem ends_onField (names : w.Names mirror c slot (.field f))
    (on : n.onField call f = some prog) :
    Ends code rely w env (n.run call) r e u ↔ Ends code rely w env prog r e u := by
  have located {β : Type} {v : World η} {d e' : Env} {u' : World η}
      {g : FieldPlace → Exec η β} {receiver : Reference} {r' : Except Failure β}
      (names : v.Names mirror c slot (.field f)) :
      Ends code rely v d (locateField c slot receiver >>= g) r' e' u' ↔
        Ends code rely v d (placeOf c f receiver >>= g) r' e' u' :=
    ends_congr_bind fun _ _ _ => ends_locateField steady names
  cases n with
  | invoke | construct | methodModifiers => cases on
  | fieldModifiers =>
    cases on
    refine ends_memberArgs_bind steady small names mirrorGiven slotGiven fun v d names => ?_
    refine ends_askClass_bind steady names fun x here v d => ?_
    rw [show x.field? slot = some f from here]
  | getField =>
    cases on
    refine ends_accessArgs_bind steady small names mirrorGiven slotGiven fun receiver v d names => ?_
    exact ends_congr_bind fun _ _ _ => located names
  | setField =>
    cases on
    refine ends_accessArgs_bind steady small names mirrorGiven slotGiven fun receiver v d names => ?_
    refine ends_given_bind steady names fun given v d names => ?_
    refine ends_referenceArg_bind fun value d _ => ?_
    exact ends_congr_bind fun _ _ _ => located names
  | getPrimitiveField =>
    cases on
    unfold MemberNative.run
    cases call.method.type.result.bind FieldType.primitive? with
    | none => rfl
    | some want =>
      refine ends_accessArgs_bind steady small names mirrorGiven slotGiven fun receiver v d names => ?_
      exact ends_congr_bind fun _ _ _ => located names
  | setPrimitiveField =>
    cases on
    refine ends_accessArgs_bind steady small names mirrorGiven slotGiven fun receiver v d names => ?_
    refine ends_bind_congr fun value d' v' ends => ?_
    obtain ⟨-, rfl⟩ := ends.read
    exact ends_congr_bind fun _ _ _ => located names

theorem ends_onMethod (names : w.Names mirror c slot (.method m))
    (on : n.onMethod call m = some prog) :
    Ends code rely w env (n.run call) r e u ↔ Ends code rely w env prog r e u := by
  cases n with
  | fieldModifiers | getField | setField | getPrimitiveField | setPrimitiveField => cases on
  | methodModifiers =>
    cases on
    refine ends_memberArgs_bind steady small names mirrorGiven slotGiven fun v d names => ?_
    exact ends_methodAt_bind steady names
  | invoke =>
    cases on
    refine ends_referenceArg_bind fun receiver d stack => ?_
    rw [← stack] at mirrorGiven slotGiven
    refine ends_accessArgs_bind steady small names mirrorGiven slotGiven fun args v d names => ?_
    exact ends_congr_bind fun _ _ _ => ends_methodAt_bind steady names
  | construct =>
    cases on
    refine ends_accessArgs_bind steady small names mirrorGiven slotGiven fun args v d names => ?_
    exact ends_congr_bind fun _ _ _ => ends_methodAt_bind steady names

/-- Given the mirror and the position, a native goes just as it goes with the member. -/
theorem ends_on {y : Member} (names : w.Names mirror c slot y) (on : n.on? call y = some prog) :
    Ends code rely w env (n.run call) r e u ↔ Ends code rely w env prog r e u := by
  cases y with
  | field f => exact ends_onField steady small mirrorGiven slotGiven names on
  | method m => exact ends_onMethod steady small mirrorGiven slotGiven names on

end natives
end steady
end Exec
end ManagedRuntime
