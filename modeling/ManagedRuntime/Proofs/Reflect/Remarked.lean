import ManagedRuntime.Natives.Members
import ManagedRuntime.Proofs.Loading.Reports

/-!
Reflective access with reports. Classes are asked for with reports, and a method is remarked before it
is called: for a call also the method at the position that was given. Main statement: without reports
and remarks the natives of reflected members are the runtime's own.
-/
namespace ManagedRuntime.Reporting
open Noting
variable {η : Type}

def remark (k : Remark) : Noting η Report Unit := note (.remarks k)

def locateField (c : ClassId) (slot : Nat) (receiver : Reference) :
    Noting η Report Exec.FieldPlace := do
  let x ← ofExec (Exec.act (Atomic.ask (·.cls c)))
  match x.field? slot with
  | none => throw (.noFieldSlot x.name slot)
  | some f =>
    if f.isStatic then
      request c
      return ⟨c, f, none⟩
    else
      let o ← ofExec (Exec.act (Exec.receiverOf c receiver))
      return ⟨c, f, some o⟩

def getField (c : ClassId) (slot : Nat) (receiver : Reference) : Noting η Report Reference := do
  let p ← locateField c slot receiver
  let v ← ofExec (Exec.act (Exec.readPlace p))
  ofExec (Exec.act (Atomic.box v))

def getPrimitiveField (c : ClassId) (slot : Nat) (receiver : Reference) (want : Primitive) :
    Noting η Report Value := do
  let p ← locateField c slot receiver
  if p.field.type.isReference then throw .fieldTypeMismatch
  let v ← ofExec (Exec.act (Exec.readPlace p))
  match v.widen want with
  | some x => return x
  | none => throw .fieldTypeMismatch

def setField (c : ClassId) (slot : Nat) (receiver : Reference) (given : Option ClassId)
    (value : Reference) : Noting η Report Unit := do
  let p ← locateField c slot receiver
  let loader ← ofExec (Exec.act (Atomic.ask fun w => (w.cls c).loader))
  let v ← ofExec
    (Exec.act (Atomic.convert value p.field.type given loader .fieldTypeMismatch))
  ofExec (Exec.act (Exec.writePlace p v))

def setPrimitiveField (c : ClassId) (slot : Nat) (receiver : Reference) (value : Value) :
    Noting η Report Unit := do
  let p ← locateField c slot receiver
  match p.field.type.primitive?.bind value.widen with
  | some v => ofExec (Exec.act (Exec.writePlace p v))
  | none => throw .fieldTypeMismatch

def invocationTarget (c : ClassId) (m : Method) (receiver : Reference) :
    Noting η Report (Method × List Value) := do
  if m.isStatic then
    request c
    return (m, [])
  else
    let o ← ofExec (Exec.act (Exec.receiverOf c receiver))
    let target ← ofExec (Exec.act do
      let w ← get
      w.registry.virtualTarget (w.classOf o) m)
    return (target, [.ref (some o)])

def callAndBox (target : Method) (all : List Value) : Exec η Reference := do
  match ← Exec.callTarget target all with
  | none => return none
  | some v => Exec.act (Atomic.box v)

def invokeMember (c : ClassId) (slot : Nat) (receiver args : Reference) :
    Noting η Report Reference := do
  let m ← ofExec (Exec.act (Exec.methodAt c slot))
  let (target, this) ← invocationTarget c m receiver
  let loader ← ofExec (Exec.act (Atomic.ask fun w => (w.cls c).loader))
  let values ← ofExec (Exec.act (Exec.convertArguments target loader args))
  let all := this ++ values
  ofExec (Exec.hold (Value.objects all))
  remark (.invokes m target)
  ofExec (callAndBox target all)

def construct (c : ClassId) (slot : Nat) (args : Reference) : Noting η Report ObjectId := do
  let m ← ofExec (Exec.act (Exec.methodAt c slot))
  let x ← ofExec (Exec.act (Atomic.ask (·.cls c)))
  if x.isInterface || x.isAbstract then throw (.instantiation x.dottedName)
  let values ← ofExec (Exec.act (Exec.convertArguments m x.loader args))
  ofExec (Exec.hold (Value.objects values))
  request c
  let o ← ofExec (Exec.act (Atomic.newInstance c))
  remark (.constructs m)
  ofExec (Exec.releasing (discard (Exec.callTarget m (.ref (some o) :: values))))
  return o

def memberNative (n : MemberNative) (call : NativeCall) : Noting η Report Nat :=
  match n with
  | .fieldModifiers => ofExec (MemberNative.run .fieldModifiers call)
  | .getField => do
    let receiver ← ofExec (Exec.referenceArg call 1)
    let c ← ofExec (Exec.classArg call 2)
    let slot ← ofExec (Exec.slotArg call 4)
    let r ← getField c slot receiver
    ofExec (Exec.finishRef call r)
  | .setField => do
    let receiver ← ofExec (Exec.referenceArg call 1)
    let c ← ofExec (Exec.classArg call 2)
    let slot ← ofExec (Exec.slotArg call 4)
    let given ← ofExec (Exec.releasing do
      match ← Exec.referenceArg call 3 with
      | none => return none
      | some o => some <$> Exec.act (Atomic.mirroredClass o))
    let value ← ofExec (Exec.referenceArg call 5)
    setField c slot receiver given value
    ofExec (Exec.finishVoid call)
  | .getPrimitiveField =>
    match call.method.type.result.bind FieldType.primitive? with
    | none => throw (.noPrimitiveResult call.method.text)
    | some want => do
      let receiver ← ofExec (Exec.referenceArg call 1)
      let c ← ofExec (Exec.classArg call 2)
      let slot ← ofExec (Exec.slotArg call 4)
      let v ← getPrimitiveField c slot receiver want
      ofExec (Exec.finish call (some v))
  | .setPrimitiveField => do
    let receiver ← ofExec (Exec.referenceArg call 1)
    let c ← ofExec (Exec.classArg call 2)
    let slot ← ofExec (Exec.slotArg call 4)
    let value ← ofExec (Exec.arg call 5)
    setPrimitiveField c slot receiver value
    ofExec (Exec.finishVoid call)
  | .methodModifiers => ofExec (MemberNative.run .methodModifiers call)
  | .invoke => do
    let receiver ← ofExec (Exec.referenceArg call 1)
    let args ← ofExec (Exec.referenceArg call 2)
    let c ← ofExec (Exec.classArg call 3)
    let slot ← ofExec (Exec.slotArg call 4)
    let r ← invokeMember c slot receiver args
    ofExec (Exec.finishRef call r)
  | .construct => do
    let args ← ofExec (Exec.referenceArg call 1)
    let c ← ofExec (Exec.classArg call 2)
    let slot ← ofExec (Exec.slotArg call 3)
    let o ← construct c slot args
    ofExec (Exec.finishRef call (some o))

/-! Without reports and remarks. -/

theorem plain_locateField (c : ClassId) (slot : Nat) (receiver : Reference) :
    (locateField c slot receiver : Noting η Report _).plain = Exec.locateField c slot receiver := by
  rw [locateField, plain_bind, plain_ofExec, Exec.locateField]
  refine congrArg _ (funext fun x => ?_)
  cases x.field? slot with
  | none => rfl
  | some f =>
    dsimp only
    split
    · rw [plain_bind, plain_request]
      rfl
    · rw [plain_bind, plain_ofExec]
      rfl

theorem plain_getField (c : ClassId) (slot : Nat) (receiver : Reference) :
    (getField c slot receiver : Noting η Report _).plain = Exec.getField c slot receiver := by
  simp only [getField, plain_bind, plain_locateField, plain_ofExec]
  rfl

theorem plain_getPrimitiveField (c : ClassId) (slot : Nat) (receiver : Reference)
    (want : Primitive) :
    (getPrimitiveField c slot receiver want : Noting η Report _).plain =
      Exec.getPrimitiveField c slot receiver want := by
  rw [getPrimitiveField, plain_bind, plain_locateField, Exec.getPrimitiveField]
  refine congrArg _ (funext fun p => ?_)
  dsimp only
  split
  · rfl
  · rw [plain_bind, plain_ofExec]
    refine congrArg _ (funext fun v => ?_)
    cases v.widen want <;> rfl

theorem plain_setField (c : ClassId) (slot : Nat) (receiver : Reference) (given : Option ClassId)
    (value : Reference) :
    (setField c slot receiver given value : Noting η Report _).plain =
      Exec.setField c slot receiver given value := by
  simp only [setField, plain_bind, plain_locateField, plain_ofExec]
  rfl

theorem plain_setPrimitiveField (c : ClassId) (slot : Nat) (receiver : Reference) (value : Value) :
    (setPrimitiveField c slot receiver value : Noting η Report _).plain =
      Exec.setPrimitiveField c slot receiver value := by
  rw [setPrimitiveField, plain_bind, plain_locateField, Exec.setPrimitiveField]
  refine congrArg _ (funext fun p => ?_)
  cases p.field.type.primitive?.bind value.widen with
  | none => rfl
  | some v => exact plain_ofExec _

theorem plain_invocationTarget (c : ClassId) (m : Method) (receiver : Reference) :
    (invocationTarget c m receiver : Noting η Report _).plain =
      Exec.invocationTarget c m receiver := by
  unfold invocationTarget Exec.invocationTarget
  split
  · rw [plain_bind, plain_request]
    rfl
  · simp only [plain_bind, plain_ofExec]
    rfl

theorem plain_invokeMember (c : ClassId) (slot : Nat) (receiver args : Reference) :
    (invokeMember c slot receiver args : Noting η Report _).plain =
      Exec.invokeMember c slot receiver args := by
  simp only [invokeMember, plain_bind, plain_invocationTarget, plain_ofExec]
  rfl

theorem plain_construct (c : ClassId) (slot : Nat) (args : Reference) :
    (construct c slot args : Noting η Report _).plain = Exec.construct c slot args := by
  rw [construct, plain_bind, plain_ofExec, Exec.construct]
  refine congrArg _ (funext fun m => ?_)
  rw [plain_bind, plain_ofExec]
  refine congrArg _ (funext fun x => ?_)
  dsimp only
  split
  · rfl
  · simp only [plain_bind, plain_request, plain_ofExec]
    rfl

theorem plain_memberNative (n : MemberNative) (call : NativeCall) :
    (memberNative n call : Noting η Report Nat).plain = n.run call := by
  cases n with
  | fieldModifiers | methodModifiers => exact plain_ofExec _
  | getPrimitiveField =>
    unfold memberNative MemberNative.run
    dsimp only
    cases call.method.type.result.bind FieldType.primitive? with
    | none => rfl
    | some want => simp only [plain_bind, plain_getPrimitiveField, plain_ofExec]
  | getField => simp only [memberNative, plain_bind, plain_getField, plain_ofExec]; rfl
  | setField => simp only [memberNative, plain_bind, plain_setField, plain_ofExec]; rfl
  | setPrimitiveField =>
    simp only [memberNative, plain_bind, plain_setPrimitiveField, plain_ofExec]
    rfl
  | invoke => simp only [memberNative, plain_bind, plain_invokeMember, plain_ofExec]; rfl
  | construct => simp only [memberNative, plain_bind, plain_construct, plain_ofExec]; rfl

end ManagedRuntime.Reporting
