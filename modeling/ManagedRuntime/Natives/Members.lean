import ManagedRuntime.Reflect.Invocation

/-!
Natives of reflected members. A field accessor takes the member, the receiver, the declaring class,
the type of the field and the position; primitive accessors learn their type from their own result.
-/
namespace ManagedRuntime
open Exec
variable {η : Type}

def MemberNative.run (n : MemberNative) (call : NativeCall) : Exec η Nat := do
  match n with
  | fieldModifiers =>
    let c ← classArg call 1
    let slot ← slotArg call 2
    let x ← act (Atomic.ask (·.cls c))
    match x.field? slot with
    | some f => finishInt call f.flags.bits.toUInt32.toInt32
    | none => throw (.noFieldSlot x.name slot)
  | getField =>
    let receiver ← referenceArg call 1
    let c ← classArg call 2
    let slot ← slotArg call 4
    let r ← Exec.getField c slot receiver
    finishRef call r
  | setField =>
    let receiver ← referenceArg call 1
    let c ← classArg call 2
    let slot ← slotArg call 4
    let given ← releasing do
      match ← referenceArg call 3 with
      | none => return none
      | some o => some <$> act (Atomic.mirroredClass o)
    let value ← referenceArg call 5
    Exec.setField c slot receiver given value
    finishVoid call
  | getPrimitiveField =>
    match call.method.type.result.bind FieldType.primitive? with
    | none => throw (.noPrimitiveResult call.method.text)
    | some want =>
      let receiver ← referenceArg call 1
      let c ← classArg call 2
      let slot ← slotArg call 4
      let v ← Exec.getPrimitiveField c slot receiver want
      finish call (some v)
  | setPrimitiveField =>
    let receiver ← referenceArg call 1
    let c ← classArg call 2
    let slot ← slotArg call 4
    let value ← arg call 5
    Exec.setPrimitiveField c slot receiver value
    finishVoid call
  | methodModifiers =>
    let c ← classArg call 1
    let slot ← slotArg call 2
    let m ← act (methodAt c slot)
    finishInt call m.flags.bits.toUInt32.toInt32
  | invoke =>
    let receiver ← referenceArg call 1
    let args ← referenceArg call 2
    let c ← classArg call 3
    let slot ← slotArg call 4
    let r ← invokeMember c slot receiver args
    finishRef call r
  | construct =>
    let args ← referenceArg call 1
    let c ← classArg call 2
    let slot ← slotArg call 3
    let o ← Exec.construct c slot args
    finishRef call (some o)

end ManagedRuntime
