import ManagedRuntime.Array.Transfer
import ManagedRuntime.Execution.Interning
import ManagedRuntime.Thread.Blocking

/-!
Natives on objects of any class: their class, copies, monitors, identity, arrays and strings.
-/
namespace ManagedRuntime
open Exec
variable {η : Type}

/-- Nanoseconds of a timeout, none for one of zero, which means no limit. -/
def timeout (millis : Int64) (nanos : Int32) : Except Failure (Option Nat) :=
  if millis < 0 || nanos < 0 || 1000000 ≤ nanos then .error .badTimeout
  else if millis = 0 ∧ nanos = 0 then .ok none
  else .ok (some (millis.toNatClampNeg * 1000000 + nanos.toNatClampNeg))

def ObjectNative.run (n : ObjectNative) (call : NativeCall) : Exec η Nat := do
  let o ← objectArg call 0
  match n with
  | getClass =>
    let m ← act do Atomic.mirror ((← get).classOf o)
    finishRef call (some m)
  | clone =>
    let copy ← act (Atomic.copyObject o)
    finishRef call (some copy)
  | wait =>
    let millis ← longArg call 1
    let nanos ← intArg call 2
    let limit ← conclude (timeout millis nanos)
    waitOn o limit
    finishVoid call
  | notify =>
    Exec.notify o
    finishVoid call
  | notifyAll =>
    Exec.notifyAll o
    finishVoid call

def SystemNative.run (n : SystemNative) (call : NativeCall) : Exec η Nat := do
  match n with
  | arraycopy =>
    let src ← referenceArg call 0
    let dest ← referenceArg call 2
    let srcPos ← intArg call 1
    let destPos ← intArg call 3
    let length ← intArg call 4
    act (Atomic.onHeap fun r h => h.arrayCopy r src srcPos dest destPos length)
    finishVoid call
  | identityHashCode =>
    let r ← referenceArg call 0
    finishInt call ((r.map ObjectId.hashCode).getD 0)

def internNative (call : NativeCall) : Exec η Nat := do
  let o ← objectArg call 0
  let s ← intern o
  finishRef call (some s)

end ManagedRuntime
