import ManagedRuntime.Natives.Objects
import ManagedRuntime.Thread.Lifecycle

/-!
Natives of threads. The instance natives work on the record behind their receiver and do nothing,
or answer no, when the thread has ended.
-/
namespace ManagedRuntime
open Exec
variable {η : Type}

/-- The record behind the receiver, if its thread is registered. -/
def receiverThread (call : NativeCall) : Exec η (Option ThreadId) := do
  let this ← objectArg call 0
  act (Atomic.ask (·.threads.get? this))

def threadQuery (call : NativeCall) (test : ThreadRecord → Bool) : Exec η Nat := do
  let t ← receiverThread call
  let answer ← act (Atomic.ask fun w => (t.map fun t => test (w.record t)).getD false)
  finishBoolean call answer

def ThreadNative.run (n : ThreadNative) (call : NativeCall) : Exec η Nat := do
  match n with
  | currentThread =>
    let me := (← get).thread
    let o ← act (Atomic.ask fun w => (w.record me).object)
    finishRef call o
  | create =>
    let o ← objectArg call 0
    createThread o
    finishVoid call
  | sleep =>
    let millis ← longArg call 0
    let nanos ← intArg call 1
    let limit ← conclude (timeout millis nanos)
    Exec.sleep (limit.getD 0)
    finishVoid call
  | yield => finishVoid call
  | interrupted =>
    let flag ← takeInterrupt
    finishBoolean call flag
  | holdsLock =>
    let o ← objectArg call 0
    let me := (← get).thread
    let held ← act (Atomic.ask fun w => (w.monitorOf o).ownedBy me)
    finishBoolean call held
  | interrupt =>
    match ← receiverThread call with
    | some t => act (modify (·.interrupt t))
    | none => pure ()
    finishVoid call
  | isAlive => threadQuery call ThreadRecord.alive
  | isInterrupted => threadQuery call ThreadRecord.interrupted
  | nativeSetPriority =>
    discard (intArg call 1)
    finishVoid call

end ManagedRuntime
