import ManagedRuntime.Execution.Calls

/-!
Operations of a thread that may block: monitors, waiting and sleeping, and the interrupts that end
them early.
-/
namespace ManagedRuntime

namespace World
variable {η : Type} (w : World η)

def isInterrupted (t : ThreadId) : Bool := (w.record t).interrupted

def clearInterrupt (t : ThreadId) : World η := w.modifyRecord t ({ · with interrupted := false })

/-- Sets the interrupt flag; a thread that waits or sleeps sees it when it next looks. -/
def interrupt (t : ThreadId) : World η := w.modifyRecord t ({ · with interrupted := true })

def noteWaiting (t : ThreadId) (o : Reference) : World η :=
  w.modifyRecord t ({ · with waitingOn := o })

def expired (deadline : Option Nat) : Bool :=
  match deadline with
  | none => false
  | some t => t ≤ w.clock

def addDeadline? (limit : Option Nat) : Option Nat × World η :=
  match limit with
  | none => (none, w)
  | some d => let r := w.addDeadline d; (some r.1, r.2)

end World

namespace Exec
variable {η : Type}

def enterMonitor (o : ObjectId) : Exec η Unit := do
  let me := (← get).thread
  await fun w => ((w.monitorOf o).enter? me).map fun m => (.ok (), w.setMonitor o m)

/-- A change of a monitor that its owner alone may make. -/
def onMonitor (o : ObjectId) (f : Monitor → ThreadId → Except Failure Monitor) : Exec η Unit := do
  let me := (← get).thread
  act (Atomic.ofFunction fun w =>
    match f (w.monitorOf o) me with
    | .ok m => (.ok (), w.setMonitor o m)
    | .error e => (.error e, w))

def exitMonitor (o : ObjectId) : Exec η Unit := onMonitor o Monitor.exit
def notify (o : ObjectId) : Exec η Unit := onMonitor o Monitor.notify
def notifyAll (o : ObjectId) : Exec η Unit := onMonitor o Monitor.notifyAll

/-- A wait under way: the count to restore, the deadline, why the thread was woken if it was, and
whether it owns the monitor again. -/
structure Waiting where
  count : Nat
  deadline : Option Nat
  reason : Option WakeReason
  owns : Bool

/-- The part of a critical section after which a woken thread owns the monitor again if it can. -/
def settleWaiter (w : World η) (me : ThreadId) (o : ObjectId) (m : Monitor) (s : Waiting) :
    WakeReason → Waiting × World η := fun reason =>
  let woken := m.wake reason
  match woken.reacquire? me s.count with
  | some m' => ({ s with reason := some reason, owns := true }, w.setMonitor o m')
  | none => ({ s with reason := some reason }, w.setMonitor o woken)

def beginWait (o : ObjectId) (limit : Option Nat) (me : ThreadId) (w : World η) :
    Except Failure Waiting × World η :=
  if (w.monitorOf o).owner ≠ some me then (.error .illegalMonitorState, w)
  else if w.isInterrupted me then (.error .interrupted, w.clearInterrupt me)
  else
    let joined := (w.monitorOf o).joinWaiters
    let timed := (w.noteWaiting me (some o)).addDeadline? limit
    let s : Waiting := ⟨joined.1, timed.1, none, false⟩
    match joined.2.wakeReason? false false with
    | some reason => let r := settleWaiter timed.2 me o joined.2 s reason; (.ok r.1, r.2)
    | none => (.ok s, timed.2.setMonitor o joined.2)

def awaken (o : ObjectId) (s : Waiting) (me : ThreadId) (w : World η) :
    Option (Waiting × World η) :=
  ((w.monitorOf o).wakeReason? (w.isInterrupted me) (w.expired s.deadline)).map
    (settleWaiter w me o (w.monitorOf o) s)

/-- Waits on a monitor that the thread owns, for `limit` nanoseconds or without end. -/
def waitOn (o : ObjectId) (limit : Option Nat) : Exec η Unit := do
  let me := (← get).thread
  let begun ← act (Atomic.ofFunction (beginWait o limit me))
  let woken ←
    if begun.reason.isSome then pure begun
    else await fun w => (awaken o begun me w).map fun r => (.ok r.1, r.2)
  unless woken.owns do
    await fun w =>
      ((w.monitorOf o).reacquire? me woken.count).map fun m => (.ok (), w.setMonitor o m)
  act (modify (·.noteWaiting me none))
  if woken.reason = some .interrupted then
    act (modify (·.clearInterrupt me))
    throw .interrupted

def takeInterrupt : Exec η Bool := do
  let me := (← get).thread
  act (modifyGet fun w => (w.isInterrupted me, w.clearInterrupt me))

def sleep (duration : Nat) : Exec η Unit := do
  let me := (← get).thread
  let deadline ← act (modifyGet (·.addDeadline duration))
  await fun w =>
    if w.isInterrupted me then some (.error .interrupted, w.clearInterrupt me)
    else if deadline ≤ w.clock then some (.ok (), w)
    else none

end Exec
end ManagedRuntime
