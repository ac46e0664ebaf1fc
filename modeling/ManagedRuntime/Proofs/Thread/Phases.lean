import ManagedRuntime.Natives.Threads
import ManagedRuntime.Proofs.Execution.ArgumentPassing

/-!
Interrupts, waits and sleeps, with every point at which threads synchronise a step of its own: the
interrupt flag, the object that a thread notes it waits on, the lock of each monitor and the lock
under which a thread sleeps. A thread that blocks gives its lock up in the same step.
-/
namespace ManagedRuntime

namespace World
variable {η : Type} {w : World η} {t u : ThreadId}

theorem record_modifyRecord (f : ThreadRecord → ThreadRecord) :
    (w.modifyRecord t f).record u =
      if u = t ∧ t.index < w.records.size then f (w.record u) else w.record u := by
  unfold record modifyRecord
  rw [Array.getElem?_modify]
  by_cases same : u = t
  · subst same
    rw [if_pos rfl]
    by_cases there : u.index < w.records.size
    · rw [if_pos ⟨rfl, there⟩, Array.getElem?_eq_getElem there]
      rfl
    · rw [if_neg fun both => there both.2, Array.getElem?_eq_none (by omega)]
      rfl
  · have other : t.index ≠ u.index := fun index => same (congrArg ThreadId.mk index.symm)
    rw [if_neg other, if_neg fun both => same both.1]

theorem size_modifyRecord (f : ThreadRecord → ThreadRecord) :
    (w.modifyRecord t f).records.size = w.records.size := by
  simp [modifyRecord]

theorem known_of_isInterrupted (set : w.isInterrupted t = true) : t.index < w.records.size := by
  refine Nat.lt_of_not_le fun outside => ?_
  rw [isInterrupted, record, Array.getElem?_eq_none outside] at set
  cases set

theorem isInterrupted_interrupt : (w.interrupt t).isInterrupted u =
    (w.isInterrupted u || decide (u = t ∧ t.index < w.records.size)) := by
  unfold isInterrupted interrupt
  rw [record_modifyRecord]
  split
  · rename_i both
    simp [both]
  · rename_i other
    simp [other]

theorem isInterrupted_clearInterrupt : (w.clearInterrupt t).isInterrupted u =
    (w.isInterrupted u && decide (u ≠ t)) := by
  by_cases both : u = t ∧ t.index < w.records.size
  · rw [isInterrupted, clearInterrupt, record_modifyRecord, if_pos both]
    simp [both]
  · rw [isInterrupted, clearInterrupt, record_modifyRecord, if_neg both]
    cases set : w.isInterrupted u with
    | false => exact set
    | true =>
      have other : u ≠ t := by
        intro same
        subst same
        exact both ⟨rfl, known_of_isInterrupted set⟩
      rw [decide_eq_true other]
      exact set

theorem isInterrupted_noteWaiting (o : Reference) :
    (w.noteWaiting t o).isInterrupted u = w.isInterrupted u := by
  unfold isInterrupted noteWaiting
  rw [record_modifyRecord]
  split <;> rfl

theorem waitingOn_noteWaiting (o : Reference) (known : t.index < w.records.size) :
    ((w.noteWaiting t o).record u).waitingOn =
      if u = t then o else (w.record u).waitingOn := by
  unfold noteWaiting
  rw [record_modifyRecord]
  simp only [known, and_true]
  split <;> rfl

theorem waitingOn_interrupt : ((w.interrupt t).record u).waitingOn = (w.record u).waitingOn := by
  unfold interrupt
  rw [record_modifyRecord]
  split <;> rfl

theorem waitingOn_clearInterrupt :
    ((w.clearInterrupt t).record u).waitingOn = (w.record u).waitingOn := by
  unfold clearInterrupt
  rw [record_modifyRecord]
  split <;> rfl

end World

namespace Interrupts
variable {η : Type}

/-- Where a thread stands in a wait, in a sleep or in an interrupt of another thread. From `asked`
to `parking` it has the lock of the monitor, in `checking` and `dozing` its own sleeping lock. -/
inductive Phase where
  | idle
  /-- It has begun to wait as the owner. -/
  | asked (o : ObjectId) (limit : Option Nat)
  /-- It has found its flag clear. -/
  | unnoted (o : ObjectId) (limit : Option Nat)
  /-- It has noted the object, and is about to give the monitor up. -/
  | noted (o : ObjectId) (limit : Option Nat)
  /-- It is in the wait set, and is about to look for a reason to leave. -/
  | looking (o : ObjectId) (st : Exec.Waiting)
  /-- It has found none, and is about to block. -/
  | parking (o : ObjectId) (st : Exec.Waiting)
  | parked (o : ObjectId) (st : Exec.Waiting)
  | woken (o : ObjectId) (st : Exec.Waiting)
  /-- It was woken by its deadline. -/
  | late (o : ObjectId) (st : Exec.Waiting)
  /-- It has left the wait set and needs the monitor. -/
  | contending (o : ObjectId) (st : Exec.Waiting)
  /-- It owns the monitor again. -/
  | returning (o : ObjectId) (st : Exec.Waiting)
  /-- It has noted that it does not wait any more. -/
  | withdrawn (st : Exec.Waiting)
  /-- It sleeps until a moment, and needs its sleeping lock. -/
  | drowsy (deadline : Nat)
  | checking (deadline : Nat)
  /-- It has found its flag clear. -/
  | dozing (deadline : Nat)
  | asleep (deadline : Nat)
  /-- It has set the flag of the other. -/
  | flagged (u : ThreadId)
  /-- It has read what the other waits on. -/
  | calling (u : ThreadId) (o : ObjectId)
  /-- It has woken those who wait there, if there was something to read. -/
  | nudging (u : ThreadId)

namespace Phase

def lock? : Phase → Option ObjectId
  | asked o _ | unnoted o _ | noted o _ | looking o _ | parking o _ => some o
  | _ => none

def hasSleepLock : Phase → Bool
  | checking _ | dozing _ => true
  | _ => false

def Blocked : Phase → Prop
  | parked _ _ | asleep _ => True
  | _ => False

def Interrupting (t : ThreadId) : Phase → Prop
  | flagged u | calling u _ | nudging u => u = t
  | _ => False

def called (o : ObjectId) : Phase → Phase
  | parked p st => if p = o then woken p st else parked p st
  | ph => ph

def nudged : Phase → Phase
  | asleep deadline => drowsy deadline
  | ph => ph

def back (o : ObjectId) (st : Exec.Waiting) : Phase :=
  if st.owns then returning o st else contending o st

end Phase

inductive Event where
  | silent
  | interrupts (u : ThreadId)
  /-- A wait or a sleep fails because the thread was interrupted. -/
  | reports (t : ThreadId)
  /-- The native query of the thread's own flag: is there room on the stack for an answer, and what
  answer does it leave there? -/
  | query (t : ThreadId) (room : Bool) (answer : Option Bool)
  deriving DecidableEq

namespace Event

def Reports (t : ThreadId) : Event → Prop
  | reports u => u = t
  | query u _ answer => u = t ∧ answer = some true
  | _ => False

/-- Thread `t` queries its flag where there is no room for the answer. -/
def Loses (t : ThreadId) : Event → Prop
  | query u room _ => u = t ∧ room = false
  | _ => False

instance (t : ThreadId) : DecidablePred (Reports t) := fun e =>
  match e with
  | reports u => inferInstanceAs (Decidable (u = t))
  | query u _ answer => inferInstanceAs (Decidable (u = t ∧ answer = some true))
  | silent | interrupts _ => inferInstanceAs (Decidable False)

end Event

def answer? (call : NativeCall) (e : Env) : Except Failure Nat → Option Bool
  | .ok _ => (e.stack.read call.base (some .boolean)).bind Value.boolean?
  | .error _ => none

/-- A step of thread `t` that changes the phase of no other thread. A monitor's lock can be taken
where it is `free`. -/
inductive Move (code : Code η) (t : ThreadId) (free : ObjectId → Prop) (w : World η) :
    Phase → Event → Phase → World η → Prop where
  | ask {o : ObjectId} {limit : Option Nat} (unlocked : free o)
      (owner : (w.monitorOf o).owner = some t) : Move code t free w .idle .silent (.asked o limit) w
  | refuse {o : ObjectId} {limit : Option Nat} (set : w.isInterrupted t = true) :
      Move code t free w (.asked o limit) (.reports t) .idle (w.clearInterrupt t)
  | accept {o : ObjectId} {limit : Option Nat} (clear : w.isInterrupted t = false) :
      Move code t free w (.asked o limit) .silent (.unnoted o limit) w
  | note {o : ObjectId} {limit : Option Nat} :
      Move code t free w (.unnoted o limit) .silent (.noted o limit) (w.noteWaiting t (some o))
  | join {o : ObjectId} {limit : Option Nat} :
      Move code t free w (.noted o limit) .silent
        (.looking o ⟨(w.monitorOf o).joinWaiters.1, (w.addDeadline? limit).1, none, false⟩)
        ((w.addDeadline? limit).2.setMonitor o (w.monitorOf o).joinWaiters.2)
  | leave {o : ObjectId} {st st' : Exec.Waiting} {reason : WakeReason} {w' : World η}
      (why : (w.monitorOf o).wakeReason? (w.isInterrupted t) false = some reason)
      (settled : Exec.settleWaiter w t o (w.monitorOf o) st reason = (st', w')) :
      Move code t free w (.looking o st) .silent (.back o st') w'
  | stay {o : ObjectId} {st : Exec.Waiting}
      (why : (w.monitorOf o).wakeReason? (w.isInterrupted t) false = none) :
      Move code t free w (.looking o st) .silent (.parking o st) w
  | park {o : ObjectId} {st : Exec.Waiting} :
      Move code t free w (.parking o st) .silent (.parked o st) w
  /-- Nobody has called. -/
  | wake {o : ObjectId} {st : Exec.Waiting} :
      Move code t free w (.parked o st) .silent (.woken o st) w
  | look {o : ObjectId} {st : Exec.Waiting} (unlocked : free o) :
      Move code t free w (.woken o st) .silent (.looking o st) w
  | expire {o : ObjectId} {st : Exec.Waiting} (timed : st.deadline.isSome) :
      Move code t free w (.parked o st) .silent (.late o st) w
  | giveUp {o : ObjectId} {st st' : Exec.Waiting} {w' : World η} (unlocked : free o)
      (settled : Exec.settleWaiter w t o (w.monitorOf o) st .timedOut = (st', w')) :
      Move code t free w (.late o st) .silent (.back o st') w'
  | retake {o : ObjectId} {st : Exec.Waiting} {m : Monitor} (unlocked : free o)
      (taken : (w.monitorOf o).reacquire? t st.count = some m) :
      Move code t free w (.contending o st) .silent (.returning o st) (w.setMonitor o m)
  | withdraw {o : ObjectId} {st : Exec.Waiting} :
      Move code t free w (.returning o st) .silent (.withdrawn st) (w.noteWaiting t none)
  | report {st : Exec.Waiting} (interrupted : st.reason = some .interrupted) :
      Move code t free w (.withdrawn st) (.reports t) .idle (w.clearInterrupt t)
  | finish {st : Exec.Waiting} (otherwise : st.reason ≠ some .interrupted) :
      Move code t free w (.withdrawn st) .silent .idle w
  | lieDown {duration : Nat} :
      Move code t free w .idle .silent (.drowsy (w.addDeadline duration).1)
        (w.addDeadline duration).2
  | check {deadline : Nat} : Move code t free w (.drowsy deadline) .silent (.checking deadline) w
  | rise {deadline : Nat} (set : w.isInterrupted t = true) :
      Move code t free w (.checking deadline) (.reports t) .idle (w.clearInterrupt t)
  | doze {deadline : Nat} (clear : w.isInterrupted t = false) :
      Move code t free w (.checking deadline) .silent (.dozing deadline) w
  | oversleep {deadline : Nat} (past : deadline ≤ w.clock) :
      Move code t free w (.dozing deadline) .silent .idle w
  | fallAsleep {deadline : Nat} :
      Move code t free w (.dozing deadline) .silent (.asleep deadline) w
  /-- Nobody has nudged it, or the deadline has. -/
  | rouse {deadline : Nat} :
      Move code t free w (.asleep deadline) .silent (.drowsy deadline) w
  | interrupt {u : ThreadId} :
      Move code t free w .idle (.interrupts u) (.flagged u) (w.interrupt u)
  | read {u : ThreadId} {o : ObjectId} (waits : (w.record u).waitingOn = some o) :
      Move code t free w (.flagged u) .silent (.calling u o) w
  | readNothing {u : ThreadId} (waits : (w.record u).waitingOn = none) :
      Move code t free w (.flagged u) .silent (.nudging u) w
  | query {call : NativeCall} {env e : Env} {r : Except Failure Nat} {w' : World η}
      (mine : env.thread = t) (inside : call.base ≤ env.stack.size)
      (ran : Exec.Ends code (fun v x => x = v) w env (ThreadNative.interrupted.run call) r e w') :
      Move code t free w .idle
        (.query t (decide (call.base < env.stack.capacity)) (answer? call e r)) .idle w'

structure Scene (η : Type) where
  world : World η
  phase : ThreadId → Phase

namespace Scene

def start (w : World η) : Scene η := ⟨w, fun _ => .idle⟩

def Unlocked (s : Scene η) (o : ObjectId) : Prop := ∀ t, (s.phase t).lock? ≠ some o

def goOn (s : Scene η) (t : ThreadId) (ph : Phase) (w : World η) : Scene η :=
  ⟨w, fun u => if u = t then ph else s.phase u⟩

def inWorld (s : Scene η) (w : World η) : Scene η := ⟨w, s.phase⟩

def called (s : Scene η) (o : ObjectId) : Scene η := ⟨s.world, fun t => (s.phase t).called o⟩

def nudged (s : Scene η) (u : ThreadId) : Scene η :=
  ⟨s.world, fun t => if t = u then (s.phase t).nudged else s.phase t⟩

end Scene

structure Elsewhere (w w' : World η) : Prop where
  flags : ∀ t, w'.isInterrupted t = w.isInterrupted t
  waitingOn : ∀ t, (w'.record t).waitingOn = (w.record t).waitingOn

inductive Step (code : Code η) : Scene η → Event → Scene η → Prop where
  | move {s : Scene η} {t : ThreadId} {e : Event} {ph : Phase} {w : World η}
      (known : t.index < s.world.records.size)
      (moved : Move code t s.Unlocked s.world (s.phase t) e ph w) : Step code s e (s.goOn t ph w)
  /-- An interrupt wakes those who wait on the object that it has read. -/
  | call {s : Scene η} {t u : ThreadId} {o : ObjectId} (here : s.phase t = .calling u o)
      (unlocked : s.Unlocked o) : Step code s .silent ((s.called o).goOn t (.nudging u) s.world)
  | nudge {s : Scene η} {t u : ThreadId} (here : s.phase t = .nudging u)
      (unlocked : (s.phase u).hasSleepLock = false) :
      Step code s .silent ((s.nudged u).goOn t .idle s.world)
  | notify {s : Scene η} {t : ThreadId} {o : ObjectId} {m : Monitor} (idle : s.phase t = .idle)
      (unlocked : s.Unlocked o)
      (told : (s.world.monitorOf o).notify t = .ok m ∨ (s.world.monitorOf o).notifyAll t = .ok m) :
      Step code s .silent ((s.called o).inWorld (s.world.setMonitor o m))
  | elsewhere {s : Scene η} {w : World η} (kept : Elsewhere s.world w) :
      Step code s .silent (s.inWorld w)

inductive Run (code : Code η) : Scene η → List Event → Scene η → Prop where
  | nil (s : Scene η) : Run code s [] s
  | cons {s s' s'' : Scene η} {e : Event} {es : List Event} (first : Step code s e s')
      (rest : Run code s' es s'') : Run code s (e :: es) s''

section goingOn
variable {code : Code η} {s s' : Scene η} {t u : ThreadId} {w w' : World η} {ph ph' : Phase}
  {e : Event} {es : List Event} {o : ObjectId} {st st' : Exec.Waiting}

theorem goOn_same : (s.goOn t ph w).phase t = ph := if_pos rfl

theorem goOn_other (other : u ≠ t) : (s.goOn t ph w).phase u = s.phase u := if_neg other

@[simp] theorem goOn_goOn : (s.goOn t ph w).goOn t ph' w' = s.goOn t ph' w' := by
  unfold Scene.goOn
  congr 1
  funext u
  by_cases own : u = t
  · simp only [if_pos own]
  · simp only [if_neg own]

theorem goOn_self (here : s.phase t = ph) : s.goOn t ph s.world = s := by
  obtain ⟨w, phase⟩ := s
  unfold Scene.goOn
  congr 1
  funext u
  split
  · rename_i same
    exact here.symm.trans (congrArg phase same.symm)
  · rfl

theorem unlocked_goOn (unlocked : s.Unlocked o) (mine : ph.lock? ≠ some o) :
    (s.goOn t ph w).Unlocked o := by
  intro u
  by_cases own : u = t
  · rw [own, goOn_same]
    exact mine
  · rw [goOn_other own]
    exact unlocked u

theorem Run.move (known : t.index < w.records.size)
    (move : Move code t (s.goOn t ph w).Unlocked w ph e ph' w')
    (rest : Run code (s.goOn t ph' w') es s') : Run code (s.goOn t ph w) (e :: es) s' := by
  have here : Move code t (s.goOn t ph w).Unlocked w ((s.goOn t ph w).phase t) e ph' w' := by
    rwa [goOn_same]
  have step : Step code (s.goOn t ph w) e ((s.goOn t ph w).goOn t ph' w') := .move known here
  rw [goOn_goOn] at step
  exact .cons step rest

theorem Run.trans {es' : List Event} {s'' : Scene η} (first : Run code s es s')
    (second : Run code s' es' s'') : Run code s (es ++ es') s'' := by
  induction first with
  | nil s => exact second
  | cons step rest ih => exact .cons step (ih second)

theorem Elsewhere.during (refs : List ObjectId) : Elsewhere w (w.during refs) where
  flags _ := rfl
  waitingOn _ := rfl

theorem Run.elsewhere (kept : Elsewhere w w') (rest : Run code (s.goOn t ph w') es s') :
    Run code (s.goOn t ph w) (.silent :: es) s' :=
  .cons (.elsewhere kept) rest

theorem records_settleWaiter {m : Monitor} {reason : WakeReason}
    (settled : Exec.settleWaiter w t o m st reason = (st', w')) :
    w'.records = w.records ∧ st'.reason = some reason := by
  unfold Exec.settleWaiter at settled
  dsimp only at settled
  split at settled <;> cases settled <;> exact ⟨rfl, rfl⟩

end goingOn
end Interrupts
end ManagedRuntime
