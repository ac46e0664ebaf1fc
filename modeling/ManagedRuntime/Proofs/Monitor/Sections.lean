import ManagedRuntime.Thread.Blocking

/-!
Interleavings of the critical sections of one monitor. A scene is the shared state with the waits
that are under way and the notifications that no waiter has taken yet; tokens carry no names, so
which of them a waiter takes is left open. A step is one critical section of one thread, or anything
that happens elsewhere. Main statement: what each section of a wait does to the monitor.
-/
namespace ManagedRuntime

namespace WaitSet
variable {η : Type}

section sections
variable {o : ObjectId} {t : ThreadId} {w w' : World η} {st st' : Exec.Waiting}

theorem size_setMonitor (w : World η) (o : ObjectId) (m : Monitor) :
    (w.setMonitor o m).heap.objects.size = w.heap.objects.size := by
  simp [World.setMonitor, Heap.modify]

theorem monitorOf_setMonitor (m : Monitor) (there : o.index < w.heap.objects.size) :
    (w.setMonitor o m).monitorOf o = m := by
  have found : w.heap.objects[o.index]? = some w.heap.objects[o.index] :=
    Array.getElem?_eq_getElem there
  simp [World.monitorOf, World.setMonitor, Heap.modify, Heap.get, Array.getElem?_modify, found]

theorem settleWaiter_cases {m : Monitor} {reason : WakeReason}
    (there : o.index < w.heap.objects.size)
    (settled : Exec.settleWaiter w t o m st reason = (st', w')) :
    st'.reason = some reason ∧ w'.heap.objects.size = w.heap.objects.size ∧
      (m.owner = none ∧ st'.owns = true ∧
          w'.monitorOf o = (m.wake reason).give t st.count ∨
        m.owner ≠ none ∧ st' = { st with reason := some reason } ∧
          w'.monitorOf o = m.wake reason) := by
  have owner : (m.wake reason).owner = m.owner := by cases reason <;> rfl
  by_cases free : m.owner = none
  · simp only [Exec.settleWaiter, Monitor.reacquire?, owner, if_pos free] at settled
    cases settled
    exact ⟨rfl, size_setMonitor _ _ _, .inl ⟨free, rfl, monitorOf_setMonitor _ there⟩⟩
  · simp only [Exec.settleWaiter, Monitor.reacquire?, owner, if_neg free] at settled
    cases settled
    exact ⟨rfl, size_setMonitor _ _ _, .inr ⟨free, rfl, monitorOf_setMonitor _ there⟩⟩

theorem wakeReason?_eq_notified {m : Monitor} {interrupted late : Bool}
    (woken : m.wakeReason? interrupted late = some .notified) : 0 < m.tokens := by
  unfold Monitor.wakeReason? at woken
  split at woken
  · assumption
  · split at woken
    · cases woken
    · split at woken <;> cases woken

theorem beginWait_cases {limit : Option Nat} {r : Except Failure Exec.Waiting}
    (there : o.index < w.heap.objects.size)
    (began : Exec.beginWait o limit t w = (r, w')) :
    w'.heap.objects.size = w.heap.objects.size ∧
      ((∃ f, r = .error f ∧ w'.monitorOf o = w.monitorOf o) ∨
        ∃ st, r = .ok st ∧ (w.monitorOf o).owner = some t ∧
          ((w.monitorOf o).tokens = 0 ∧ st.reason = none ∧
              w'.monitorOf o = (w.monitorOf o).joinWaiters.2 ∨
            0 < (w.monitorOf o).tokens ∧ st.reason = some .notified ∧ st.owns = true ∧
              w'.monitorOf o = ((w.monitorOf o).joinWaiters.2.wake .notified).give t
                (w.monitorOf o).count)) := by
  -- Noting the wait and its deadline leaves the heap alone.
  let timed := (w.noteWaiting t (some o)).addDeadline? limit
  have heap : timed.2.heap = w.heap := by cases limit <;> rfl
  have still : o.index < timed.2.heap.objects.size := by rwa [heap]
  have free : (w.monitorOf o).joinWaiters.2.owner = none := rfl
  have tokens : (w.monitorOf o).joinWaiters.2.tokens = (w.monitorOf o).tokens := rfl
  unfold Exec.beginWait at began
  split at began
  · cases began
    exact ⟨rfl, .inl ⟨_, rfl, rfl⟩⟩
  rename_i owner
  split at began
  · cases began
    exact ⟨rfl, .inl ⟨_, rfl, rfl⟩⟩
  have mine : (w.monitorOf o).owner = some t := Classical.not_not.mp owner
  by_cases given : 0 < (w.monitorOf o).tokens
  · simp only [Monitor.wakeReason?, tokens, gt_iff_lt, if_pos given] at began
    let st : Exec.Waiting := ⟨(w.monitorOf o).joinWaiters.1, timed.1, none, false⟩
    have settled : Exec.settleWaiter timed.2 t o (w.monitorOf o).joinWaiters.2 st .notified =
      (_, _) := rfl
    obtain ⟨reason, size, ⟨-, owns, monitor⟩ | ⟨owned, -⟩⟩ := settleWaiter_cases still settled
    · cases began
      refine ⟨size.trans (congrArg (·.objects.size) heap), .inr ⟨_, rfl, mine, .inr ?_⟩⟩
      exact ⟨given, reason, owns, monitor⟩
    · exact absurd free owned
  · simp only [Monitor.wakeReason?, tokens, gt_iff_lt, if_neg given] at began
    cases began
    refine ⟨(size_setMonitor _ _ _).trans (congrArg (·.objects.size) heap), .inr ⟨_, rfl, mine, ?_⟩⟩
    exact .inl ⟨by omega, rfl, monitorOf_setMonitor _ still⟩

theorem beginWait_fails {limit : Option Nat} {f : Failure} (there : o.index < w.heap.objects.size)
    (began : Exec.beginWait o limit t w = (.error f, w')) :
    w'.heap.objects.size = w.heap.objects.size ∧ w'.monitorOf o = w.monitorOf o := by
  obtain ⟨size, ⟨f, -, same⟩ | ⟨st, impossible, -⟩⟩ := beginWait_cases there began
  · exact ⟨size, same⟩
  · cases impossible

/-- A wait falls asleep only where there is no token. -/
theorem beginWait_sleeps {limit : Option Nat} (there : o.index < w.heap.objects.size)
    (began : Exec.beginWait o limit t w = (.ok st, w')) (sleeps : st.reason = none) :
    w'.heap.objects.size = w.heap.objects.size ∧ (w.monitorOf o).tokens = 0 ∧
      w'.monitorOf o = (w.monitorOf o).joinWaiters.2 := by
  obtain ⟨size, ⟨f, impossible, -⟩ | ⟨st', same, -, choice⟩⟩ := beginWait_cases there began
  · cases impossible
  cases same
  rcases choice with ⟨none, -, monitor⟩ | ⟨-, woken, -⟩
  · exact ⟨size, none, monitor⟩
  · rw [sleeps] at woken
    cases woken

theorem beginWait_passes {limit : Option Nat} (there : o.index < w.heap.objects.size)
    (began : Exec.beginWait o limit t w = (.ok st, w')) (woken : st.reason.isSome) :
    w'.heap.objects.size = w.heap.objects.size ∧ 0 < (w.monitorOf o).tokens ∧ st.owns = true ∧
      w'.monitorOf o = ((w.monitorOf o).joinWaiters.2.wake .notified).give t
        (w.monitorOf o).count := by
  obtain ⟨size, ⟨f, impossible, -⟩ | ⟨st', same, -, choice⟩⟩ := beginWait_cases there began
  · cases impossible
  cases same
  rcases choice with ⟨-, sleeps, -⟩ | ⟨some, -, owns, monitor⟩
  · rw [sleeps] at woken
    cases woken
  · exact ⟨size, some, owns, monitor⟩

theorem tokens_enter? {m m' : Monitor} (entered : m.enter? t = some m') :
    m'.tokens = m.tokens ∧ m'.waiting = m.waiting := by
  unfold Monitor.enter? at entered
  split at entered
  · cases entered
    exact ⟨rfl, rfl⟩
  · cases entered

theorem tokens_exit {m m' : Monitor} (left : m.exit t = .ok m') :
    m'.tokens = m.tokens ∧ m'.waiting = m.waiting := by
  unfold Monitor.exit at left
  split at left
  · cases left
  · split at left <;> cases left <;> exact ⟨rfl, rfl⟩

theorem tokens_reacquire? {m m' : Monitor} {count : Nat} (taken : m.reacquire? t count = some m') :
    m'.tokens = m.tokens ∧ m'.waiting = m.waiting := by
  unfold Monitor.reacquire? at taken
  split at taken
  · cases taken
    exact ⟨rfl, rfl⟩
  · cases taken

end sections

structure Wait where
  thread : ThreadId
  number : Nat
  deriving DecidableEq, Repr

/-- A notification, by whom it was given and the waits that were in the wait set at the time. -/
structure Notice where
  giver : ThreadId
  waiting : List Wait
  deriving DecidableEq, Repr

structure Scene (η : Type) where
  world : World η
  asleep : List (Wait × Exec.Waiting)
  /-- Waits that have left the wait set and do not own the monitor yet. -/
  returning : List (Wait × Exec.Waiting)
  notices : List Notice
  begun : Nat

inductive Event where
  | enter (t : ThreadId)
  | exit (t : ThreadId)
  | notify (t : ThreadId) (all : Bool)
  | refuse (t : ThreadId)
  | sleep (x : Wait)
  /-- A wait takes a notification in the section in which it joins the wait set. -/
  | pass (x : Wait) (k : Notice)
  | notified (x : Wait) (k : Notice)
  | giveUp (x : Wait)
  | resume (x : Wait)
  | elsewhere
  deriving DecidableEq, Repr

def tell : Bool → Monitor → ThreadId → Except Failure Monitor
  | false => Monitor.notify
  | true => Monitor.notifyAll

theorem tokens_tell {all : Bool} {t : ThreadId} {m m' : Monitor} (told : tell all m t = .ok m')
    (bound : m.tokens ≤ m.waiting) :
    m'.waiting = m.waiting ∧ m.tokens ≤ m'.tokens ∧ m'.tokens ≤ m.waiting ∧
      (all = true → m'.tokens = m.waiting) := by
  cases all with
  | false =>
    simp only [tell, Monitor.notify] at told
    split at told
    · cases told
    · cases told
      refine ⟨rfl, ?_, ?_, Bool.noConfusion⟩
      · dsimp only
        split <;> omega
      · dsimp only
        split <;> omega
  | true =>
    simp only [tell, Monitor.notifyAll] at told
    split at told
    · cases told
    · cases told
      exact ⟨rfl, bound, Nat.le_refl _, fun _ => rfl⟩

namespace Scene

def start (w : World η) : Scene η := ⟨w, [], [], [], 0⟩

def waits (s : Scene η) : List Wait := s.asleep.map (·.1)

def Idle (s : Scene η) (t : ThreadId) : Prop :=
  ∀ x ∈ s.asleep ++ s.returning, x.1.thread ≠ t

instance (s : Scene η) (t : ThreadId) : Decidable (s.Idle t) :=
  inferInstanceAs (Decidable (∀ x ∈ s.asleep ++ s.returning, x.1.thread ≠ t))

def back (s : Scene η) (x : Wait) (st : Exec.Waiting) : Scene η :=
  if st.owns then s else { s with returning := (x, st) :: s.returning }

variable (s : Scene η) (x : Wait) (st : Exec.Waiting)

@[simp] theorem world_back : (s.back x st).world = s.world := by unfold back; split <;> rfl
@[simp] theorem asleep_back : (s.back x st).asleep = s.asleep := by unfold back; split <;> rfl
@[simp] theorem notices_back : (s.back x st).notices = s.notices := by unfold back; split <;> rfl
@[simp] theorem begun_back : (s.back x st).begun = s.begun := by unfold back; split <;> rfl
@[simp] theorem waits_back : (s.back x st).waits = s.waits := by unfold back; split <;> rfl

end Scene

/-- A sleeping waiter looks and leaves. A timeout may be noticed although there is a token. -/
def Woken (o : ObjectId) (w : World η) (t : ThreadId) (st st' : Exec.Waiting) (w' : World η) :
    Prop :=
  Exec.awaken o st t w = some (st', w') ∨
    st.deadline.isSome ∧ Exec.settleWaiter w t o (w.monitorOf o) st .timedOut = (st', w')

theorem Woken.settled {o : ObjectId} {w w' : World η} {t : ThreadId} {st st' : Exec.Waiting}
    (woken : Woken o w t st st' w') :
    ∃ reason, Exec.settleWaiter w t o (w.monitorOf o) st reason = (st', w') ∧
      (reason = .notified → 0 < (w.monitorOf o).tokens) := by
  rcases woken with looked | ⟨-, settled⟩
  · obtain ⟨reason, why, settled⟩ := Option.map_eq_some_iff.mp looked
    refine ⟨reason, settled, fun same => ?_⟩
    subst same
    exact wakeReason?_eq_notified why
  · exact ⟨.timedOut, settled, WakeReason.noConfusion⟩

theorem tokens_wake (m : Monitor) (reason : WakeReason) :
    (m.wake reason).waiting = m.waiting - 1 ∧ (m.wake reason).tokens ≤ m.waiting - 1 ∧
      (m.tokens = m.waiting → (m.wake reason).tokens = m.waiting - 1) := by
  cases reason with
  | notified | interrupted | timedOut =>
    refine ⟨rfl, Nat.min_le_right _ _, fun all => ?_⟩
    simp [Monitor.wake, Monitor.leaveWaiters, all]

theorem Woken.leaves {o : ObjectId} {w w' : World η} {t : ThreadId} {st st' : Exec.Waiting}
    (there : o.index < w.heap.objects.size) (woken : Woken o w t st st' w') :
    w'.heap.objects.size = w.heap.objects.size ∧
      (w'.monitorOf o).waiting = (w.monitorOf o).waiting - 1 ∧
      (w'.monitorOf o).tokens ≤ (w.monitorOf o).waiting - 1 ∧
      ((w.monitorOf o).tokens = (w.monitorOf o).waiting →
        (w'.monitorOf o).tokens = (w.monitorOf o).waiting - 1) := by
  obtain ⟨reason, settled, -⟩ := woken.settled
  have after := tokens_wake (w.monitorOf o) reason
  obtain ⟨-, size, ⟨-, -, monitor⟩ | ⟨-, -, monitor⟩⟩ := settleWaiter_cases there settled
  · rw [monitor]
    exact ⟨size, after⟩
  · rw [monitor]
    exact ⟨size, after⟩

inductive Step (o : ObjectId) : Scene η → Event → Scene η → Prop where
  | enter {s : Scene η} {t : ThreadId} {m : Monitor} (idle : s.Idle t)
      (entered : (s.world.monitorOf o).enter? t = some m) :
      Step o s (.enter t) { s with world := s.world.setMonitor o m }
  | exit {s : Scene η} {t : ThreadId} {m : Monitor} (idle : s.Idle t)
      (left : (s.world.monitorOf o).exit t = .ok m) :
      Step o s (.exit t) { s with world := s.world.setMonitor o m }
  | notify {s : Scene η} {t : ThreadId} {all : Bool} {m : Monitor} (notices : List Notice)
      (idle : s.Idle t) (told : tell all (s.world.monitorOf o) t = .ok m)
      (issued : ∀ k ∈ notices, k ∈ s.notices ∨ k = ⟨t, s.waits⟩)
      (number : notices.length = m.tokens) :
      Step o s (.notify t all) { s with world := s.world.setMonitor o m, notices }
  | refuse {s : Scene η} {t : ThreadId} {f : Failure} {w : World η} (limit : Option Nat)
      (idle : s.Idle t) (refused : Exec.beginWait o limit t s.world = (.error f, w)) :
      Step o s (.refuse t) { s with world := w }
  | sleep {s : Scene η} {t : ThreadId} {st : Exec.Waiting} {w : World η} (limit : Option Nat)
      (idle : s.Idle t) (began : Exec.beginWait o limit t s.world = (.ok st, w))
      (sleeps : st.reason = none) :
      Step o s (.sleep ⟨t, s.begun⟩)
        { s with world := w, asleep := (⟨t, s.begun⟩, st) :: s.asleep, begun := s.begun + 1 }
  | pass {s : Scene η} {t : ThreadId} {st : Exec.Waiting} {w : World η} {k : Notice}
      (limit : Option Nat) (notices : List Notice) (idle : s.Idle t)
      (began : Exec.beginWait o limit t s.world = (.ok st, w)) (woken : st.reason.isSome)
      (taken : k ∈ s.notices) (kept : notices.Sublist (s.notices.erase k))
      (number : notices.length = (w.monitorOf o).tokens) :
      Step o s (.pass ⟨t, s.begun⟩ k)
        ({ s with world := w, notices, begun := s.begun + 1 }.back ⟨t, s.begun⟩ st)
  | notified {s : Scene η} {before after : List (Wait × Exec.Waiting)} {x : Wait}
      {st st' : Exec.Waiting} {w : World η} {k : Notice} (notices : List Notice)
      (there : s.asleep = before ++ (x, st) :: after)
      (woken : Woken o s.world x.thread st st' w) (reason : st'.reason = some .notified)
      (taken : k ∈ s.notices) (kept : notices.Sublist (s.notices.erase k))
      (number : notices.length = (w.monitorOf o).tokens) :
      Step o s (.notified x k)
        ({ s with world := w, asleep := before ++ after, notices }.back x st')
  | giveUp {s : Scene η} {before after : List (Wait × Exec.Waiting)} {x : Wait}
      {st st' : Exec.Waiting} {w : World η} (notices : List Notice)
      (there : s.asleep = before ++ (x, st) :: after)
      (woken : Woken o s.world x.thread st st' w) (reason : st'.reason ≠ some .notified)
      (kept : notices.Sublist s.notices) (number : notices.length = (w.monitorOf o).tokens) :
      Step o s (.giveUp x)
        ({ s with world := w, asleep := before ++ after, notices }.back x st')
  | resume {s : Scene η} {before after : List (Wait × Exec.Waiting)} {x : Wait}
      {st : Exec.Waiting} {m : Monitor} (there : s.returning = before ++ (x, st) :: after)
      (taken : (s.world.monitorOf o).reacquire? x.thread st.count = some m) :
      Step o s (.resume x)
        { s with world := s.world.setMonitor o m, returning := before ++ after }
  | elsewhere {s : Scene η} {w : World η} (there : o.index < w.heap.objects.size)
      (same : w.monitorOf o = s.world.monitorOf o) :
      Step o s .elsewhere { s with world := w }

inductive Run (o : ObjectId) : Scene η → List Event → Scene η → Prop where
  | nil (s : Scene η) : Run o s [] s
  | cons {s s' s'' : Scene η} {e : Event} {es : List Event} (first : Step o s e s')
      (rest : Run o s' es s'') : Run o s (e :: es) s''

end WaitSet
end ManagedRuntime
