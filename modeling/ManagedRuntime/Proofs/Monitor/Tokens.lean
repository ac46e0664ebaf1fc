import ManagedRuntime.Boot.Basic
import ManagedRuntime.Proofs.Monitor.Sections

/-!
Who takes a notification. Every waiter that sleeps while a token is there was asleep already when
the token was given, since a wait falls asleep only while there is none. Main statement: a wait
takes a notification from before it joined the wait set exactly where it joins while a token is
there.
-/
namespace ManagedRuntime.WaitSet
variable {η : Type} {o : ObjectId} {s s' : Scene η} {e : Event} {es : List Event}

structure Entitled (o : ObjectId) (s : Scene η) : Prop where
  there : o.index < s.world.heap.objects.size
  waiting : (s.world.monitorOf o).waiting = s.asleep.length
  tokens : s.notices.length = (s.world.monitorOf o).tokens
  bound : (s.world.monitorOf o).tokens ≤ s.asleep.length
  entitled : ∀ k ∈ s.notices, ∀ x ∈ s.waits, x ∈ k.waiting
  older : ∀ k ∈ s.notices, ∀ x ∈ k.waiting, x.number < s.begun ∧ x.thread ≠ k.giver
  numbered : ∀ x ∈ s.waits, x.number < s.begun

theorem Entitled.keep {w : World η} {returning : List (Wait × Exec.Waiting)}
    (inv : Entitled o s) (there : o.index < w.heap.objects.size)
    (tokens : (w.monitorOf o).tokens = (s.world.monitorOf o).tokens)
    (waiting : (w.monitorOf o).waiting = (s.world.monitorOf o).waiting) :
    Entitled o { s with world := w, returning } where
  there := there
  waiting := waiting.trans inv.waiting
  tokens := inv.tokens.trans tokens.symm
  bound := tokens ▸ inv.bound
  entitled := inv.entitled
  older := inv.older
  numbered := inv.numbered

theorem Entitled.own {m : Monitor} {returning : List (Wait × Exec.Waiting)} (inv : Entitled o s)
    (same : m.tokens = (s.world.monitorOf o).tokens ∧
      m.waiting = (s.world.monitorOf o).waiting) :
    Entitled o { s with world := s.world.setMonitor o m, returning } := by
  have now : (s.world.setMonitor o m).monitorOf o = m := monitorOf_setMonitor m inv.there
  refine inv.keep ?_ ?_ ?_
  · rw [size_setMonitor]
    exact inv.there
  · rw [now, same.1]
  · rw [now, same.2]

theorem Entitled.back {x : Wait} {st : Exec.Waiting} (inv : Entitled o s) :
    Entitled o (s.back x st) := by
  constructor <;> simp only [Scene.world_back, Scene.asleep_back, Scene.notices_back,
    Scene.begun_back, Scene.waits_back]
  · exact inv.there
  · exact inv.waiting
  · exact inv.tokens
  · exact inv.bound
  · exact inv.entitled
  · exact inv.older
  · exact inv.numbered

theorem waits_leave {before after : List (Wait × Exec.Waiting)} {x : Wait × Exec.Waiting}
    (asleep : s.asleep = before ++ x :: after) :
    (before ++ after).length = s.asleep.length - 1 ∧
      ∀ y ∈ (before ++ after).map (·.1), y ∈ s.waits := by
  constructor
  · rw [asleep, List.length_append, List.length_append, List.length_cons]
    omega
  · intro y member
    obtain ⟨z, left, rfl⟩ := List.mem_map.mp member
    refine List.mem_map_of_mem ?_
    rw [asleep]
    rcases List.mem_append.mp left with front | back
    · exact List.mem_append_left _ front
    · exact List.mem_append_right _ (List.mem_cons_of_mem _ back)

theorem Entitled.leave {before after : List (Wait × Exec.Waiting)} {x : Wait}
    {st st' : Exec.Waiting} {w : World η} {notices : List Notice} (inv : Entitled o s)
    (asleep : s.asleep = before ++ (x, st) :: after)
    (woken : Woken o s.world x.thread st st' w) (kept : notices ⊆ s.notices)
    (number : notices.length = (w.monitorOf o).tokens) :
    Entitled o { s with world := w, asleep := before ++ after, notices } := by
  obtain ⟨size, waiting, tokens, -⟩ := woken.leaves inv.there
  obtain ⟨fewer, still⟩ := waits_leave asleep
  constructor
  · exact size ▸ inv.there
  · rw [waiting, inv.waiting, fewer]
  · exact number
  · rw [fewer, ← inv.waiting]
    exact tokens
  · exact fun k member y asleep => inv.entitled k (kept member) y (still y asleep)
  · exact fun k member => inv.older k (kept member)
  · exact fun y asleep => inv.numbered y (still y asleep)

theorem Entitled.step (inv : Entitled o s) (step : Step o s e s') : Entitled o s' := by
  cases step with
  | enter idle entered => exact inv.own (tokens_enter? entered)
  | exit idle left => exact inv.own (tokens_exit left)
  | resume returning taken => exact inv.own (tokens_reacquire? taken)
  | elsewhere there same => exact inv.keep there (by rw [same]) (by rw [same])
  | refuse limit idle refused =>
    obtain ⟨size, same⟩ := beginWait_fails inv.there refused
    exact inv.keep (size ▸ inv.there) (by rw [same]) (by rw [same])
  | @notify t _ m notices idle told issued number =>
    have least : (s.world.monitorOf o).tokens ≤ (s.world.monitorOf o).waiting :=
      inv.waiting ▸ inv.bound
    obtain ⟨waiting, -, most, -⟩ := tokens_tell told least
    have now : (s.world.setMonitor o m).monitorOf o = m := monitorOf_setMonitor m inv.there
    constructor
    · simpa only [size_setMonitor] using inv.there
    · rw [now, waiting, inv.waiting]
    · rw [now, number]
    · rw [now, ← inv.waiting]
      exact most
    · intro k member x asleep
      rcases issued k member with old | rfl
      · exact inv.entitled k old x asleep
      · exact asleep
    · intro k member x waited
      rcases issued k member with old | rfl
      · exact inv.older k old x waited
      · refine ⟨inv.numbered x waited, ?_⟩
        obtain ⟨y, asleep, rfl⟩ := List.mem_map.mp waited
        exact idle y (List.mem_append_left _ asleep)
    · exact inv.numbered
  | sleep limit idle began sleeps =>
    obtain ⟨size, none, monitor⟩ := beginWait_sleeps inv.there began sleeps
    -- There is no token, so that the new waiter has none to be entitled to.
    have noNotice : s.notices = [] := List.length_eq_zero_iff.mp (inv.tokens.trans none)
    constructor
    · exact size ▸ inv.there
    · rw [monitor]
      exact congrArg (· + 1) inv.waiting
    · rw [monitor]
      exact inv.tokens
    · rw [monitor]
      exact Nat.le_succ_of_le inv.bound
    · simp [noNotice]
    · simp [noNotice]
    · intro x member
      rcases List.mem_cons.mp member with rfl | old
      · exact Nat.lt_succ_self _
      · exact Nat.lt_succ_of_lt (inv.numbered x old)
  | pass limit notices idle began woken taken kept number =>
    obtain ⟨size, -, -, monitor⟩ := beginWait_passes inv.there began woken
    have subset := List.Subset.trans kept.subset List.erase_subset
    refine Entitled.back ?_
    constructor
    · exact size ▸ inv.there
    · rw [monitor]
      exact inv.waiting
    · exact number
    · rw [monitor, ← inv.waiting]
      exact Nat.min_le_right _ _
    · exact fun k member => inv.entitled k (subset member)
    · exact fun k member x waited =>
        ⟨Nat.lt_succ_of_lt (inv.older k (subset member) x waited).1,
          (inv.older k (subset member) x waited).2⟩
    · exact fun x member => Nat.lt_succ_of_lt (inv.numbered x member)
  | notified notices asleep woken reason taken kept number =>
    exact (inv.leave asleep woken (List.Subset.trans kept.subset List.erase_subset) number).back
  | giveUp notices asleep woken reason kept number =>
    exact (inv.leave asleep woken kept.subset number).back

theorem Entitled.run (inv : Entitled o s) (run : Run o s es s') : Entitled o s' := by
  induction run with
  | nil => exact inv
  | cons first _ ih => exact ih (inv.step first)

theorem entitled_start {w : World η} (there : o.index < w.heap.objects.size)
    (fresh : w.monitorOf o = .unowned) : Entitled o (Scene.start w) := by
  constructor <;> simp [Scene.start, Scene.waits, fresh, there, Monitor.unowned]

namespace Event

def takes : Event → Option (Wait × Notice)
  | pass x k | notified x k => some (x, k)
  | _ => none

/-- A wait takes a notification from before it joined the wait set. -/
def Stolen (e : Event) : Prop := ∃ x k, e.takes = some (x, k) ∧ x ∉ k.waiting

def Passes (e : Event) : Prop := ∃ x k, e = pass x k

def Joins (e : Event) : Prop := (∃ x, e = sleep x) ∨ e.Passes

end Event

theorem Entitled.stolen_iff (inv : Entitled o s) (step : Step o s e s') :
    e.Stolen ↔ e.Passes := by
  constructor
  · rintro ⟨x, k, taken, late⟩
    cases step with
    | pass => exact ⟨_, _, rfl⟩
    | notified notices asleep woken reason given kept number =>
      cases taken
      refine absurd (inv.entitled k given x ?_) late
      rw [Scene.waits, asleep]
      simp
    | _ => cases taken
  · rintro ⟨x, k, rfl⟩
    cases step with
    | pass limit notices idle began woken given kept number =>
      refine ⟨_, k, rfl, fun waited => ?_⟩
      exact Nat.lt_irrefl _ (inv.older k given _ waited).1

theorem Entitled.passes_iff (inv : Entitled o s) (step : Step o s e s') :
    e.Passes ↔ e.Joins ∧ 0 < (s.world.monitorOf o).tokens := by
  constructor
  · rintro ⟨x, k, rfl⟩
    refine ⟨.inr ⟨x, k, rfl⟩, ?_⟩
    cases step with
    | pass limit notices idle began woken given kept number =>
      exact (beginWait_passes inv.there began woken).2.1
  · rintro ⟨⟨x, rfl⟩ | passes, tokens⟩
    · cases step with
      | sleep limit idle began sleeps =>
        obtain ⟨-, none, -⟩ := beginWait_sleeps inv.there began sleeps
        exact absurd none (Nat.pos_iff_ne_zero.mp tokens)
    · exact passes

theorem Entitled.giver_ne {x : Wait} {k : Notice} (inv : Entitled o s)
    (step : Step o s (.notified x k) s') : x.thread ≠ k.giver := by
  cases step with
  | notified notices asleep woken reason given kept number =>
    have waited : x ∈ k.waiting := by
      refine inv.entitled k given x ?_
      rw [Scene.waits, asleep]
      simp
    exact (inv.older k given x waited).2

/-- After everybody has been notified, either all sleepers are of those, with a token for each, or
none is. -/
def Alerted (o : ObjectId) (told : List Wait) (s : Scene η) : Prop :=
  (∀ x ∈ s.waits, x ∈ told) ∧ (s.world.monitorOf o).tokens = s.asleep.length ∨
    ∀ x ∈ s.waits, x ∉ told

theorem Alerted.leave {told : List Wait} {before after : List (Wait × Exec.Waiting)} {x : Wait}
    {st st' : Exec.Waiting} {w : World η} {notices : List Notice} (alert : Alerted o told s)
    (inv : Entitled o s) (asleep : s.asleep = before ++ (x, st) :: after)
    (woken : Woken o s.world x.thread st st' w) :
    Alerted o told ({ s with world := w, asleep := before ++ after, notices }.back x st') := by
  obtain ⟨fewer, still⟩ := waits_leave asleep
  obtain ⟨-, -, -, all⟩ := woken.leaves inv.there
  unfold Alerted
  rw [Scene.waits_back, Scene.world_back, Scene.asleep_back]
  rcases alert with ⟨members, tokens⟩ | strangers
  · refine .inl ⟨fun y asleep => members y (still y asleep), ?_⟩
    rw [fewer, ← inv.waiting]
    exact all (tokens.trans inv.waiting.symm)
  · exact .inr fun y asleep => strangers y (still y asleep)

theorem Alerted.keep {told : List Wait} {w : World η} {returning : List (Wait × Exec.Waiting)}
    {notices : List Notice} (alert : Alerted o told s)
    (tokens : (w.monitorOf o).tokens = (s.world.monitorOf o).tokens) :
    Alerted o told { s with world := w, returning, notices } := by
  rcases alert with ⟨members, same⟩ | strangers
  · exact .inl ⟨members, tokens.trans same⟩
  · exact .inr strangers

theorem Alerted.step {told : List Wait} (alert : Alerted o told s) (inv : Entitled o s)
    (old : ∀ x ∈ told, x.number < s.begun) (step : Step o s e s') (calm : ¬ e.Passes) :
    Alerted o told s' := by
  have now {m : Monitor} : (s.world.setMonitor o m).monitorOf o = m :=
    monitorOf_setMonitor m inv.there
  cases step with
  | enter idle entered => exact alert.keep (by rw [now, (tokens_enter? entered).1])
  | exit idle left => exact alert.keep (by rw [now, (tokens_exit left).1])
  | resume returning taken => exact alert.keep (by rw [now, (tokens_reacquire? taken).1])
  | elsewhere there same => exact alert.keep (by rw [same])
  | refuse limit idle refused =>
    exact alert.keep (by rw [(beginWait_fails inv.there refused).2])
  | notify notices idle told issued number =>
    have least : (s.world.monitorOf o).tokens ≤ (s.world.monitorOf o).waiting :=
      inv.waiting ▸ inv.bound
    obtain ⟨-, more, most, -⟩ := tokens_tell told least
    rcases alert with ⟨members, tokens⟩ | strangers
    · refine .inl ⟨members, ?_⟩
      have waiting := inv.waiting
      rw [now]
      show _ = s.asleep.length
      omega
    · exact .inr strangers
  | @sleep t _ _ limit idle began sleeps =>
    have fresh : (⟨t, s.begun⟩ : Wait) ∉ told := fun member => Nat.lt_irrefl _ (old _ member)
    refine .inr fun x member => ?_
    rcases List.mem_cons.mp member with rfl | asleep
    · exact fresh
    rcases alert with ⟨members, tokens⟩ | strangers
    · -- A wait falls asleep where there is no token, so that nobody of those told sleeps any more.
      have none := (beginWait_sleeps inv.there began sleeps).2.1
      have nobody : s.asleep = [] := List.length_eq_zero_iff.mp (tokens.symm.trans none)
      simp [nobody] at asleep
    · exact strangers x asleep
  | pass => exact absurd ⟨_, _, rfl⟩ calm
  | notified notices asleep woken reason given kept number => exact alert.leave inv asleep woken
  | giveUp notices asleep woken reason kept number => exact alert.leave inv asleep woken

theorem begun_le (step : Step o s e s') : s.begun ≤ s'.begun := by
  cases step <;> simp

theorem Alerted.run {told : List Wait} (alert : Alerted o told s) (inv : Entitled o s)
    (old : ∀ x ∈ told, x.number < s.begun) (run : Run o s es s')
    (calm : ∀ e ∈ es, ¬ e.Passes) : Alerted o told s' := by
  induction run with
  | nil => exact alert
  | cons first _ ih =>
    refine ih (alert.step inv old first (calm _ List.mem_cons_self)) (inv.step first)
      (fun x member => Nat.lt_of_lt_of_le (old x member) (begun_le first))
      fun e member => calm e (List.mem_cons_of_mem _ member)

theorem alerted_notifyAll {t : ThreadId} (inv : Entitled o s)
    (step : Step o s (.notify t true) s') : Alerted o s.waits s' := by
  cases step with
  | notify notices idle told issued number =>
    have least : (s.world.monitorOf o).tokens ≤ (s.world.monitorOf o).waiting :=
      inv.waiting ▸ inv.bound
    obtain ⟨-, -, -, all⟩ := tokens_tell told least
    refine .inl ⟨fun x member => member, ?_⟩
    rw [monitorOf_setMonitor _ inv.there, all rfl, inv.waiting]

/-- After every run, a wait takes a notification from before it joined exactly where it joins while
a token is there. No sleeper takes one of their own, and as long as no wait joins in that way after
a `notifyAll`, every wait of that moment that is still asleep finds a token. -/
theorem stolen_iff_joins {w : World η} (there : o.index < w.heap.objects.size)
    (fresh : w.monitorOf o = .unowned) (run : Run o (Scene.start w) es s) :
    (∀ e s', Step o s e s' →
      (e.Stolen ↔ e.Joins ∧ 0 < (s.world.monitorOf o).tokens) ∧
        ∀ x k, e = .notified x k → x.thread ≠ k.giver) ∧
      ∀ t s' es' s'', Step o s (.notify t true) s' → Run o s' es' s'' →
        (∀ e ∈ es', ¬ e.Passes) →
        ∀ x ∈ s.waits, x ∈ s''.waits → 0 < (s''.world.monitorOf o).tokens := by
  have inv := (entitled_start there fresh).run run
  constructor
  · intro e s' step
    refine ⟨(inv.stolen_iff step).trans (inv.passes_iff step), fun x k same => ?_⟩
    subst same
    exact inv.giver_ne step
  · intro t s' es' s'' all later calm x told asleep
    have old : ∀ y ∈ s.waits, y.number < s'.begun := fun y member =>
      Nat.lt_of_lt_of_le (inv.numbered y member) (begun_le all)
    rcases (alerted_notifyAll inv all).run (inv.step all) old later calm with
      ⟨-, tokens⟩ | strangers
    · rw [tokens]
      obtain ⟨y, member, -⟩ := List.mem_map.mp asleep
      exact List.length_pos_of_mem member
    · exact absurd told (strangers x asleep)

/-! A thread that notifies another and then waits itself. -/

def oneObject : World Unit :=
  { Boot.initialWorld .silent .empty 0 with
    heap := { Heap.empty 0 0 with objects := #[{ cls := ⟨0⟩, fields := #[], payload := .plain }] } }

def waitThenNotify : List Event :=
  [.enter ⟨0⟩, .sleep ⟨⟨0⟩, 0⟩, .enter ⟨1⟩, .notify ⟨1⟩ false]

theorem Step.then {P : Scene η → Prop} (first : Step o s e s')
    (rest : ∃ s'', Run o s' es s'' ∧ P s'') : ∃ s'', Run o s (e :: es) s'' ∧ P s'' := by
  obtain ⟨s'', run, holds⟩ := rest
  exact ⟨s'', .cons first run, holds⟩

theorem run_waitThenNotify :
    ∃ s, Run ⟨0⟩ (Scene.start oneObject) waitThenNotify s ∧
      ∃ s', Step ⟨0⟩ s (.pass ⟨⟨1⟩, 1⟩ ⟨⟨1⟩, [⟨⟨0⟩, 0⟩]⟩) s' := by
  refine Step.then (.enter (by decide) rfl) ?_
  refine Step.then (.sleep none (by decide) rfl rfl) ?_
  refine Step.then (.enter (by decide) rfl) ?_
  refine Step.then (.notify [⟨⟨1⟩, [⟨⟨0⟩, 0⟩]⟩] (by decide) rfl ?_ rfl) ?_
  · exact fun k member => .inr (List.mem_singleton.mp member)
  refine ⟨_, .nil _, _, .pass none [] (by decide) rfl rfl ?_ (List.nil_sublist _) rfl⟩
  exact List.mem_singleton_self _

theorem own_notice_taken :
    ∃ es s e s', Run ⟨0⟩ (Scene.start oneObject) es s ∧ Step ⟨0⟩ s e s' ∧ e.Stolen ∧
      ∃ x k, e.takes = some (x, k) ∧ x.thread = k.giver := by
  obtain ⟨s, run, s', step⟩ := run_waitThenNotify
  exact ⟨_, s, _, s', run, step, ⟨_, _, rfl, by decide⟩, _, _, rfl, rfl⟩

theorem stolen_iff_joins_waitThenNotify :
    oneObject.monitorOf ⟨0⟩ = .unowned ∧
      ∃ s, Run ⟨0⟩ (Scene.start oneObject) waitThenNotify s ∧
        ∀ e s', Step ⟨0⟩ s e s' →
          (e.Stolen ↔ e.Joins ∧ 0 < (s.world.monitorOf ⟨0⟩).tokens) := by
  obtain ⟨s, run, -⟩ := run_waitThenNotify
  exact ⟨rfl, s, run, fun e s' step => ((stolen_iff_joins (by decide) rfl run).1 e s' step).1⟩

end ManagedRuntime.WaitSet
