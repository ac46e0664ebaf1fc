import ManagedRuntime.Proofs.Monitor.Tokens
import ManagedRuntime.Proofs.Thread.Actions
import ManagedRuntime.Proofs.Thread.Wakeups

/-!
No interrupt is lost to a wait or a sleep. Main statement: only its own thread clears a flag, and
reports it, unless it queries the flag without room on the stack for the answer; and a thread blocks
with its flag set only while someone is still interrupting it.
-/
namespace ManagedRuntime.Interrupts
variable {η : Type} {code : Code η} {t : ThreadId} {w : World η} {s s' : Scene η} {e : Event}
  {es : List Event}

theorem Step.set_of_reports (step : Step code s e s') (warned : Warned s) (reports : e.Reports t) :
    s.world.isInterrupted t = true := by
  cases e with
  | silent | interrupts => exact False.elim reports
  | reports u =>
    cases reports
    cases step with
    | @move v _ ph w known moved =>
      have own : t = v := moved.clears rfl
      subst own
      have sound := warned.sound t
      generalize s.phase t = before at moved sound
      cases moved with
      | refuse set | rise set => exact set
      | report interrupted => exact sound.claimed interrupted
  | query u room answer =>
    obtain ⟨rfl, rfl⟩ := reports
    have told := step.answer
    cases room with
    | true => exact (Option.some.inj told).symm
    | false => cases told

def reports (t : ThreadId) (es : List Event) : Nat := es.countP fun e => e.Reports t

def interruptions (t : ThreadId) (es : List Event) : Nat := es.count (.interrupts t)

/-- Every report takes away a flag that an interrupt has set. -/
theorem Step.count (step : Step code s e s') (warned : Warned s) :
    reports t [e] + (s'.world.isInterrupted t).toNat ≤
      interruptions t [e] + (s.world.isInterrupted t).toNat := by
  by_cases told : e.Reports t
  · have set := step.set_of_reports warned told
    have clear := (step.clear_iff set).mpr (.inl told)
    simp [reports, told, set, clear]
  · by_cases after : s'.world.isInterrupted t = true
    · rcases set_or_interrupts ((step.flags t).symm.trans after) with before | rfl
      · simp [reports, told, after, before]
      · simp [reports, told, after, interruptions]
    · simp [reports, told, after]

theorem count_run (warned : Warned s) (run : Run code s es s') :
    reports t es + (s'.world.isInterrupted t).toNat ≤
      interruptions t es + (s.world.isInterrupted t).toNat := by
  induction run with
  | nil s => exact Nat.le_refl _
  | @cons s s' s'' e es first rest ih =>
    have here := first.count (t := t) warned
    have there := ih (warned.step first)
    have reported : reports t ([e] ++ es) = reports t [e] + reports t es := List.countP_append
    have interrupted : interruptions t ([e] ++ es) = interruptions t [e] + interruptions t es :=
      List.count_append
    rw [List.singleton_append] at reported interrupted
    omega

/-- What a run leaves of the interrupts of threads, and what the steps after it do with them. -/
structure Kept (code : Code η) (w : World η) (es : List Event) (s : Scene η) : Prop where
  set : ∀ t s', Step code s (.interrupts t) s' → t.index < s.world.records.size →
    s'.world.isInterrupted t = true
  own : ∀ t e s', Step code s e s' → s.world.isInterrupted t = true →
    s'.world.isInterrupted t = false →
      ∃ ph, Move code t s.Unlocked s.world (s.phase t) e ph s'.world
  /-- Every flag that is cleared is reported, unless a query has no room for the answer. -/
  cleared : ∀ t e s', Step code s e s' → s.world.isInterrupted t = true →
    (s'.world.isInterrupted t = false ↔ e.Reports t ∨ e.Loses t)
  reported : ∀ t e s', Step code s e s' → e.Reports t →
    s.world.isInterrupted t = true ∧ s'.world.isInterrupted t = false
  pending : ∀ t fs s', Run code s fs s' → s.world.isInterrupted t = true →
    (∀ e ∈ fs, ¬ e.Loses t) → s'.world.isInterrupted t = true ∨ ∃ e ∈ fs, e.Reports t
  count : ∀ t, reports t es + (s.world.isInterrupted t).toNat ≤
    interruptions t es + (w.isInterrupted t).toNat
  /-- Whoever blocks with its flag set is about to be woken. -/
  blocked : ∀ t, (s.phase t).Blocked → s.world.isInterrupted t = true →
    ∃ u, (s.phase u).Interrupting t

/-- Waits, sleeps and interrupts that no other thread disturbs are runs of these steps, and a wait or a
sleep reports the interrupt that it fails for. -/
structure Followed (code : Code η) : Prop where
  waits : ∀ (s : Scene η) (w w' : World η) (env d : Env) (r : Except Failure Unit) o limit,
    env.thread.index < w.records.size → o.index < w.heap.objects.size →
    (s.goOn env.thread .idle w).Unlocked o →
    Exec.Ends code (fun v x => x = v) w env (Exec.waitOn o limit) r d w' →
    Tells code env.thread r (s.goOn env.thread .idle w) (s.goOn env.thread .idle w')
  sleeps : ∀ (s : Scene η) (w w' : World η) (env d : Env) (r : Except Failure Unit) duration,
    env.thread.index < w.records.size →
    Exec.Ends code (fun v x => x = v) w env (Exec.sleep duration) r d w' →
    Tells code env.thread r (s.goOn env.thread .idle w) (s.goOn env.thread .idle w')
  interrupts : ∀ (s : Scene η) (w : World η) (t u : ThreadId), t.index < w.records.size →
    (∀ o, (s.goOn t .idle w).Unlocked o) → (s.phase u).hasSleepLock = false →
    ∃ n s', Run code (s.goOn t .idle w) (.interrupts u :: List.replicate n .silent) s' ∧
      s'.world = w.interrupt u ∧ s'.phase t = .idle

theorem followed (code : Code η) : Followed code where
  waits _ _ _ _ _ _ _ _ known there unlocked ends := tells_waitOn known there unlocked ends
  sleeps _ _ _ _ _ _ _ known ends := tells_sleep known ends
  interrupts _ _ _ _ known unlocked unlatched := run_interrupt known unlocked unlatched

theorem interrupts_kept_of_run (run : Run code (Scene.start w) es s) :
    Kept code w es s ∧ Followed code := by
  have warned : Warned s := (Warned.start w).run run
  refine ⟨?_, followed code⟩
  constructor
  · intro t s' step known
    rw [step.flags, Event.flagAfter, World.isInterrupted_interrupt]
    simp [known]
  · intro t e s' step set clear
    rcases (step.clear_iff set).mp clear with told | loses
    · exact step.own told.clears
    · exact step.own loses.clears
  · intro t e s' step set
    exact step.clear_iff set
  · intro t e s' step told
    have set := step.set_of_reports warned told
    exact ⟨set, (step.clear_iff set).mpr (.inl told)⟩
  · intro t fs s' later set room
    exact pending_or_reported later set room
  · intro t
    exact count_run (Warned.start w) run
  · intro t blocked set
    obtain ⟨u, wakes⟩ := warned.woken t blocked.rests set
    exact ⟨u, wakes.interrupting⟩

/-! Two threads, of which the first owns an object's monitor. -/

def twoThreads : World Unit :=
  { WaitSet.oneObject.setMonitor ⟨0⟩ (Monitor.unowned.give ⟨0⟩ 1) with
    records := #[⟨"waiter", none, false, true, none⟩, ⟨"other", none, false, true, none⟩] }

theorem run_interruptedWait :
    ∃ es s, Run Exec.integerCode (Scene.start twoThreads) es s ∧ (s.phase ⟨0⟩).Blocked ∧
      s.world.isInterrupted ⟨0⟩ = true := by
  let wait := Exec.beginWait (η := Unit) ⟨0⟩ none ⟨0⟩ twoThreads
  have began : wait = (.ok ⟨1, none, none, false⟩, wait.2) := rfl
  have start : (Scene.start twoThreads).goOn ⟨0⟩ .idle twoThreads = Scene.start twoThreads :=
    goOn_self rfl
  have unlocked : (Scene.start twoThreads).Unlocked ⟨0⟩ := by
    intro t locked
    cases locked
  obtain ⟨-, n, run⟩ : _ ∧ Tells Exec.integerCode _ _ _ _ :=
    tells_beginWait began (by decide) (by decide) (start.symm ▸ unlocked)
  rw [start] at run
  let blocked := (Scene.start twoThreads).goOn ⟨0⟩ (.parked ⟨0⟩ ⟨1, none, none, false⟩) wait.2
  have interrupt : Step Exec.integerCode blocked (.interrupts ⟨0⟩)
      (blocked.goOn ⟨1⟩ (.flagged ⟨0⟩) (wait.2.interrupt ⟨0⟩)) := .move (by decide) .interrupt
  refine ⟨_, _, run.trans (.cons interrupt (.nil _)), trivial, ?_⟩
  decide

theorem kept_interruptedWait :
    ∃ es s, Run Exec.integerCode (Scene.start twoThreads) es s ∧ (s.phase ⟨0⟩).Blocked ∧
      s.world.isInterrupted ⟨0⟩ = true ∧ Kept Exec.integerCode twoThreads es s := by
  obtain ⟨es, s, run, blocked, set⟩ := run_interruptedWait
  exact ⟨es, s, run, blocked, set, (interrupts_kept_of_run run).1⟩

/-- A query without room for the answer takes the interrupt away all the same. -/
theorem interrupt_lost :
    ∃ s e s', Run Exec.integerCode (Scene.start twoThreads) [.interrupts ⟨0⟩] s ∧
      Step Exec.integerCode s e s' ∧ s.world.isInterrupted ⟨0⟩ = true ∧
        s'.world.isInterrupted ⟨0⟩ = false ∧ ¬ e.Reports ⟨0⟩ := by
  let flagged := (Scene.start twoThreads).goOn ⟨1⟩ (.flagged ⟨0⟩) (twoThreads.interrupt ⟨0⟩)
  have interrupt : Step Exec.integerCode (Scene.start twoThreads) (.interrupts ⟨0⟩) flagged :=
    .move (by decide) .interrupt
  let call : NativeCall := ⟨Exec.objectMethod, 0⟩
  let ended := Task.runAlone Exec.integerCode 4 flagged.world
    ((ThreadNative.interrupted.run call).runIn (.new ⟨0⟩ 0))
  have result : ended.map (fun r => r.1.1) = some (.error .stackOverflow) := by decide +kernel
  obtain ⟨⟨⟨r, e⟩, w⟩, ran, same⟩ := Option.map_eq_some_iff.mp result
  cases same
  have ends : Exec.Ends Exec.integerCode (fun v x => x = v) flagged.world (.new ⟨0⟩ 0)
      (ThreadNative.interrupted.run call) (.error .stackOverflow) e w := by
    refine Task.runs_of_runAlone ?_ ran
    intro v
    rfl
  have query : Step Exec.integerCode flagged (.query ⟨0⟩ false none) (flagged.goOn ⟨0⟩ .idle w) :=
    .move (by decide) (.query rfl (Nat.zero_le _) ends)
  refine ⟨_, _, _, .cons interrupt (.nil _), query, by decide, ?_, by decide⟩
  rw [query.flags]
  decide

end ManagedRuntime.Interrupts
