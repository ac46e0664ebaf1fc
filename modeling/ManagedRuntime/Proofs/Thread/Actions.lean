import ManagedRuntime.Proofs.Monitor.Sections
import ManagedRuntime.Proofs.Thread.Phases

/-!
The runtime's waits, sleeps and interrupts are made of the steps at which threads synchronise. Main
statements: each critical section of a wait, and a wait, a sleep or an interrupt as a whole that no
other thread disturbs, is a run of such steps; it tells a thread that it was interrupted exactly
where the action fails for that.
-/
namespace ManagedRuntime

namespace World
variable {η : Type} {w : World η}

theorem setMonitor_setMonitor {o : ObjectId} (m m' : Monitor) :
    (w.setMonitor o m).setMonitor o m' = w.setMonitor o m' := by
  have twice : (w.heap.modify o ({ · with monitor := m })).modify o ({ · with monitor := m' }) =
      w.heap.modify o ({ · with monitor := m' }) := by
    simp only [Heap.modify]
    congr 1
    apply Array.ext_getElem?
    intro i
    simp only [Array.getElem?_modify]
    split
    · cases w.heap.objects[i]? <;> rfl
    · rfl
  simp only [setMonitor, twice]

end World

namespace Interrupts
open Exec
variable {η : Type} {code : Code η} {s s' : Scene η} {t u : ThreadId} {w w' : World η}
  {ph ph' : Phase} {e : Event} {o : ObjectId} {st st' : Waiting}

def told {α : Type} (t : ThreadId) : Except Failure α → List Event
  | .error f => if f = .interrupted then [.reports t] else []
  | .ok _ => []

def Quiet (code : Code η) (s s' : Scene η) : Prop :=
  ∃ n, Run code s (List.replicate n .silent) s'

/-- A run that tells thread `t` about this outcome, and nobody anything else. -/
def Tells {α : Type} (code : Code η) (t : ThreadId) (r : Except Failure α) (s s' : Scene η) :
    Prop :=
  ∃ n, Run code s (List.replicate n .silent ++ told t r) s'

theorem Quiet.refl (s : Scene η) : Quiet code s s := ⟨0, .nil s⟩

theorem Quiet.trans {s'' : Scene η} (first : Quiet code s s') (second : Quiet code s' s'') :
    Quiet code s s'' := by
  obtain ⟨n, run⟩ := first
  obtain ⟨k, rest⟩ := second
  refine ⟨n + k, ?_⟩
  rw [← List.replicate_append_replicate]
  exact run.trans rest

theorem Quiet.move (known : t.index < w.records.size)
    (move : Move code t (s.goOn t ph w).Unlocked w ph .silent ph' w') :
    Quiet code (s.goOn t ph w) (s.goOn t ph' w') := ⟨1, .move known move (.nil _)⟩

theorem Quiet.during (refs : List ObjectId) :
    Quiet code (s.goOn t ph w) (s.goOn t ph (w.during refs)) :=
  ⟨1, .elsewhere (.during refs) (.nil _)⟩

theorem Quiet.tells {α : Type} {r : Except Failure α} {s'' : Scene η} (first : Quiet code s s')
    (second : Tells code t r s' s'') : Tells code t r s s'' := by
  obtain ⟨n, run⟩ := first
  obtain ⟨k, rest⟩ := second
  refine ⟨n + k, ?_⟩
  rw [← List.replicate_append_replicate, List.append_assoc]
  exact run.trans rest

theorem Quiet.tells_nothing {α : Type} {r : Except Failure α} (quiet : Quiet code s s')
    (nothing : told t r = []) : Tells code t r s s' := by
  obtain ⟨n, run⟩ := quiet
  refine ⟨n, ?_⟩
  rwa [nothing, List.append_nil]

theorem Tells.report {α : Type} (known : t.index < w.records.size)
    (move : Move code t (s.goOn t ph w).Unlocked w ph (.reports t) ph' w') :
    Tells code t (.error .interrupted : Except Failure α) (s.goOn t ph w) (s.goOn t ph' w') :=
  ⟨0, .move known move (.nil _)⟩

/-! The sections of a wait. -/

theorem unlocked_same (unlocked : (s.goOn t ph w).Unlocked o) (none : ph'.lock? = none) :
    (s.goOn t ph' w').Unlocked o := by
  have others : ((s.goOn t ph w).goOn t ph' w').Unlocked o :=
    unlocked_goOn unlocked (by rw [none]; nofun)
  rwa [goOn_goOn] at others

def begun (o : ObjectId) : Except Failure Waiting → Phase
  | .error _ => .idle
  | .ok st => if st.reason.isSome then .back o st else .parked o st

theorem begun_of_woken (woken : st.reason.isSome = true) : begun o (.ok st) = .back o st :=
  if_pos woken

theorem settleWaiter_setMonitor {m m' : Monitor} (reason : WakeReason) :
    settleWaiter (w.setMonitor o m) t o m' st reason =
      settleWaiter w t o m' st reason := by
  unfold settleWaiter
  simp only [World.setMonitor_setMonitor]

def joined (w : World η) (t : ThreadId) (o : ObjectId) (limit : Option Nat) : Waiting × World η :=
  let timed := (w.noteWaiting t (some o)).addDeadline? limit
  (⟨(w.monitorOf o).joinWaiters.1, timed.1, none, false⟩,
    timed.2.setMonitor o (w.monitorOf o).joinWaiters.2)

theorem records_joined (limit : Option Nat) :
    (joined w t o limit).2.records = (w.noteWaiting t (some o)).records := by
  cases limit <;> rfl

theorem size_joined (limit : Option Nat) :
    (joined w t o limit).2.records.size = w.records.size := by
  rw [records_joined, World.noteWaiting, World.size_modifyRecord]

theorem isInterrupted_joined (limit : Option Nat) :
    (joined w t o limit).2.isInterrupted t = w.isInterrupted t := by
  have same : (joined w t o limit).2.isInterrupted t =
      (w.noteWaiting t (some o)).isInterrupted t := by
    simp only [World.isInterrupted, World.record, records_joined]
  rw [same, World.isInterrupted_noteWaiting]

theorem monitorOf_joined (limit : Option Nat) (there : o.index < w.heap.objects.size) :
    (joined w t o limit).2.monitorOf o = (w.monitorOf o).joinWaiters.2 := by
  refine WaitSet.monitorOf_setMonitor _ ?_
  cases limit <;> exact there

/-- The first section of a wait looks for a token as soon as the thread has joined the wait set. -/
theorem beginWait_eq (limit : Option Nat) (there : o.index < w.heap.objects.size)
    (owner : (w.monitorOf o).owner = some t) (clear : w.isInterrupted t = false) :
    beginWait o limit t w =
      let (st, v) := joined w t o limit
      match (v.monitorOf o).wakeReason? (v.isInterrupted t) false with
      | some reason => let r := settleWaiter v t o (v.monitorOf o) st reason; (.ok r.1, r.2)
      | none => (.ok st, v) := by
  have free : ¬ (w.monitorOf o).owner ≠ some t := fun other => other owner
  simp only [beginWait, if_neg free, monitorOf_joined limit there, isInterrupted_joined, clear,
    Bool.false_eq_true, if_false]
  cases (w.monitorOf o).joinWaiters.2.wakeReason? false false with
  | none => rfl
  | some reason => simp only [joined, settleWaiter_setMonitor]

theorem quiet_join (limit : Option Nat) (known : t.index < w.records.size)
    (unlocked : (s.goOn t .idle w).Unlocked o) (owner : (w.monitorOf o).owner = some t)
    (clear : w.isInterrupted t = false) :
    Quiet code (s.goOn t .idle w)
      (s.goOn t (.looking o (joined w t o limit).1) (joined w t o limit).2) := by
  have knownNoted : t.index < (w.noteWaiting t (some o)).records.size := by
    rw [World.noteWaiting, World.size_modifyRecord]
    exact known
  have ask : Quiet code (s.goOn t .idle w) (s.goOn t (.asked o limit) w) :=
    .move known (.ask unlocked owner)
  have accept : Quiet code (s.goOn t (.asked o limit) w) (s.goOn t (.unnoted o limit) w) :=
    .move known (.accept clear)
  have note : Quiet code (s.goOn t (.unnoted o limit) w)
      (s.goOn t (.noted o limit) (w.noteWaiting t (some o))) := .move known .note
  exact ask.trans (accept.trans (note.trans (.move knownNoted .join)))

theorem tells_beginWait {limit : Option Nat} {r : Except Failure Waiting}
    (began : beginWait o limit t w = (r, w')) (known : t.index < w.records.size)
    (there : o.index < w.heap.objects.size) (unlocked : (s.goOn t .idle w).Unlocked o) :
    w'.records.size = w.records.size ∧
      Tells code t r (s.goOn t .idle w) (s.goOn t (begun o r) w') := by
  by_cases owner : (w.monitorOf o).owner = some t
  · cases set : w.isInterrupted t with
    | true =>
      have refused : beginWait o limit t w = (.error .interrupted, w.clearInterrupt t) := by
        simp [beginWait, owner, set]
      cases refused.symm.trans began
      have ask : Quiet code (s.goOn t .idle w) (s.goOn t (.asked o limit) w) :=
        .move known (.ask unlocked owner)
      exact ⟨World.size_modifyRecord _, ask.tells (.report known (.refuse set))⟩
    | false =>
      have join : Quiet code _ _ := quiet_join limit known unlocked owner set
      have size : (joined w t o limit).2.records.size = w.records.size := size_joined limit
      have fresh : (joined w t o limit).1.reason = none := rfl
      rw [beginWait_eq limit there owner set] at began
      generalize joined w t o limit = x at began join size fresh
      obtain ⟨st, v⟩ := x
      have knownJoined : t.index < v.records.size := size.symm ▸ known
      dsimp only at began
      split at began
      · rename_i reason why
        generalize left : settleWaiter v t o (v.monitorOf o) st reason = y at began
        obtain ⟨st', v'⟩ := y
        cases began
        obtain ⟨records, woken⟩ := records_settleWaiter left
        have leave : Quiet code (s.goOn t (.looking o st) v) (s.goOn t (.back o st') v') :=
          .move knownJoined (.leave why left)
        rw [begun_of_woken (by rw [woken]; rfl)]
        exact ⟨(congrArg Array.size records).trans size, (join.trans leave).tells_nothing rfl⟩
      · rename_i why
        cases began
        have stay : Quiet code (s.goOn t (.looking o st) w') (s.goOn t (.parking o st) w') :=
          .move knownJoined (.stay why)
        have asleep : begun o (.ok st) = .parked o st := by
          rw [begun, fresh]
          rfl
        rw [asleep]
        exact ⟨size, (join.trans (stay.trans (.move knownJoined .park))).tells_nothing rfl⟩
  · have refused : beginWait o limit t w = (.error .illegalMonitorState, w) := by
      simp [beginWait, owner]
    cases refused.symm.trans began
    exact ⟨rfl, (Quiet.refl _).tells_nothing rfl⟩

theorem wakeReason?_cases {m : Monitor} {interrupted late : Bool} {reason : WakeReason}
    (woken : m.wakeReason? interrupted late = some reason) :
    m.wakeReason? interrupted false = some reason ∨ reason = .timedOut ∧ late = true := by
  unfold Monitor.wakeReason? at woken ⊢
  split at woken
  · rw [if_pos ‹_›]
    exact .inl woken
  · rw [if_neg ‹_›]
    split at woken
    · rw [if_pos ‹_›]
      exact .inl woken
    · split at woken <;> cases woken
      exact .inr ⟨rfl, ‹_›⟩

theorem quiet_awaken (woken : awaken o st t w = some (st', w')) (known : t.index < w.records.size)
    (unlocked : (s.goOn t .idle w).Unlocked o) :
    w'.records.size = w.records.size ∧
      Quiet code (s.goOn t (.parked o st) w) (s.goOn t (.back o st') w') := by
  obtain ⟨reason, why, settled⟩ := Option.map_eq_some_iff.mp woken
  refine ⟨congrArg Array.size (records_settleWaiter settled).1, ?_⟩
  rcases wakeReason?_cases why with now | ⟨rfl, late⟩
  · have wake : Quiet code (s.goOn t (.parked o st) w) (s.goOn t (.woken o st) w) :=
      .move known .wake
    have look : Quiet code (s.goOn t (.woken o st) w) (s.goOn t (.looking o st) w) :=
      .move known (.look (unlocked_same unlocked rfl))
    exact wake.trans (look.trans (.move known (.leave now settled)))
  · have timed : st.deadline.isSome = true := by
      cases deadline : st.deadline with
      | none =>
        rw [deadline] at late
        cases late
      | some d => rfl
    have expire : Quiet code (s.goOn t (.parked o st) w) (s.goOn t (.late o st) w) :=
      .move known (.expire timed)
    exact expire.trans (.move known (.giveUp (unlocked_same unlocked rfl) settled))

/-! A wait as a whole. -/

def conclusion (t : ThreadId) (st : Waiting) : Exec η Unit := do
  act (modify (·.noteWaiting t none))
  if st.reason = some .interrupted then
    act (modify (·.clearInterrupt t))
    throw .interrupted

def comeBack (o : ObjectId) (t : ThreadId) (st : Waiting) : Exec η Unit := do
  unless st.owns do
    await fun w =>
      ((w.monitorOf o).reacquire? t st.count).map fun m => (.ok (), w.setMonitor o m)
  conclusion t st

theorem waitOn_eq (o : ObjectId) (limit : Option Nat) :
    (waitOn o limit : Exec η Unit) = (do
      let me := (← get).thread
      let begun ← act (Atomic.ofFunction (beginWait o limit me))
      let woken ←
        if begun.reason.isSome then pure begun
        else await fun w => (awaken o begun me w).map fun r => (.ok r.1, r.2)
      comeBack o me woken) := rfl

theorem Ends.after_modify {f : World η → World η} {g : PUnit → Exec η Unit} {env d : Env}
    {r : Except Failure Unit}
    (ends : Ends code (fun v x => x = v) w env (act (modify f) >>= g) r d w') :
    ∃ used c, Ends code (fun v x => x = v) (f (w.during used)) c (g ()) r d w' := by
  rw [ends_bind] at ends
  rcases ends with ⟨f, failed, -⟩ | ⟨⟨⟩, c, v, made, rest⟩
  · obtain ⟨y, refs, -, ran, -⟩ := ends_act.mp failed
    cases ran
  · obtain ⟨y, refs, same, ran, rfl⟩ := ends_act.mp made
    subst y
    cases ran
    exact ⟨_, _, rest⟩

theorem tells_conclusion {env d : Env} {r : Except Failure Unit} (known : t.index < w.records.size)
    (ends : Ends code (fun v x => x = v) w env (conclusion t st) r d w') :
    Tells code t r (s.goOn t (.returning o st) w) (s.goOn t .idle w') := by
  obtain ⟨used, c, rest⟩ := Ends.after_modify ends
  have knownAfter : t.index < ((w.during used).noteWaiting t none).records.size := by
    rw [World.noteWaiting, World.size_modifyRecord]
    exact known
  have withdraw : Quiet code (s.goOn t (.returning o st) w)
      (s.goOn t (.withdrawn st) ((w.during used).noteWaiting t none)) :=
    (Quiet.during used).trans (.move known .withdraw)
  split at rest
  · rename_i interrupted
    obtain ⟨again, c, rest⟩ := Ends.after_modify rest
    obtain ⟨rfl, rfl, rfl⟩ := ends_throw.mp rest
    exact (withdraw.trans (.during again)).tells (.report knownAfter (.report interrupted))
  · rename_i otherwise
    obtain ⟨rfl, rfl, rfl⟩ := ends_pure.mp rest
    exact (withdraw.trans (.move knownAfter (.finish otherwise))).tells_nothing rfl

theorem tells_comeBack {env d : Env} {r : Except Failure Unit} (known : t.index < w.records.size)
    (unlocked : (s.goOn t .idle w).Unlocked o)
    (ends : Ends code (fun v x => x = v) w env (comeBack o t st) r d w') :
    Tells code t r (s.goOn t (.back o st) w) (s.goOn t .idle w') := by
  unfold comeBack at ends
  unfold Phase.back
  split
  · rename_i owns
    rw [owns] at ends
    exact tells_conclusion known ends
  · rename_i owns
    rw [Bool.eq_false_iff.mpr owns] at ends
    rcases ends_bind.mp ends with ⟨f, failed, -⟩ | ⟨⟨⟩, c, v, retaken, rest⟩
    · obtain ⟨x, refs, -, found, -⟩ := ends_await.mp failed
      obtain ⟨m, taken, same⟩ := Option.map_eq_some_iff.mp found
      cases same
    · obtain ⟨x, refs, same, found, rfl⟩ := ends_await.mp retaken
      subst x
      obtain ⟨m, taken, same⟩ := Option.map_eq_some_iff.mp found
      cases same
      have retake : Quiet code (s.goOn t (.contending o st) w)
          (s.goOn t (.returning o st) ((w.during (env.references ++ refs)).setMonitor o m)) :=
        (Quiet.during _).trans (.move known (.retake (unlocked_same unlocked rfl) taken))
      exact retake.tells (tells_conclusion known rest)

theorem tells_waitOn {limit : Option Nat} {env d : Env} {r : Except Failure Unit}
    (known : env.thread.index < w.records.size) (there : o.index < w.heap.objects.size)
    (unlocked : (s.goOn env.thread .idle w).Unlocked o)
    (ends : Ends code (fun v x => x = v) w env (waitOn o limit) r d w') :
    Tells code env.thread r (s.goOn env.thread .idle w) (s.goOn env.thread .idle w') := by
  rw [waitOn_eq, ends_get_bind] at ends
  rcases ends_bind.mp ends with ⟨f, failed, rfl⟩ | ⟨st, c, v, began, rest⟩
  · obtain ⟨x, refs, same, ran, rfl⟩ := ends_act.mp failed
    subst x
    have first : _ ∧ Tells code env.thread (.error f) _ _ :=
      tells_beginWait ran known there (unlocked_same unlocked rfl)
    exact (Quiet.during _).tells first.2
  · obtain ⟨x, refs, same, ran, rfl⟩ := ends_act.mp began
    subst x
    obtain ⟨size, n, first⟩ : _ ∧ Tells code env.thread (.ok st) _ _ :=
      tells_beginWait ran known there (unlocked_same unlocked rfl)
    rw [show told env.thread (.ok st) = [] from rfl, List.append_nil] at first
    have join : Quiet code (s.goOn env.thread .idle w) (s.goOn env.thread (begun o (.ok st)) v) :=
      (Quiet.during _).trans ⟨n, first⟩
    have knownJoined : env.thread.index < v.records.size := size.symm ▸ known
    refine join.tells ?_
    dsimp only at rest
    split at rest
    · rename_i woken
      rw [begun_of_woken woken]
      exact tells_comeBack knownJoined (unlocked_same unlocked rfl) rest
    · rename_i asleep
      rw [begun, if_neg asleep]
      rcases ends_bind.mp rest with ⟨f, failed, -⟩ | ⟨st', c, u, left, rest⟩
      · obtain ⟨x, refs', -, found, -⟩ := ends_await.mp failed
        obtain ⟨left, -, same⟩ := Option.map_eq_some_iff.mp found
        cases same
      · obtain ⟨x, refs', same, found, rfl⟩ := ends_await.mp left
        subst x
        obtain ⟨⟨st', w''⟩, woken, same⟩ := Option.map_eq_some_iff.mp found
        cases same
        obtain ⟨size', leave⟩ := quiet_awaken woken knownJoined (unlocked_same unlocked rfl)
        have knownLeft : env.thread.index < w''.records.size := size'.symm ▸ knownJoined
        exact ((Quiet.during _).trans leave).tells
          (tells_comeBack knownLeft (unlocked_same unlocked rfl) rest)

theorem tells_sleep {duration : Nat} {env d : Env} {r : Except Failure Unit}
    (known : env.thread.index < w.records.size)
    (ends : Ends code (fun v x => x = v) w env (Exec.sleep duration) r d w') :
    Tells code env.thread r (s.goOn env.thread .idle w) (s.goOn env.thread .idle w') := by
  unfold Exec.sleep at ends
  rw [ends_get_bind, ends_bind] at ends
  rcases ends with ⟨f, failed, -⟩ | ⟨deadline, c, v, noted, rest⟩
  · obtain ⟨y, refs, -, ran, -⟩ := ends_act.mp failed
    cases ran
  obtain ⟨y, refs, same, ran, rfl⟩ := ends_act.mp noted
  subst y
  cases ran
  obtain ⟨x, refs', rfl, found, rfl⟩ := ends_await.mp rest
  generalize Env.references _ ++ refs' = used at found
  let timed := (w.during (env.references ++ refs)).addDeadline duration
  have lieDown : Quiet code (s.goOn env.thread .idle w)
      (s.goOn env.thread (.drowsy timed.1) timed.2) :=
    (Quiet.during _).trans (.move known .lieDown)
  have check : Quiet code (s.goOn env.thread (.drowsy timed.1) timed.2)
      (s.goOn env.thread (.checking timed.1) (timed.2.during used)) :=
    (Quiet.during used).trans (.move known .check)
  have ready := lieDown.trans check
  split at found
  · rename_i set
    cases found
    exact ready.tells (.report known (.rise set))
  · rename_i set
    split at found
    · rename_i past
      cases found
      have doze : Quiet code (s.goOn env.thread (.checking timed.1) (timed.2.during used))
          (s.goOn env.thread (.dozing timed.1) (timed.2.during used)) :=
        .move known (.doze (Bool.eq_false_iff.mpr set))
      exact (ready.trans (doze.trans (.move known (.oversleep past)))).tells_nothing rfl
    · cases found

theorem hasSleepLock_called : (ph.called o).hasSleepLock = ph.hasSleepLock := by
  cases ph with
  | parked p st =>
    by_cases here : p = o
    · rw [Phase.called, if_pos here]
      rfl
    · rw [Phase.called, if_neg here]
  | _ => rfl

/-- An interrupt and the wake-ups that are due to it, when no lock is in the way. -/
theorem run_interrupt (known : t.index < w.records.size)
    (unlocked : ∀ o, (s.goOn t .idle w).Unlocked o) (unlatched : (s.phase u).hasSleepLock = false) :
    ∃ n s', Run code (s.goOn t .idle w) (.interrupts u :: List.replicate n .silent) s' ∧
      s'.world = w.interrupt u ∧ s'.phase t = .idle := by
  have knownAfter : t.index < (w.interrupt u).records.size := by
    rw [World.interrupt, World.size_modifyRecord]
    exact known
  have unheld {ph : Phase} (free : ph.hasSleepLock = false) :
      ((s.goOn t ph (w.interrupt u)).phase u).hasSleepLock = false := by
    by_cases own : u = t
    · rw [own, goOn_same]
      exact free
    · rw [goOn_other own]
      exact unlatched
  cases waits : ((w.interrupt u).record u).waitingOn with
  | none =>
    refine ⟨2, _, .move known .interrupt (.move knownAfter (.readNothing waits)
      (.cons (.nudge goOn_same (unheld rfl)) (.nil _))), rfl, goOn_same⟩
  | some o =>
    let calling := s.goOn t (.calling u o) (w.interrupt u)
    have unheldCalled : (((calling.called o).goOn t (.nudging u) (w.interrupt u)).phase
        u).hasSleepLock = false := by
      by_cases own : u = t
      · rw [own, goOn_same]
        rfl
      · rw [goOn_other own]
        exact hasSleepLock_called.trans (unheld rfl)
    have call : Step code calling .silent ((calling.called o).goOn t (.nudging u) calling.world) :=
      .call goOn_same (unlocked_same (unlocked o) rfl)
    exact ⟨3, _, .move known .interrupt (.move knownAfter (.read waits)
      (.cons call (.cons (.nudge goOn_same unheldCalled) (.nil _)))), rfl, goOn_same⟩

end Interrupts
end ManagedRuntime
