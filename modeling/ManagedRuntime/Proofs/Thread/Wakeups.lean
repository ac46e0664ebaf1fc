import ManagedRuntime.Proofs.Thread.Flags

/-!
Who wakes a thread that rests. A thread finds its flag clear under the lock under which it then
blocks, and who interrupts it sets the flag first and wakes it under that lock afterwards. Main
statement: to each thread that rests with its flag set someone is on the way who will wake it, after
every run.
-/
namespace ManagedRuntime.Interrupts
variable {η : Type} {code : Code η} {t u : ThreadId} {w w' : World η} {s s' : Scene η}
  {e : Event} {es : List Event} {ph ph' : Phase} {free : ObjectId → Prop}

/-! What a thread's phase says about the shared state. -/

namespace Phase

def noted? : Phase → Option ObjectId
  | noted o _ | looking o _ | parking o _ | parked o _ | woken o _ | late o _ => some o
  | _ => none

/-- The thread has been woken by an interrupt that it has not reported. -/
def Claims : Phase → Prop
  | contending _ st | returning _ st | withdrawn st => st.reason = some .interrupted
  | _ => False

def Rests : Phase → Prop
  | parking _ _ | parked _ _ | dozing _ | asleep _ => True
  | _ => False

def restsOn? : Phase → Option ObjectId
  | parking o _ | parked o _ => some o
  | _ => none

def Wakes (t : ThreadId) : Phase → Phase → Prop
  | flagged u, _ => u = t
  | calling u o, target => u = t ∧ ∀ p, target.restsOn? = some p → p = o
  | nudging u, target => u = t ∧ target.restsOn? = none
  | _, _ => False

theorem Wakes.interrupting (wakes : ph.Wakes t ph') : ph.Interrupting t := by
  cases ph with
  | flagged u => exact wakes
  | calling u o | nudging u => exact wakes.1
  | _ => exact False.elim wakes

theorem Wakes.not_rests (wakes : ph.Wakes t ph') : ¬ ph.Rests := by
  intro rests
  cases ph with
  | parking | parked | dozing | asleep => exact wakes
  | _ => exact rests

theorem Wakes.congr {target : Phase} (wakes : ph.Wakes t target)
    (same : ph'.restsOn? = target.restsOn?) : ph.Wakes t ph' := by
  cases ph with
  | flagged u => exact wakes
  | calling u o =>
    refine ⟨wakes.1, ?_⟩
    rw [same]
    exact wakes.2
  | nudging u => exact ⟨wakes.1, same.trans wakes.2⟩
  | _ => exact False.elim wakes

theorem Blocked.rests (blocked : ph.Blocked) : ph.Rests := by
  cases ph with
  | parked | asleep => trivial
  | _ => exact False.elim blocked

end Phase

structure Sound (t : ThreadId) (w : World η) (ph : Phase) : Prop where
  noted : ∀ o, ph.noted? = some o → (w.record t).waitingOn = some o
  claimed : ph.Claims → w.isInterrupted t = true

theorem Sound.after (sound : Sound t w ph) (noted : ph'.noted? = ph.noted?)
    (claims : ph'.Claims → ph.Claims) (same : w'.records = w.records) : Sound t w' ph' where
  noted o here := by
    have before := sound.noted o (noted ▸ here)
    simpa only [World.record, same] using before
  claimed claimed := by
    have before := sound.claimed (claims claimed)
    simpa only [World.isInterrupted, World.record, same] using before

theorem Sound.ofSilent (quiet : ph.noted? = none) (calm : ¬ ph.Claims) : Sound t w ph where
  noted o here := by
    rw [quiet] at here
    cases here
  claimed claimed := absurd claimed calm

theorem claims_back {o : ObjectId} {st : Exec.Waiting} :
    (Phase.back o st).Claims ↔ st.reason = some .interrupted := by
  unfold Phase.back
  split <;> exact Iff.rfl

theorem noted?_back {o : ObjectId} {st : Exec.Waiting} : (Phase.back o st).noted? = none := by
  unfold Phase.back
  split <;> rfl

theorem wakeReason?_eq_interrupted {m : Monitor} {interrupted late : Bool}
    (woken : m.wakeReason? interrupted late = some .interrupted) : interrupted = true := by
  unfold Monitor.wakeReason? at woken
  split at woken
  · cases woken
  · split at woken
    · assumption
    · split at woken <;> cases woken

theorem wakeReason?_eq_none {m : Monitor} {interrupted late : Bool}
    (stays : m.wakeReason? interrupted late = none) : interrupted = false := by
  unfold Monitor.wakeReason? at stays
  split at stays
  · cases stays
  · split at stays
    · cases stays
    · rename_i clear
      exact Bool.eq_false_iff.mpr clear

theorem Move.sound (move : Move code t free w ph e ph' w') (known : t.index < w.records.size)
    (sound : Sound t w ph) : Sound t w' ph' := by
  cases move with
  | ask | accept | stay | park | wake | look | expire | check | doze | oversleep | fallAsleep
  | rouse | retake | lieDown => exact sound.after rfl (fun claims => claims) rfl
  | @join o limit =>
    have records : (w.addDeadline? limit).2.records = w.records := by cases limit <;> rfl
    exact sound.after rfl (fun claims => claims) records
  | @note o limit =>
    constructor
    · intro p here
      rw [World.waitingOn_noteWaiting _ known, if_pos rfl]
      exact here
    · exact False.elim
  | leave why settled =>
    obtain ⟨records, reason⟩ := records_settleWaiter settled
    refine ⟨fun p here => ?_, fun claims => ?_⟩
    · rw [noted?_back] at here
      cases here
    · rw [claims_back, reason] at claims
      cases claims
      have set := wakeReason?_eq_interrupted why
      simpa only [World.isInterrupted, World.record, records] using set
  | giveUp unlocked settled =>
    obtain ⟨records, reason⟩ := records_settleWaiter settled
    refine .ofSilent noted?_back fun claims => ?_
    rw [claims_back, reason] at claims
    cases claims
  | withdraw =>
    constructor
    · intro o here
      cases here
    · intro claims
      rw [World.isInterrupted_noteWaiting]
      exact sound.claimed claims
  | refuse | report | finish | rise | query | interrupt | read | readNothing =>
    exact .ofSilent rfl id

theorem Move.flagged (move : Move code t free w ph (.interrupts u) ph' w') : ph' = .flagged u := by
  cases move
  rfl

/-- A thread comes to rest only where its flag is clear. -/
theorem Move.rests (move : Move code t free w ph e ph' w') (rests : ph'.Rests)
    (set : w'.isInterrupted t = true) :
    ph.Rests ∧ ph'.restsOn? = ph.restsOn? ∧ w.isInterrupted t = true := by
  cases move with
  | park | fallAsleep => exact ⟨trivial, rfl, set⟩
  | stay why =>
    rw [wakeReason?_eq_none why] at set
    cases set
  | doze clear =>
    rw [clear] at set
    cases set
  | leave | giveUp =>
    unfold Phase.back at rests
    split at rests <;> exact False.elim rests
  | _ => exact False.elim rests

theorem Sound.waitingOn {o : ObjectId} (sound : Sound u w ph) (rests : ph.restsOn? = some o) :
    (w.record u).waitingOn = some o := by
  refine sound.noted o ?_
  cases ph with
  | parking | parked => exact rests
  | _ => cases rests

theorem Move.wakes {target : Phase} (move : Move code t free w ph e ph' w')
    (wakes : ph.Wakes u target) (sound : Sound u w target) : ph'.Wakes u target := by
  cases move with
  | @read v o waits =>
    have same : v = u := wakes
    subst same
    refine ⟨rfl, fun p rests => ?_⟩
    exact Option.some.inj ((sound.waitingOn rests).symm.trans waits)
  | @readNothing v waits =>
    have same : v = u := wakes
    subst same
    refine ⟨rfl, ?_⟩
    cases rests : target.restsOn? with
    | none => rfl
    | some p => cases waits.symm.trans (sound.waitingOn rests)
  | _ => exact False.elim wakes

/-! Who wakes a thread that rests. -/

/-- The threads know what they wait on, and to each one that rests with its flag set someone is on
the way who will wake it. -/
structure Warned (s : Scene η) : Prop where
  sound : ∀ t, Sound t s.world (s.phase t)
  woken : ∀ t, (s.phase t).Rests → s.world.isInterrupted t = true →
    ∃ u, (s.phase u).Wakes t (s.phase t)

theorem Warned.start (w : World η) : Warned (Scene.start w) where
  sound _ := .ofSilent rfl id
  woken _ rests := False.elim rests

theorem Warned.move (warned : Warned s) (known : t.index < s.world.records.size)
    (move : Move code t s.Unlocked s.world (s.phase t) e ph w) : Warned (s.goOn t ph w) := by
  have effect := move.effect known
  constructor
  · intro u
    by_cases own : u = t
    · subst own
      rw [goOn_same]
      exact move.sound known (warned.sound u)
    · rw [goOn_other own]
      constructor
      · intro o here
        exact (effect.waitingOn u own).trans ((warned.sound u).noted o here)
      · intro claims
        refine (effect.flags u).trans (flagAfter_of_set ((warned.sound u).claimed claims) ?_)
        exact fun clears => own (move.clears clears)
  · intro u rests set
    by_cases own : u = t
    · subst own
      rw [goOn_same] at rests ⊢
      obtain ⟨before, same, flag⟩ := move.rests rests set
      obtain ⟨v, wakes⟩ := warned.woken u before flag
      have other : v ≠ u := by
        rintro rfl
        exact wakes.not_rests before
      refine ⟨v, ?_⟩
      rw [goOn_other other]
      exact wakes.congr same
    · rw [goOn_other own] at rests ⊢
      rcases set_or_interrupts ((effect.flags u).symm.trans set) with before | rfl
      · obtain ⟨v, wakes⟩ := warned.woken u rests before
        refine ⟨v, ?_⟩
        by_cases mover : v = t
        · subst mover
          rw [goOn_same]
          exact move.wakes wakes (warned.sound u)
        · rw [goOn_other mover]
          exact wakes
      · refine ⟨t, ?_⟩
        rw [goOn_same, move.flagged]
        rfl

theorem called_of_rests {o : ObjectId} (rests : (ph.called o).Rests) :
    ph.called o = ph ∧ ∀ st, ph ≠ .parked o st := by
  cases ph with
  | parked p st =>
    by_cases here : p = o
    · rw [Phase.called, if_pos here] at rests
      exact False.elim rests
    · refine ⟨if_neg here, fun st' same => ?_⟩
      cases same
      exact here rfl
  | _ =>
    refine ⟨rfl, ?_⟩
    intro _ same
    cases same

theorem nudged_of_rests (rests : ph.nudged.Rests) : ph.nudged = ph := by
  cases ph with
  | asleep => exact False.elim rests
  | _ => rfl

theorem asleep_of_rests (rests : ph.Rests) (nowhere : ph.restsOn? = none)
    (unlocked : ph.hasSleepLock = false) : ∃ deadline, ph = .asleep deadline := by
  cases ph with
  | asleep deadline => exact ⟨deadline, rfl⟩
  | parking | parked => cases nowhere
  | dozing => cases unlocked
  | _ => exact False.elim rests

theorem Phase.Wakes.called (o : ObjectId) (wakes : ph.Wakes t ph') : (ph.called o).Wakes t ph' := by
  cases ph with
  | parked p st => exact False.elim wakes
  | _ => exact wakes

theorem Phase.Wakes.nudged (wakes : ph.Wakes t ph') : ph.nudged.Wakes t ph' := by
  cases ph with
  | asleep => exact False.elim wakes
  | _ => exact wakes

theorem Sound.called (o : ObjectId) (sound : Sound t w ph) (same : w'.records = w.records) :
    Sound t w' (ph.called o) := by
  cases ph with
  | parked p st =>
    by_cases here : p = o
    · rw [Phase.called, if_pos here]
      exact sound.after rfl (fun claims => claims) same
    · rw [Phase.called, if_neg here]
      exact sound.after rfl (fun claims => claims) same
  | _ => exact sound.after rfl (fun claims => claims) same

theorem Sound.nudged (sound : Sound t w ph) : Sound t w ph.nudged := by
  cases ph with
  | asleep => exact .ofSilent rfl id
  | _ => exact sound

/-- A step under the lock of a monitor finds nobody there who rests, once it has woken those who
blocked. -/
theorem restsOn?_ne {o : ObjectId} (unlocked : s.Unlocked o)
    (rests : ((s.phase t).called o).Rests) : (s.phase t).restsOn? ≠ some o := by
  obtain ⟨-, blocked⟩ := called_of_rests rests
  intro here
  cases phase : s.phase t with
  | parking p st =>
    rw [phase] at here
    have held := unlocked t
    rw [phase] at held
    exact held here
  | parked p st =>
    rw [phase] at here
    cases here
    exact blocked st phase
  | _ =>
    rw [phase] at here
    cases here

theorem Warned.call {o : ObjectId} (warned : Warned s) (here : s.phase t = .calling u o)
    (unlocked : s.Unlocked o) : Warned ((s.called o).goOn t (.nudging u) s.world) := by
  constructor
  · intro v
    by_cases own : v = t
    · subst own
      rw [goOn_same]
      exact .ofSilent rfl id
    · rw [goOn_other own]
      exact (warned.sound v).called o rfl
  · intro v rests set
    have own : v ≠ t := by
      rintro rfl
      rw [goOn_same] at rests
      exact rests
    rw [goOn_other own] at rests ⊢
    have elsewhere := restsOn?_ne unlocked rests
    obtain ⟨same, -⟩ := called_of_rests rests
    have phase : (s.called o).phase v = s.phase v := same
    rw [phase] at rests ⊢
    obtain ⟨x, wakes⟩ := warned.woken v rests set
    refine ⟨x, ?_⟩
    by_cases caller : x = t
    · -- The caller has woken those who blocked where it called; this one rests in a sleep.
      subst caller
      rw [here] at wakes
      rw [goOn_same]
      refine ⟨wakes.1, ?_⟩
      cases where' : (s.phase v).restsOn? with
      | none => rfl
      | some p => exact absurd (wakes.2 p where' ▸ where') elsewhere
    · rw [goOn_other caller]
      exact wakes.called o

theorem Warned.nudge (warned : Warned s) (here : s.phase t = .nudging u)
    (unlocked : (s.phase u).hasSleepLock = false) :
    Warned ((s.nudged u).goOn t .idle s.world) := by
  have phase (v : ThreadId) : (s.nudged u).phase v =
      if v = u then (s.phase v).nudged else s.phase v := rfl
  constructor
  · intro v
    by_cases own : v = t
    · subst own
      rw [goOn_same]
      exact .ofSilent rfl id
    · rw [goOn_other own, phase]
      split
      · exact (warned.sound v).nudged
      · exact warned.sound v
  · intro v rests set
    have own : v ≠ t := by
      rintro rfl
      rw [goOn_same] at rests
      exact rests
    rw [goOn_other own] at rests ⊢
    have same : (s.nudged u).phase v = s.phase v := by
      rw [phase] at rests ⊢
      split
      · rename_i target
        rw [if_pos target] at rests
        exact nudged_of_rests rests
      · rfl
    rw [same] at rests ⊢
    obtain ⟨x, wakes⟩ := warned.woken v rests set
    refine ⟨x, ?_⟩
    have nudger : x ≠ t := by
      -- Whom it nudges has been asleep, and is awake now.
      rintro rfl
      rw [here] at wakes
      obtain ⟨rfl, nowhere⟩ := wakes
      obtain ⟨deadline, asleep⟩ := asleep_of_rests rests nowhere unlocked
      rw [phase, if_pos rfl, asleep] at same
      cases same
    rw [goOn_other nudger, phase]
    split
    · exact wakes.nudged
    · exact wakes

theorem Warned.notify {o : ObjectId} {m : Monitor} (warned : Warned s) :
    Warned ((s.called o).inWorld (s.world.setMonitor o m)) where
  sound v := (warned.sound v).called o rfl
  woken v rests set := by
    obtain ⟨same, -⟩ := called_of_rests rests
    have before : (s.phase v).Rests := same ▸ rests
    obtain ⟨x, wakes⟩ := warned.woken v before set
    refine ⟨x, ?_⟩
    rw [show ((s.called o).inWorld _).phase v = s.phase v from same]
    exact wakes.called o

theorem Elsewhere.warned (kept : Elsewhere s.world w) (warned : Warned s) :
    Warned (s.inWorld w) where
  sound v :=
    { noted := fun o here => (kept.waitingOn v).trans ((warned.sound v).noted o here)
      claimed := fun claims => (kept.flags v).trans ((warned.sound v).claimed claims) }
  woken v rests set := warned.woken v rests ((kept.flags v).symm.trans set)

theorem Warned.step (warned : Warned s) (step : Step code s e s') : Warned s' := by
  cases step with
  | move known moved => exact warned.move known moved
  | call here unlocked => exact warned.call here unlocked
  | nudge here unlocked => exact warned.nudge here unlocked
  | notify => exact warned.notify
  | elsewhere kept => exact kept.warned warned

theorem Warned.run (warned : Warned s) (run : Run code s es s') : Warned s' := by
  induction run with
  | nil s => exact warned
  | cons first rest ih => exact ih (warned.step first)

end ManagedRuntime.Interrupts
