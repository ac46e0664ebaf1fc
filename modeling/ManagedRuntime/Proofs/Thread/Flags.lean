import ManagedRuntime.Proofs.Thread.Phases

/-!
What a step does to the interrupt flags. Main statements: a flag that is set is cleared in a step of
its own thread alone, one that reports it or that queries it without room on the stack for the
answer; and until then it stays.
-/
namespace ManagedRuntime

namespace Exec
variable {η : Type} {code : Code η} {w w' : World η} {env e : Env} {call : NativeCall}
  {r : Except Failure Nat}

theorem Ends.interrupted
    (ends : Ends code (fun v x => x = v) w env (ThreadNative.interrupted.run call) r e w') :
    w'.records = (w.clearInterrupt env.thread).records ∧
      ∃ d v, d.stack = env.stack ∧
        Ends code (fun v x => x = v) v d (finishBoolean call (w.isInterrupted env.thread)) r e
          w' := by
  unfold ThreadNative.run takeInterrupt at ends
  simp only [bind_assoc, ends_get_bind] at ends
  rw [ends_bind] at ends
  rcases ends with ⟨f, taken, -⟩ | ⟨flag, d, v, taken, rest⟩
  · obtain ⟨y, refs, -, ran, -⟩ := ends_act.mp taken
    cases ran
  · obtain ⟨y, refs, rfl, ran, rfl⟩ := ends_act.mp taken
    cases ran
    have same : w' = _ := (ends_finish.mp rest).2
    refine ⟨?_, env.hold _, _, rfl, rest⟩
    rw [same]
    rfl

theorem Ends.answer? (inside : call.base ≤ env.stack.size)
    (ends : Ends code (fun v x => x = v) w env (ThreadNative.interrupted.run call) r e w') :
    Interrupts.answer? call e r =
      if call.base < env.stack.capacity then some (w.isInterrupted env.thread) else none := by
  obtain ⟨-, d, v, stack, rest⟩ := ends.interrupted
  obtain ⟨left, -⟩ := ends_finish.mp rest
  rw [stack] at left
  have size : (env.stack.truncate call.base).size = call.base := by
    rw [OperandStack.size_truncate, Nat.min_eq_left inside]
  have capacity : (env.stack.truncate call.base).capacity = env.stack.capacity := rfl
  by_cases room : call.base < env.stack.capacity
  · have fits : (env.stack.truncate call.base).size +
        (Value.boolean (w.isInterrupted env.thread)).slots.length ≤
          (env.stack.truncate call.base).capacity := by
      rw [size, capacity]
      exact room
    have found := read_written inside (.boolean (w.isInterrupted env.thread))
    simp only [Option.map_some, Option.getD_some, OperandStack.pushAll_of_room _ _ fits] at left
    cases left
    rw [if_pos room]
    exact congrArg (Option.bind · Value.boolean?) found
  · have full :
        ¬ (env.stack.truncate call.base).size < (env.stack.truncate call.base).capacity := by
      rwa [size, capacity]
    simp only [Option.map_some, Option.getD_some, Value.slots, OperandStack.pushAll,
      OperandStack.push, if_neg full] at left
    cases left
    rw [if_neg room]
    rfl

end Exec

namespace Interrupts
variable {η : Type} {code : Code η} {t u : ThreadId} {w w' : World η} {s s' : Scene η}
  {e : Event} {es : List Event} {ph ph' : Phase} {free : ObjectId → Prop}

def Event.flagAfter (w : World η) (u : ThreadId) : Event → Bool
  | silent => w.isInterrupted u
  | interrupts v => (w.interrupt v).isInterrupted u
  | reports v | query v _ _ => (w.clearInterrupt v).isInterrupted u

structure Effect (t : ThreadId) (w : World η) (e : Event) (w' : World η) : Prop where
  flags : ∀ u, w'.isInterrupted u = e.flagAfter w u
  waitingOn : ∀ u, u ≠ t → (w'.record u).waitingOn = (w.record u).waitingOn

theorem Effect.ofRecords (same : w'.records = w.records) : Effect t w .silent w' where
  flags u := by simp only [Event.flagAfter, World.isInterrupted, World.record, same]
  waitingOn u _ := by simp only [World.record, same]

theorem Effect.cleared (same : w'.records = (w.clearInterrupt t).records)
    (clears : ∀ u, e.flagAfter w u = (w.clearInterrupt t).isInterrupted u) : Effect t w e w' where
  flags u := by
    rw [clears]
    simp only [World.isInterrupted, World.record, same]
  waitingOn u _ := by
    have record : w'.record u = (w.clearInterrupt t).record u := by simp only [World.record, same]
    rw [record, World.waitingOn_clearInterrupt]

theorem Effect.noted {o : Reference} (known : t.index < w.records.size) :
    Effect t w .silent (w.noteWaiting t o) where
  flags u := World.isInterrupted_noteWaiting o
  waitingOn u other := by rw [World.waitingOn_noteWaiting o known, if_neg other]

theorem Move.effect (move : Move code t free w ph e ph' w') (known : t.index < w.records.size) :
    Effect t w e w' := by
  cases move with
  | ask | accept | stay | park | wake | look | expire | finish | check | doze | oversleep
  | fallAsleep | rouse | retake | lieDown | read | readNothing => exact .ofRecords rfl
  | @join o limit =>
    have records : (w.addDeadline? limit).2.records = w.records := by cases limit <;> rfl
    exact .ofRecords records
  | leave why settled | giveUp unlocked settled =>
    exact .ofRecords (records_settleWaiter settled).1
  | note | withdraw => exact .noted known
  | refuse | report | rise => exact .cleared rfl fun _ => rfl
  | interrupt =>
    constructor
    · intro v
      rfl
    · intro v other
      exact World.waitingOn_interrupt
  | query mine inside ran =>
    subst mine
    exact .cleared ran.interrupted.1 fun _ => rfl

/-! Which flags a step changes. -/

def Event.clears? : Event → Option ThreadId
  | reports t | query t _ _ => some t
  | _ => none

theorem flagAfter_of_clears (clears : e.clears? = some u) : e.flagAfter w u = false := by
  cases e with
  | reports v | query v =>
    cases clears
    rw [Event.flagAfter, World.isInterrupted_clearInterrupt]
    simp
  | _ => cases clears

theorem flagAfter_of_set (set : w.isInterrupted u = true) (keeps : e.clears? ≠ some u) :
    e.flagAfter w u = true := by
  cases e with
  | silent => exact set
  | interrupts v =>
    rw [Event.flagAfter, World.isInterrupted_interrupt, set]
    rfl
  | reports v | query v =>
    have other : u ≠ v := fun same => keeps (congrArg some same.symm)
    rw [Event.flagAfter, World.isInterrupted_clearInterrupt, set, decide_eq_true other]
    rfl

theorem set_or_interrupts (set : e.flagAfter w u = true) :
    w.isInterrupted u = true ∨ e = .interrupts u := by
  cases e with
  | silent => exact .inl set
  | interrupts v =>
    rw [Event.flagAfter, World.isInterrupted_interrupt, Bool.or_eq_true, decide_eq_true_eq] at set
    rcases set with before | ⟨rfl, -⟩
    · exact .inl before
    · exact .inr rfl
  | reports v | query v =>
    rw [Event.flagAfter, World.isInterrupted_clearInterrupt, Bool.and_eq_true] at set
    exact .inl set.1

/-- Only its own thread clears a flag. -/
theorem Move.clears (move : Move code t free w ph e ph' w') (clears : e.clears? = some u) :
    u = t := by
  cases move <;> cases clears <;> rfl

theorem Step.flags (step : Step code s e s') (u : ThreadId) :
    s'.world.isInterrupted u = e.flagAfter s.world u := by
  cases step with
  | move known moved => exact (moved.effect known).flags u
  | call | nudge | notify => rfl
  | elsewhere kept => exact kept.flags u

theorem Step.own (step : Step code s e s') (clears : e.clears? = some t) :
    ∃ ph, Move code t s.Unlocked s.world (s.phase t) e ph s'.world := by
  cases step with
  | move known moved =>
    cases moved.clears clears
    exact ⟨_, moved⟩
  | call | nudge | notify | elsewhere => cases clears

theorem Step.answer {room : Bool} {answer : Option Bool}
    (step : Step code s (.query t room answer) s') :
    answer = if room then some (s.world.isInterrupted t) else none := by
  cases step with
  | @move v _ ph w known moved =>
    generalize s.phase v = before at moved
    cases moved with
    | query mine inside ran =>
      subst mine
      simpa only [decide_eq_true_eq] using ran.answer? inside

theorem Event.Reports.clears (reports : e.Reports t) : e.clears? = some t := by
  cases e with
  | silent | interrupts => exact False.elim reports
  | reports u => exact congrArg some reports
  | query u => exact congrArg some reports.1

theorem Event.Loses.clears (loses : e.Loses t) : e.clears? = some t := by
  cases e with
  | silent | interrupts | reports => exact False.elim loses
  | query u => exact congrArg some loses.1

theorem Step.reports_or_loses (step : Step code s e s') (set : s.world.isInterrupted t = true)
    (clears : e.clears? = some t) : e.Reports t ∨ e.Loses t := by
  cases e with
  | silent | interrupts => cases clears
  | reports u => exact .inl (Option.some.inj clears)
  | query u room answer =>
    cases Option.some.inj clears
    have told := step.answer
    cases room with
    | true => exact .inl ⟨rfl, told.trans (congrArg some set)⟩
    | false => exact .inr ⟨rfl, rfl⟩

theorem Step.clear_iff (step : Step code s e s') (set : s.world.isInterrupted t = true) :
    s'.world.isInterrupted t = false ↔ e.Reports t ∨ e.Loses t := by
  rw [step.flags]
  constructor
  · intro clear
    refine step.reports_or_loses set (Classical.byContradiction fun keeps => ?_)
    rw [flagAfter_of_set set keeps] at clear
    cases clear
  · rintro (reports | loses)
    · exact flagAfter_of_clears reports.clears
    · exact flagAfter_of_clears loses.clears

/-- A flag that is set stays until it is reported, if the thread never queries it without room. -/
theorem pending_or_reported (run : Run code s es s') (set : s.world.isInterrupted t = true)
    (room : ∀ e ∈ es, ¬ e.Loses t) :
    s'.world.isInterrupted t = true ∨ ∃ e ∈ es, e.Reports t := by
  induction run with
  | nil s => exact .inl set
  | @cons s s' s'' e es first rest ih =>
    by_cases still : s'.world.isInterrupted t = true
    · rcases ih still fun f member => room f (List.mem_cons_of_mem _ member) with
        set | ⟨f, member, told⟩
      · exact .inl set
      · exact .inr ⟨f, List.mem_cons_of_mem _ member, told⟩
    · rcases (first.clear_iff set).mp (Bool.eq_false_iff.mpr still) with told | loses
      · exact .inr ⟨e, List.mem_cons_self, told⟩
      · exact absurd loses (room e List.mem_cons_self)

end Interrupts
end ManagedRuntime
