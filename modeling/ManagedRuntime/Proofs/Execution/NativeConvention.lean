import ManagedRuntime.Proofs.Execution.StackNeutrality

/-!
The convention between a native body and its caller. The body finds its arguments on the operand
stack and its own frame on the chain. Main statement: whatever a body does above its base, the call
leaves either the result slots and nothing pending of its own, or nothing and its failure pending;
the frame chain is the one before the call exactly where the body leaves one frame above it.
-/
namespace ManagedRuntime

namespace OperandStack

theorem size_truncate (s : OperandStack) (n : Nat) : (s.truncate n).size = min n s.size := by
  simp [OperandStack.truncate, size]

inductive Made : OperandStack → Prop where
  | empty (capacity : Nat) : Made (.empty capacity)
  | push {s t : OperandStack} {x : Slot} (made : Made s) (pushed : s.push x = .ok t) : Made t
  | pop {s t : OperandStack} {x : Slot} (made : Made s) (popped : s.pop = .ok (x, t)) : Made t
  | truncate {s : OperandStack} (made : Made s) (n : Nat) : Made (s.truncate n)

theorem Made.bounded {s : OperandStack} (made : s.Made) : s.size ≤ s.capacity := by
  induction made with
  | empty capacity => simp [OperandStack.empty, size]
  | @push s t x _ pushed ih =>
    unfold OperandStack.push at pushed
    split at pushed
    · cases pushed
      simp only [size, Array.size_push] at *
      omega
    · cases pushed
  | @pop s t x _ popped ih =>
    unfold OperandStack.pop at popped
    split at popped
    · cases popped
    · cases popped
      simp only [size, Array.size_pop] at *
      omega
  | @truncate s _ n ih =>
    rw [size_truncate]
    exact Nat.le_trans (Nat.min_le_right _ _) ih

theorem Made.pushAll {s : OperandStack} (made : s.Made) (xs : List Slot) :
    (s.pushAll xs).2.Made := by
  induction xs generalizing s with
  | nil => exact made
  | cons x xs ih =>
    unfold OperandStack.pushAll
    cases pushed : s.push x with
    | error f => exact made
    | ok t => exact ih (made.push pushed)

end OperandStack

namespace Exec
variable {η : Type} {code : Code η} {rely : World η → World η → Prop} {w u : World η}
  {env e : Env} {m : Method}

open OperandStack

def argBase (m : Method) (env : Env) : Nat := env.stack.size - m.layout.argSlots

def afterBody (env d : Env) (q : Except Failure Nat) : Env :=
  { d.popFrame with held := outcomeObjects (fun _ => []) q ++ env.held }

def checkedTop (m : Method) (base height : Nat) : Except Failure Nat → Except Failure Nat
  | .ok top =>
    if top = base + m.layout.resultSlots ∧ height = top then .ok top
    else .error (.wrongStackTop m.text top (base + m.layout.resultSlots))
  | .error f => .error f

def settled (base : Nat) (d : Env) : Except Failure Nat → Env
  | .ok _ => d
  | .error f => { d.truncate base with pending := some f }

abbrev LinkEnds (code : Code η) (rely : World η → World η → Prop) (w : World η) (env : Env)
    (m : Method) (q : Except Failure NativeFunction) (c : Env) (v : World η) : Prop :=
  Ends code rely w env (act (Atomic.link m)) q c v

def BodyEnds (code : Code η) (rely : World η → World η → Prop) (w : World η) (env : Env)
    (m : Method) (c : Env) (q : Except Failure Nat) (d : Env) (u : World η) : Prop :=
  ∃ f v, LinkEnds code rely w env m (.ok f) c v ∧
    Ends code rely v (c.pushFrame (.real m)) (code.native f ⟨m, argBase m env⟩) q d u

theorem ends_body {f : NativeFunction} {base : Nat} {r : Except Failure Nat} :
    Ends code rely w env (onFrame (.real m) (releasing (native f ⟨m, base⟩))) r e u ↔
      ∃ d, Ends code rely w (env.pushFrame (.real m)) (code.native f ⟨m, base⟩) r d u ∧
        e = afterBody env d r := by
  unfold releasing
  rw [ends_onFrame]
  constructor
  · rintro ⟨d, ended, rfl⟩
    obtain ⟨d, ran, rfl⟩ := ends_keeping.mp ended
    exact ⟨d, ends_native.mp ran, rfl⟩
  · rintro ⟨d, ran, rfl⟩
    exact ⟨_, ends_keeping.mpr ⟨d, ends_native.mpr ran, rfl⟩, rfl⟩

theorem ends_runBound {r : Except Failure Nat} :
    Ends code rely w env (runBound m (argBase m env)) r e u ↔
      (∃ f, LinkEnds code rely w env m (.error f) e u ∧ r = .error f) ∨
        ∃ c q d, BodyEnds code rely w env m c q d u ∧ e = afterBody c d q ∧
          r = checkedTop m (argBase m env) d.stack.size q := by
  unfold runBound
  rw [ends_bind]
  refine or_congr_right ?_
  constructor
  · rintro ⟨f, c, v, linked, rest⟩
    rcases ends_bind.mp rest with ⟨g, failed, rfl⟩ | ⟨top, d, v, ran, rest⟩
    · obtain ⟨d, ran, rfl⟩ := ends_body.mp failed
      exact ⟨c, _, d, ⟨f, v, linked, ran⟩, rfl, rfl⟩
    · obtain ⟨d, body, rfl⟩ := ends_body.mp ran
      have compared := ends_get_bind.mp rest
      split at compared
      · rename_i right
        obtain ⟨rfl, rfl, rfl⟩ := ends_pure.mp compared
        exact ⟨c, _, d, ⟨f, _, linked, body⟩, rfl, (if_pos right).symm⟩
      · rename_i wrong
        obtain ⟨rfl, rfl, rfl⟩ := ends_throw.mp compared
        exact ⟨c, _, d, ⟨f, _, linked, body⟩, rfl, (if_neg wrong).symm⟩
  · rintro ⟨c, q, d, ⟨f, v, linked, ran⟩, rfl, rfl⟩
    refine ⟨f, c, v, linked, ends_bind.mpr ?_⟩
    cases q with
    | error g => exact .inl ⟨g, ends_body.mpr ⟨d, ran, rfl⟩, rfl⟩
    | ok top =>
      refine .inr ⟨top, _, u, ends_body.mpr ⟨d, ran, rfl⟩, ends_get_bind.mpr ?_⟩
      by_cases right : top = argBase m env + m.layout.resultSlots ∧ d.stack.size = top
      · rw [checkedTop, if_pos right]
        exact (if_pos right).symm ▸ ends_pure.mpr ⟨rfl, rfl, rfl⟩
      · rw [checkedTop, if_neg right]
        exact (if_neg right).symm ▸ ends_throw.mpr ⟨rfl, rfl, rfl⟩

/-- A call whose arguments are there ends with its linking or with the body bound to it. -/
theorem ends_invokeNative {r : Except Failure Nat} (present : m.layout.argSlots ≤ env.stack.size) :
    Ends code rely w env (invokeNative m) r e u ↔
      (∃ f c, LinkEnds code rely w env m (.error f) c u ∧ r = .error f ∧
        e = settled (argBase m env) c r) ∨
        ∃ c q d, BodyEnds code rely w env m c q d u ∧
          r = checkedTop m (argBase m env) d.stack.size q ∧
          e = settled (argBase m env) (afterBody c d q) r := by
  have dispatched {q : Except Failure Nat} {d : Env} {v : World η} :
      Ends code rely w env (dispatch m) q d v ↔ ∃ c,
        Ends code rely w env (runBound m (argBase m env)) q c v ∧
          d = match q with | .ok _ => c | .error _ => c.truncate (argBase m env) := by
    unfold dispatch
    rw [ends_get_bind, if_neg (by omega)]
    refine ends_truncatingTo.trans ?_
    cases q <;> rfl
  have whole : Ends code rely w env (invokeNative m) r e u ↔ ∃ c,
      Ends code rely w env (runBound m (argBase m env)) r c u ∧
        e = settled (argBase m env) c r := by
    unfold invokeNative
    rw [ends_outcome_bind]
    constructor
    · rintro ⟨q, d, v, first, rest⟩
      obtain ⟨c, ran, rfl⟩ := dispatched.mp first
      cases q with
      | ok top =>
        obtain ⟨rfl, rfl, rfl⟩ := ends_pure.mp rest
        exact ⟨_, ran, rfl⟩
      | error f =>
        obtain ⟨rfl, rfl, rfl⟩ := ends_throw.mp (ends_modify_bind.mp rest)
        exact ⟨c, ran, rfl⟩
    · rintro ⟨c, ran, rfl⟩
      refine ⟨r, _, u, dispatched.mpr ⟨c, ran, rfl⟩, ?_⟩
      cases r with
      | ok top => exact ends_pure.mpr ⟨rfl, rfl, rfl⟩
      | error f => exact ends_modify_bind.mpr (ends_throw.mpr ⟨rfl, rfl, rfl⟩)
  rw [whole]
  constructor
  · rintro ⟨d, ran, rfl⟩
    rcases ends_runBound.mp ran with ⟨f, failed, rfl⟩ | ⟨c, q, d, body, rfl, rfl⟩
    · exact .inl ⟨f, d, failed, rfl, rfl⟩
    · exact .inr ⟨c, q, d, body, rfl, rfl⟩
  · rintro (⟨f, c, failed, rfl, rfl⟩ | ⟨c, q, d, body, rfl, rfl⟩)
    · exact ⟨c, ends_runBound.mpr (.inl ⟨f, failed, rfl⟩), rfl⟩
    · exact ⟨_, ends_runBound.mpr (.inr ⟨c, q, d, body, rfl, rfl⟩), rfl⟩

theorem ends_invokeNative_short {r : Except Failure Nat}
    (short : env.stack.size < m.layout.argSlots) :
    Ends code rely w env (invokeNative m) r e u ↔
      r = .error (.underflowCalling m.text) ∧
        e = { env with pending := some (.underflowCalling m.text) } ∧ u = w := by
  unfold invokeNative dispatch
  rw [ends_outcome_bind]
  simp only [ends_get_bind, if_pos short, ends_throw_bind]
  constructor
  · rintro ⟨q, d, v, ⟨rfl, rfl, rfl⟩, rest⟩
    exact ends_throw.mp (ends_modify_bind.mp rest)
  · intro refused
    exact ⟨_, env, w, ⟨rfl, rfl, rfl⟩, ends_modify_bind.mpr (ends_throw.mpr refused)⟩

theorem ends_finish {call : NativeCall} {v : Option Value} {r : Except Failure Nat} :
    Ends code rely w env (finish call v) r e u ↔
      (r, e) = (let p := (env.stack.truncate call.base).pushAll ((v.map Value.slots).getD [])
        (p.1.map fun _ => p.2.size, { env with stack := p.2 })) ∧ u = w := by
  unfold finish
  rw [ends_bind]
  simp only [ends_onEnv, Env.replaceFrom, ends_get_bind, ends_pure]
  generalize (env.stack.truncate call.base).pushAll ((v.map Value.slots).getD []) = p
  obtain ⟨f | ⟨⟩, s⟩ := p
  · constructor
    · rintro (⟨g, ⟨same, rfl⟩, rfl⟩ | ⟨a, d, x, ⟨impossible, -⟩, -⟩)
      · cases same
        exact ⟨rfl, rfl⟩
      · cases impossible
    · rintro ⟨same, rfl⟩
      cases same
      exact .inl ⟨f, ⟨rfl, rfl⟩, rfl⟩
  · constructor
    · rintro (⟨g, ⟨impossible, -⟩, -⟩ | ⟨a, d, x, ⟨same, rfl⟩, rfl, rfl, rfl⟩)
      · cases impossible
      · cases same
        exact ⟨rfl, rfl⟩
    · rintro ⟨same, rfl⟩
      cases same
      exact .inr ⟨(), _, _, ⟨rfl, rfl⟩, rfl, rfl, rfl⟩

/-- What a native function is trusted with: it leaves alone the slots below the base of its call and
the chain below its own frame, and changes the operand stack by the operations of stacks. -/
structure KeepsConvention (code : Code η) (rely : World η → World η → Prop) (f : NativeFunction) :
    Prop where
  below : KeepsBelow code rely f
  chain : ∀ ⦃w env call r e u⦄, Ends code rely w env (code.native f call) r e u →
    env.frames.tail <:+ e.frames
  stack : ∀ ⦃w env call r e u⦄, Ends code rely w env (code.native f call) r e u →
    env.stack.Made → e.stack.Made

inductive Leaves (m : Method) (env e : Env) : Except Failure Nat → Prop where
  | returned {top : Nat} (present : m.layout.argSlots ≤ env.stack.size)
      (height : top = e.stack.size) (result : top = argBase m env + m.layout.resultSlots)
      (below : AgreeBelow (argBase m env) e.stack env.stack) : Leaves m env e (.ok top)
  | failed {f : Failure} (present : m.layout.argSlots ≤ env.stack.size)
      (stack : e.stack.slots.toList = env.stack.slots.toList.take (argBase m env))
      (pending : e.pending = some f) : Leaves m env e (.error f)
  | refused {detail : String} (short : env.stack.size < m.layout.argSlots)
      (stack : e.stack = env.stack) (pending : e.pending = some (.internal detail)) :
      Leaves m env e (.error (.internal detail))

theorem Ends.links {f : NativeFunction} {c : Env} {v : World η}
    (linked : LinkEnds code rely w env m (.ok f) c v) : Links rely w m f := by
  obtain ⟨x, refs, change, link, -⟩ := ends_act.mp linked
  exact ⟨x, _, v, change, link⟩

theorem Ends.link_env {q : Except Failure NativeFunction} {c : Env} {v : World η}
    (linked : LinkEnds code rely w env m q c v) : ∃ refs, c = env.hold refs := by
  obtain ⟨x, refs, change, link, rfl⟩ := ends_act.mp linked
  exact ⟨_, rfl⟩

theorem Ends.invokeNative_pending {r : Except Failure Nat} {f : Failure}
    (ends : Ends code rely w env (Exec.invokeNative m) r e u) (failed : r = .error f) :
    e.pending = some f := by
  subst failed
  by_cases present : m.layout.argSlots ≤ env.stack.size
  · rcases (ends_invokeNative present).mp ends with ⟨g, c, -, same, rfl⟩ | ⟨c, q, d, -, same, rfl⟩
    · rfl
    · rfl
  · obtain ⟨same, rfl, -⟩ := (ends_invokeNative_short (by omega)).mp ends
    cases same
    rfl

theorem Ends.leaves {r : Except Failure Nat}
    (ends : Ends code rely w env (Exec.invokeNative m) r e u)
    (keeps : ∀ f, Links rely w m f → KeepsBelow code rely f) : Leaves m env e r := by
  by_cases present : m.layout.argSlots ≤ env.stack.size
  · have left := ends.invokeNative present keeps
    cases r with
    | ok top =>
      obtain ⟨agree, height⟩ := left
      have same : top = e.stack.size := by
        rcases (ends_invokeNative present).mp ends with
          ⟨f, c, -, impossible, -⟩ | ⟨c, q, d, -, checked, rfl⟩
        · cases impossible
        · cases q with
          | error f => cases checked
          | ok found =>
            by_cases right : found = argBase m env + m.layout.resultSlots ∧ d.stack.size = found
            · rw [checkedTop, if_pos right] at checked
              cases checked
              exact right.2.symm
            · rw [checkedTop, if_neg right] at checked
              cases checked
      exact .returned present same (same.trans height) agree
    | error f => exact .failed present left (ends.invokeNative_pending rfl)
  · obtain ⟨rfl, rfl, -⟩ := (ends_invokeNative_short (by omega)).mp ends
    exact .refused (by omega) rfl rfl

theorem Ends.invokeNative_made {r : Except Failure Nat}
    (ends : Ends code rely w env (Exec.invokeNative m) r e u) (made : env.stack.Made)
    (keeps : ∀ f, Links rely w m f → KeepsConvention code rely f) : e.stack.Made := by
  by_cases present : m.layout.argSlots ≤ env.stack.size
  · have settles {d : Env} (made : d.stack.Made) : (settled (argBase m env) d r).stack.Made := by
      cases r with
      | ok top => exact made
      | error f => exact made.truncate _
    rcases (ends_invokeNative present).mp ends with ⟨f, c, linked, -, rfl⟩ | ⟨c, q, d, body, -, rfl⟩
    · obtain ⟨refs, rfl⟩ := linked.link_env
      exact settles made
    · obtain ⟨f, v, linked, ran⟩ := body
      obtain ⟨refs, rfl⟩ := linked.link_env
      have after : d.stack.Made := (keeps f linked.links).stack ran made
      exact settles after
  · obtain ⟨-, rfl, -⟩ := (ends_invokeNative_short (by omega)).mp ends
    exact made

/-- A native call leaves what the convention says, within the capacity of the stack. The chain of
frames is the one before the call exactly if below the newest frame of every chain that its body
leaves are the frames before the call. -/
theorem invokeNative_convention (made : env.stack.Made)
    (keeps : ∀ f, Links rely w m f → KeepsConvention code rely f) :
    (∀ r e u, Ends code rely w env (invokeNative m) r e u →
      Leaves m env e r ∧ e.stack.size ≤ e.stack.capacity) ∧
      ((∀ r e u, Ends code rely w env (invokeNative m) r e u → e.frames = env.frames) ↔
        (m.layout.argSlots ≤ env.stack.size → ∀ c q d u, BodyEnds code rely w env m c q d u →
          d.frames.tail = env.frames)) := by
  constructor
  · intro r e u ends
    have below : ∀ f, Links rely w m f → KeepsBelow code rely f := fun f linked =>
      (keeps f linked).below
    exact ⟨ends.leaves below, (ends.invokeNative_made made keeps).bounded⟩
  have frames (r : Except Failure Nat) (d : Env) :
      (settled (argBase m env) d r).frames = d.frames := by
    cases r <;> rfl
  constructor
  · intro same present c q d u body
    have ends := (ends_invokeNative present).mpr (.inr ⟨c, q, d, body, rfl, rfl⟩)
    have chain := same _ _ _ ends
    rwa [frames] at chain
  · intro balanced r e u ends
    by_cases present : m.layout.argSlots ≤ env.stack.size
    · rcases (ends_invokeNative present).mp ends with
        ⟨f, c, linked, -, rfl⟩ | ⟨c, q, d, body, -, rfl⟩
      · obtain ⟨refs, rfl⟩ := linked.link_env
        exact frames r _
      · exact (frames r _).trans (balanced present c q d u body)
    · obtain ⟨-, rfl, -⟩ := (ends_invokeNative_short (by omega)).mp ends
      rfl

theorem Ends.finish_env {call : NativeCall} {v : Option Value} {r : Except Failure Nat}
    (ends : Ends code rely w env (Exec.finish call v) r e u) :
    ∃ s, e = { env with stack := s } ∧ (env.stack.Made → s.Made) := by
  obtain ⟨same, -⟩ := ends_finish.mp ends
  exact ⟨_, congrArg Prod.snd same, fun made => (made.truncate _).pushAll _⟩

theorem keepsConvention_integerCode (rely : World Unit → World Unit → Prop) (f : NativeFunction) :
    KeepsConvention integerCode rely f where
  below := keepsBelow_integerCode rely f
  chain w env call r e u ends := by
    obtain ⟨s, rfl, -⟩ := ends.finish_env
    exact List.tail_suffix _
  stack w env call r e u ends made := by
    obtain ⟨s, rfl, keeps⟩ := ends.finish_env
    exact keeps made

def wideMethod : Method :=
  { objectMethod with
    descriptor := "(J)I"
    type := ⟨[.primitive .long], some (.primitive .int)⟩ }

def wideEnv : Env :=
  (Env.new ⟨0⟩ 8).replaceFrom 0 [.ref none, .wide 3, .wideTail] |>.2

theorem invokeNative_convention_wide :
    ∃ e u, Ends integerCode (fun _ _ => True) oneNative wideEnv (invokeNative wideMethod) (.ok 2)
        e u ∧ Leaves wideMethod wideEnv e (.ok 2) ∧ e.stack.size ≤ e.stack.capacity ∧
      e.frames = [] := by
  let ended := Machine.run integerCode (fun _ => .done ()) 8
    ((Exec.invokeNative wideMethod).runIn wideEnv) ⟨oneNative, []⟩
  have result : ended.map (fun r => r.1.1) = some (.ok 2) := by decide +kernel
  obtain ⟨⟨⟨r, e⟩, n⟩, run, same⟩ := Option.map_eq_some_iff.mp result
  cases same
  have ends : Ends integerCode (fun _ _ => True) oneNative wideEnv (invokeNative wideMethod) (.ok 2)
      e n.world := Machine.runs_of_run run
  have made : wideEnv.stack.Made := ((OperandStack.Made.empty 8).truncate 0).pushAll _
  have keeps (f : NativeFunction) (_ : Links (fun _ _ => True) oneNative wideMethod f) :=
    keepsConvention_integerCode (fun _ _ => True) f
  obtain ⟨leaves, chain⟩ := invokeNative_convention made keeps
  have balanced := chain.mpr fun present c q d u body => by
    obtain ⟨f, v, linked, ran⟩ := body
    obtain ⟨refs, rfl⟩ := linked.link_env
    obtain ⟨s, rfl, -⟩ := ran.finish_env
    rfl
  exact ⟨e, n.world, ends, (leaves _ e _ ends).1, (leaves _ e _ ends).2, balanced _ e _ ends⟩

def boundaryCode : Code Unit where
  execute m _ := throw (.noCode m.text)
  native _ call := do
    modify (·.pushFrame .boundary)
    finishRef call none

theorem keepsConvention_boundaryCode (rely : World Unit → World Unit → Prop) (f : NativeFunction) :
    KeepsConvention boundaryCode rely f where
  below w env call r e u inside ends := (ends_modify_bind.mp ends).finish inside
  chain w env call r e u ends := by
    obtain ⟨s, rfl, -⟩ := (ends_modify_bind.mp ends).finish_env
    exact (List.tail_suffix _).trans (List.suffix_cons _ _)
  stack w env call r e u ends made := by
    obtain ⟨s, rfl, keeps⟩ := (ends_modify_bind.mp ends).finish_env
    exact keeps made

/-- A native that keeps the convention may still leave a frame too many. -/
theorem frame_left_over :
    (∀ f, KeepsConvention boundaryCode (fun _ _ => True) f) ∧
      ∃ e u, Ends boundaryCode (fun _ _ => True) oneNative (.new ⟨0⟩ 8)
        (invokeNative objectMethod) (.ok 1) e u ∧ e.frames = [.real objectMethod] := by
  let ended := Machine.run boundaryCode (fun _ => .done ()) 8
    ((Exec.invokeNative objectMethod).runIn (.new ⟨0⟩ 8)) ⟨oneNative, []⟩
  have result :
      ended.map (fun r => (r.1.1, r.1.2.frames)) = some (.ok 1, [.real objectMethod]) := by
    decide +kernel
  obtain ⟨⟨⟨r, e⟩, n⟩, run, same⟩ := Option.map_eq_some_iff.mp result
  cases congrArg Prod.fst same
  have frames : e.frames = [.real objectMethod] := congrArg Prod.snd same
  exact ⟨keepsConvention_boundaryCode _, e, n.world, Machine.runs_of_run run, frames⟩

end Exec
end ManagedRuntime
