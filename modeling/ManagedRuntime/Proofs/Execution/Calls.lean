import ManagedRuntime.Execution.Calls
import ManagedRuntime.Proofs.Execution.Runs

/-!
What the parts of a call do: frames, held objects and the checks around a native.
-/
namespace ManagedRuntime

def NativeCall.argument? (call : NativeCall) (s : OperandStack) (index : Nat) : Option Value :=
  call.method.layout.params[index]?.bind fun p => s.read (call.base + p.offset) p.type

namespace Exec
variable {η α β : Type} {code : Code η} {rely : World η → World η → Prop} {w v u : World η}
  {env e : Env}

theorem ends_conclude_bind {q : Except Failure α} {g : α → Exec η β} {r : Except Failure β} :
    Ends code rely w env (conclude q >>= g) r e u ↔
      match q with
      | .ok a => Ends code rely w env (g a) r e u
      | .error f => r = .error f ∧ e = env ∧ u = w := by
  cases q with
  | ok a => exact Iff.rfl
  | error f => exact ends_throw

theorem ends_throw_bind {f : Failure} {g : α → Exec η β} {r : Except Failure β} :
    Ends code rely w env (throw f >>= g) r e u ↔ r = .error f ∧ e = env ∧ u = w :=
  ends_conclude_bind (q := .error f)

theorem ends_get_bind {g : Env → Exec η β} {r : Except Failure β} :
    Ends code rely w env (get >>= g) r e u ↔ Ends code rely w env (g env) r e u :=
  ends_conclude_bind (q := .ok env)

theorem ends_modify_bind {f : Env → Env} {g : PUnit → Exec η β} {r : Except Failure β} :
    Ends code rely w env (modify f >>= g) r e u ↔ Ends code rely w (f env) (g ()) r e u := by
  rw [ends_bind]
  constructor
  · rintro (⟨f, first, rfl⟩ | ⟨a, d, v, first, rest⟩)
    · cases (ends_modify.mp first).1
    · obtain ⟨-, rfl, rfl⟩ := ends_modify.mp first
      exact rest
  · intro rest
    exact .inr ⟨(), f env, w, ends_modify.mpr ⟨rfl, rfl, rfl⟩, rest⟩

theorem ends_outcome_bind {x : Exec η α} {g : Except Failure α → Exec η β}
    {r : Except Failure β} :
    Ends code rely w env (outcome x >>= g) r e u ↔
      ∃ q d v, Ends code rely w env x q d v ∧ Ends code rely v d (g q) r e u := by
  rw [ends_bind]
  constructor
  · rintro (⟨f, first, rfl⟩ | ⟨a, d, v, first, rest⟩)
    · obtain ⟨q, same, -⟩ := ends_outcome.mp first
      cases same
    · obtain ⟨q, same, first⟩ := ends_outcome.mp first
      cases same
      exact ⟨_, d, v, first, rest⟩
  · rintro ⟨q, d, v, first, rest⟩
    exact .inr ⟨q, d, v, ends_outcome.mpr ⟨q, rfl, first⟩, rest⟩

/-- The states in which a thread with this environment can take its next action. -/
def Faces (rely : World η → World η → Prop) (w : World η) (env : Env) (x : World η) : Prop :=
  ∃ y refs, rely w y ∧ x = y.during (env.references ++ refs)

theorem ends_act_iff {x : Atomic η α} {r : Except Failure α} :
    Ends code rely w env (act x) r e u ↔
      ∃ y, Faces rely w env y ∧ x.runOn y = (r, u) ∧
        e = env.hold (u.madeSince y.heap.objects.size) := by
  rw [ends_act]
  constructor
  · rintro ⟨y, refs, change, ran, rfl⟩
    exact ⟨_, ⟨y, refs, change, rfl⟩, ran, rfl⟩
  · rintro ⟨_, ⟨y, refs, change, rfl⟩, ran, rfl⟩
    exact ⟨y, refs, change, ran, rfl⟩

theorem ends_unmaking {x : Atomic η α} {r : Except Failure α}
    (heap : ∀ y, Faces rely w env y → (x.runOn y).2.heap = y.heap) :
    Ends code rely w env (act x) r e u ↔
      ∃ y, Faces rely w env y ∧ x.runOn y = (r, u) ∧ e = env := by
  have held {y : World η} (faces : Faces rely w env y) (ran : x.runOn y = (r, u)) :
      env.hold (u.madeSince y.heap.objects.size) = env := by
    have same : u.heap = y.heap := by
      rw [← heap y faces, ran]
    simp [World.madeSince, same, Env.hold]
  rw [ends_act_iff]
  constructor
  · rintro ⟨y, faces, ran, rfl⟩
    exact ⟨y, faces, ran, held faces ran⟩
  · rintro ⟨y, faces, ran, rfl⟩
    exact ⟨y, faces, ran, (held faces ran).symm⟩

theorem ends_reads {x : Atomic η α} {f : World η → Except Failure α}
    (reads : ∀ y, x.runOn y = (f y, y)) {r : Except Failure α} :
    Ends code rely w env (act x) r e u ↔ Faces rely w env u ∧ r = f u ∧ e = env := by
  rw [ends_unmaking fun y _ => by rw [reads]]
  constructor
  · rintro ⟨y, faces, ran, rfl⟩
    cases (reads y).symm.trans ran
    exact ⟨faces, rfl, rfl⟩
  · rintro ⟨faces, rfl, rfl⟩
    exact ⟨u, faces, reads u, rfl⟩

theorem Ends.reads_bind {x : Atomic η α} {f : World η → Except Failure α}
    {g : α → Exec η β} (reads : ∀ y, x.runOn y = (f y, y)) {r : Except Failure β}
    (ends : Ends code rely w env (act x >>= g) r e u) :
    ∃ v, Faces rely w env v ∧
      match f v with
      | .ok a => Ends code rely v env (g a) r e u
      | .error f => r = .error f ∧ u = v := by
  rcases ends_bind.mp ends with ⟨f, first, rfl⟩ | ⟨a, d, v, first, rest⟩
  · obtain ⟨faces, same, rfl⟩ := (ends_reads reads).mp first
    exact ⟨u, faces, by rw [← same]; exact ⟨rfl, rfl⟩⟩
  · obtain ⟨faces, same, rfl⟩ := (ends_reads reads).mp first
    exact ⟨v, faces, by rw [← same]; exact rest⟩

theorem ends_ask {f : World η → α} {r : Except Failure α} :
    Ends code rely w env (act (Atomic.ask f)) r e u ↔
      Faces rely w env u ∧ r = .ok (f u) ∧ e = env :=
  ends_reads fun _ => rfl

theorem ends_discard {x : Exec η α} {r : Except Failure PUnit} :
    Ends code rely w env (discard x) r e u ↔
      ∃ q, Ends code rely w env x q e u ∧ r = q.map fun _ => () := by
  unfold Ends
  rw [show (discard x).runIn env = (x.runIn env).bind _ from rfl, Task.runs_bind_iff]
  constructor
  · rintro ⟨⟨f | a, d⟩, v, first, rest⟩
    · obtain ⟨same, rfl⟩ := Task.runs_done_iff.mp rest
      cases same
      exact ⟨.error f, first, rfl⟩
    · obtain ⟨same, rfl⟩ := Task.runs_done_iff.mp rest
      cases same
      exact ⟨.ok a, first, rfl⟩
  · rintro ⟨f | a, first, rfl⟩
    · exact ⟨(.error f, e), u, first, .done _ _⟩
    · exact ⟨(.ok a, e), u, first, .done _ _⟩

def outcomeObjects (refs : α → List ObjectId) : Except Failure α → List ObjectId
  | .ok a => refs a
  | .error f => f.objects

theorem ends_keeping {refs : α → List ObjectId} {x : Exec η α} {r : Except Failure α} :
    Ends code rely w env (keeping refs x) r e u ↔
      ∃ d, Ends code rely w env x r d u ∧
        e = { d with held := outcomeObjects refs r ++ env.held } := by
  simp only [keeping, ends_get_bind, ends_outcome_bind, ends_modify_bind, ends_conclude]
  constructor
  · rintro ⟨q, d, v, ends, rfl, rfl, rfl⟩
    exact ⟨d, ends, by cases r <;> rfl⟩
  · rintro ⟨d, ends, rfl⟩
    exact ⟨r, d, u, ends, rfl, by cases r <;> rfl, rfl⟩

theorem ends_onFrame {f : Frame} {x : Exec η α} {r : Except Failure α} :
    Ends code rely w env (onFrame f x) r e u ↔
      ∃ d, Ends code rely w (env.pushFrame f) x r d u ∧ e = d.popFrame := by
  simp only [onFrame, thenPop, ends_modify_bind, ends_outcome_bind, ends_conclude]
  constructor
  · rintro ⟨q, d, v, ends, rfl, rfl, rfl⟩
    exact ⟨d, ends, rfl⟩
  · rintro ⟨d, ends, rfl⟩
    exact ⟨r, d, u, ends, rfl, rfl, rfl⟩

theorem ends_truncatingTo {base : Nat} {x : Exec η α} {r : Except Failure α} :
    Ends code rely w env (truncatingTo base x) r e u ↔
      ∃ d, Ends code rely w env x r d u ∧
        e = match r with | .ok _ => d | .error _ => d.truncate base := by
  simp only [truncatingTo, ends_outcome_bind]
  constructor
  · rintro ⟨f | a, d, v, ends, rest⟩
    · obtain ⟨rfl, rfl, rfl⟩ := ends_throw.mp (ends_modify_bind.mp rest)
      exact ⟨d, ends, rfl⟩
    · obtain ⟨rfl, rfl, rfl⟩ := ends_pure.mp rest
      exact ⟨_, ends, rfl⟩
  · rintro ⟨d, ends, rfl⟩
    refine ⟨r, d, u, ends, ?_⟩
    cases r with
    | ok a => exact ends_pure.mpr ⟨rfl, rfl, rfl⟩
    | error f => exact ends_modify_bind.mpr (ends_throw.mpr ⟨rfl, rfl, rfl⟩)

theorem ends_arg_found {call : NativeCall} {index : Nat} {a : Value} {r : Except Failure Value}
    (found : call.argument? env.stack index = some a) :
    Ends code rely w env (arg call index) r e u ↔
      r = .ok a ∧ e = env.hold (Value.objects [a]) ∧ u = w := by
  obtain ⟨p, there, read⟩ := Option.bind_eq_some_iff.mp found
  unfold arg
  simp only [there, ends_get_bind, read, hold, ends_modify_bind, ends_pure]

end Exec
end ManagedRuntime
