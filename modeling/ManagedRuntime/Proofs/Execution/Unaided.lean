import ManagedRuntime.Proofs.Execution.CallTree
import ManagedRuntime.Proofs.Execution.Calls

/-!
Programs that have nothing run. Such a program acts on the shared state, never waits and ends; it
asks for no body of a method and for no native. Main statement: whatever code there is, no run of such
a program begins an activation, some run ends, and at every end what it was to bring about holds.
-/
namespace ManagedRuntime
variable {η α β : Type} {rely does : World η → World η → Prop} {w v u x : World η}

namespace Task

/-- The task has nothing run and never waits. While others change the shared state as `rely` allows,
each of its actions does to it what `does` allows, and at the end `T` holds. -/
def Unaided (rely does : World η → World η → Prop) (T : α → World η → Prop) :
    Task η α → World η → Prop
  | .done a, w => T a w
  | .act env f next, w => ∀ x refs, rely w x →
      ∃ b v, f (x.during (env.references ++ refs)) = some (b, v) ∧ does x v ∧
        Unaided rely does T (next b) v
  | .execute .., _ => False
  | .native .., _ => False

variable {S T : α → World η → Prop} {t : Task η α}

theorem Unaided.imp (unaided : t.Unaided rely does S w) (implies : ∀ a u, S a u → T a u) :
    t.Unaided rely does T w := by
  induction t generalizing w with
  | done a => exact implies a w unaided
  | act env f next ih =>
    intro x refs change
    obtain ⟨b, v, ran, done, rest⟩ := unaided x refs change
    exact ⟨b, v, ran, done, ih b rest⟩
  | execute | native => exact unaided

theorem Unaided.bind {g : α → Task η β} {T : β → World η → Prop}
    (unaided : t.Unaided rely does (fun a u => (g a).Unaided rely does T u) w) :
    (t.bind g).Unaided rely does T w := by
  induction t generalizing w with
  | done a => exact unaided
  | act env f next ih =>
    intro x refs change
    obtain ⟨b, v, ran, done, rest⟩ := unaided x refs change
    exact ⟨b, v, ran, done, ih b rest⟩
  | execute | native => exact unaided.elim

/-- A run under any code ends, if others leave the state as it is. -/
theorem Unaided.exists_run (unaided : t.Unaided rely does T w) (refl : ∀ w, rely w w)
    (code : Code η) : ∃ a u, Runs code rely w t a u := by
  induction t generalizing w with
  | done a => exact ⟨a, w, .done w a⟩
  | act env f next ih =>
    obtain ⟨b, v, ran, -, rest⟩ := unaided w [] (refl w)
    obtain ⟨a, u, run⟩ := ih b rest
    exact ⟨a, u, .act [] (refl w) ran run⟩
  | execute | native => exact unaided.elim

theorem Unaided.of_run {code : Code η} {a : α} (unaided : t.Unaided rely does T w)
    (run : Runs code rely w t a u) : T a u := by
  induction run with
  | done => exact unaided
  | act refs change step _ ih =>
    obtain ⟨b, v, ran, -, rest⟩ := unaided _ refs change
    cases step.symm.trans ran
    exact ih rest
  | execute | native => exact unaided.elim

end Task

/-- What is left to do has nothing run either, from a state that others may have changed since. -/
theorem Activity.reaches_unaided {code : Code η} {T : α → World η → Prop} {t : Task η α}
    {s : Activity η α} (refl : ∀ w, rely w w)
    (trans : ∀ {w v u}, rely w v → rely v u → rely w u) (unaided : t.Unaided rely does T w)
    (reaches : Reaches code rely (w, .start t) (v, s)) :
    ∃ rest x, s = .start rest ∧ rely x v ∧ rest.Unaided rely does T x := by
  generalize last : (v, s) = y at reaches
  induction reaches generalizing v s with
  | refl =>
    cases last
    exact ⟨t, w, rfl, refl w, unaided⟩
  | @tail y z _ step ih =>
    obtain ⟨v', s'⟩ := y
    obtain ⟨rest, x, rfl, change, unaided⟩ := ih rfl
    cases last
    cases rest with
    | done a =>
      cases step with
      | others change' => exact ⟨_, x, rfl, trans change change', unaided⟩
    | act env f next =>
      cases step with
      | act refs step =>
        obtain ⟨b, u, ran, -, rest⟩ := unaided _ refs change
        cases step.symm.trans ran
        exact ⟨_, _, rfl, refl _, rest⟩
      | others change' => exact ⟨_, x, rfl, trans change change', unaided⟩
    | execute | native => exact unaided.elim

namespace Exec
variable {env d e : Env} {T : Except Failure α → Env → World η → Prop}

def Unaided (rely does : World η → World η → Prop) (w : World η) (env : Env) (x : Exec η α)
    (T : Except Failure α → Env → World η → Prop) : Prop :=
  (x.runIn env).Unaided rely does (fun r u => T r.1 r.2 u) w

/-- How all runs of a program go: no activation ever begins, a run ends, and `T` holds at each end. -/
structure EndsUnaided (code : Code η) (rely : World η → World η → Prop) (w : World η) (env : Env)
    (x : Exec η α) (T : Except Failure α → Env → World η → Prop) : Prop where
  inactive : ∀ v s, Activity.Reaches code rely (w, .start (x.runIn env)) (v, s) → s.active = []
  ends : ∃ r e u, Ends code rely w env x r e u
  each : ∀ r e u, Ends code rely w env x r e u → T r e u

theorem Unaided.ends {x : Exec η α} (unaided : Unaided rely does w env x T) (refl : ∀ w, rely w w)
    (trans : ∀ {w v u}, rely w v → rely v u → rely w u) (code : Code η) :
    EndsUnaided code rely w env x T where
  inactive v s reaches := by
    obtain ⟨rest, -, rfl, -, -⟩ := Activity.reaches_unaided refl trans unaided reaches
    rfl
  ends := by
    obtain ⟨⟨r, e⟩, u, run⟩ := Task.Unaided.exists_run unaided refl code
    exact ⟨r, e, u, run⟩
  each _ _ _ ended := by
    have holds := Task.Unaided.of_run unaided ended
    exact holds

theorem Unaided.weaken {S : Except Failure α → Env → World η → Prop} {x : Exec η α}
    (unaided : Unaided rely does w env x S) (implies : ∀ r e u, S r e u → T r e u) :
    Unaided rely does w env x T :=
  Task.Unaided.imp unaided fun r u => implies r.1 r.2 u

theorem unaided_conclude {r : Except Failure α} (holds : T r env w) :
    Unaided rely does w env (conclude r) T := holds

theorem unaided_pure {a : α} (holds : T (.ok a) env w) :
    Unaided rely does w env (pure a) T := holds

theorem unaided_bind {x : Exec η α} {g : α → Exec η β} {T : Except Failure β → Env → World η → Prop}
    (first : Unaided rely does w env x fun r d v =>
      match r with
      | .ok a => Unaided rely does v d (g a) T
      | .error f => T (.error f) d v) : Unaided rely does w env (x >>= g) T := by
  refine Task.Unaided.bind (Task.Unaided.imp first fun r u holds => ?_)
  obtain ⟨f | a, d⟩ := r
  · exact holds
  · exact holds

theorem unaided_get_bind {g : Env → Exec η β} {T : Except Failure β → Env → World η → Prop}
    (rest : Unaided rely does w env (g env) T) : Unaided rely does w env (get >>= g) T :=
  rest

theorem unaided_modify_bind {f : Env → Env} {g : PUnit → Exec η β}
    {T : Except Failure β → Env → World η → Prop} (rest : Unaided rely does w (f env) (g ()) T) :
    Unaided rely does w env (modify f >>= g) T :=
  rest

theorem unaided_onEnv {f : Env → Except Failure α × Env} (holds : T (f env).1 (f env).2 w) :
    Unaided rely does w env (onEnv f) T := holds

theorem unaided_outcome {x : Exec η α} {T : Except Failure (Except Failure α) → Env → World η → Prop}
    (unaided : Unaided rely does w env x fun r d v => T (.ok r) d v) :
    Unaided rely does w env (outcome x) T :=
  Task.Unaided.bind (Task.Unaided.imp unaided fun _ _ holds => holds)

theorem unaided_discard {x : Exec η α} {T : Except Failure PUnit → Env → World η → Prop}
    (unaided : Unaided rely does w env x fun r d v => T (r.map fun _ => ()) d v) :
    Unaided rely does w env (discard x) T := by
  refine Task.Unaided.bind (Task.Unaided.imp unaided fun r u holds => ?_)
  obtain ⟨f | a, d⟩ := r <;> exact holds

theorem unaided_keeping {refs : α → List ObjectId} {x : Exec η α}
    (unaided : Unaided rely does w env x fun r d v =>
      T r { d with held := outcomeObjects refs r ++ env.held } v) :
    Unaided rely does w env (keeping refs x) T := by
  refine unaided_get_bind (unaided_bind (unaided_outcome ?_))
  refine unaided.weaken fun r d v holds => ?_
  cases r <;> exact holds

theorem unaided_await {f : World η → Option (Except Failure α × World η)}
    (acts : ∀ y refs, rely w y → ∃ r v, f (y.during (env.references ++ refs)) = some (r, v) ∧
      does y v ∧ T r (env.hold (v.madeSince y.heap.objects.size)) v) :
    Unaided rely does w env (await f) T := by
  intro y refs change
  obtain ⟨r, v, ran, done, holds⟩ := acts y refs change
  exact ⟨(r, v.madeSince y.heap.objects.size), v, Option.map_eq_some_iff.mpr ⟨(r, v), ran, rfl⟩,
    done, holds⟩

theorem unaided_act {x : Atomic η α}
    (acts : ∀ y refs, rely w y → does y (x.runOn (y.during (env.references ++ refs))).2 ∧
      T (x.runOn (y.during (env.references ++ refs))).1
        (env.hold ((x.runOn (y.during (env.references ++ refs))).2.madeSince y.heap.objects.size))
        (x.runOn (y.during (env.references ++ refs))).2) :
    Unaided rely does w env (act x) T := by
  intro y refs change
  obtain ⟨done, holds⟩ := acts y refs change
  exact ⟨_, _, rfl, done, holds⟩

end Exec
end ManagedRuntime
