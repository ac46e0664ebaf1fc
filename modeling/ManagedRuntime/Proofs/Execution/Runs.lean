import ManagedRuntime.Execution.Machine

/-!
Runs of tasks and of programs. A run goes from one shared state to another. Before each of its
actions other threads may change the shared state, as far as `rely` allows. Main statements: a run
of a sequence is a run of its first part and then one of the rest, and what the machine does with
its main task is a run.
-/
namespace ManagedRuntime

namespace Task
variable {η α β : Type} {code : Code η} {rely : World η → World η → Prop} {w v u : World η}

/-- The task ends with this result, in the second of the two shared states. -/
inductive Runs (code : Code η) (rely : World η → World η → Prop) {α : Type} :
    World η → Task η α → α → World η → Prop where
  | done (w : World η) (a : α) : Runs code rely w (.done a) a w
  | act {w x v u : World η} {β : Type} {env : Env} {f : World η → Option (β × World η)}
      {next : β → Task η α} {b : β} {a : α} (refs : List ObjectId) (change : rely w x)
      (step : f (x.during (env.references ++ refs)) = some (b, v))
      (rest : Runs code rely v (next b) a u) : Runs code rely w (.act env f next) a u
  | execute {w u : World η} {m : Method} {args : List Value} {env : Env}
      {next : Except Failure (Option Value) × Env → Task η α} {a : α}
      (rest : Runs code rely w (((code.execute m args).runIn env).bind next) a u) :
      Runs code rely w (.execute m args env next) a u
  | native {w u : World η} {f : NativeFunction} {call : NativeCall} {env : Env}
      {next : Except Failure Nat × Env → Task η α} {a : α}
      (rest : Runs code rely w (((code.native f call).runIn env).bind next) a u) :
      Runs code rely w (.native f call env next) a u

theorem runs_done_iff {a b : α} : Runs code rely w (.done a) b u ↔ b = a ∧ u = w := by
  constructor
  · intro run
    cases run with
    | done => exact ⟨rfl, rfl⟩
  · rintro ⟨rfl, rfl⟩
    exact .done _ _

theorem runs_act_iff {env : Env} {f : World η → Option (β × World η)} {next : β → Task η α}
    {a : α} :
    Runs code rely w (.act env f next) a u ↔
      ∃ x refs b v, rely w x ∧ f (x.during (env.references ++ refs)) = some (b, v) ∧
        Runs code rely v (next b) a u := by
  constructor
  · intro run
    cases run with
    | act refs change step rest => exact ⟨_, refs, _, _, change, step, rest⟩
  · rintro ⟨x, refs, b, v, change, step, rest⟩
    exact .act refs change step rest

theorem runs_execute_iff {m : Method} {args : List Value} {env : Env}
    {next : Except Failure (Option Value) × Env → Task η α} {a : α} :
    Runs code rely w (.execute m args env next) a u ↔
      Runs code rely w (((code.execute m args).runIn env).bind next) a u := by
  constructor
  · intro run
    cases run with
    | execute rest => exact rest
  · exact .execute

theorem runs_native_iff {f : NativeFunction} {call : NativeCall} {env : Env}
    {next : Except Failure Nat × Env → Task η α} {a : α} :
    Runs code rely w (.native f call env next) a u ↔
      Runs code rely w (((code.native f call).runIn env).bind next) a u := by
  constructor
  · intro run
    cases run with
    | native rest => exact rest
  · exact .native

theorem Runs.bind {t : Task η α} {g : α → Task η β} {a : α} {b : β}
    (first : Runs code rely w t a v) (rest : Runs code rely v (g a) b u) :
    Runs code rely w (t.bind g) b u := by
  induction first with
  | done => exact rest
  | act refs change step _ ih => exact .act refs change step (ih rest)
  | execute _ ih =>
    refine .execute ?_
    rw [← bind_assoc]
    exact ih rest
  | native _ ih =>
    refine .native ?_
    rw [← bind_assoc]
    exact ih rest

theorem runs_bind_iff {t : Task η α} {g : α → Task η β} {b : β} :
    Runs code rely w (t.bind g) b u ↔
      ∃ a v, Runs code rely w t a v ∧ Runs code rely v (g a) b u := by
  constructor
  · intro run
    generalize same : t.bind g = s at run
    -- The sequence splits at the same place after every step, unless its first part is done.
    induction run generalizing t with
    | done w b =>
      cases t with
      | done a => exact ⟨a, w, .done w a, (show g a = _ from same) ▸ .done w b⟩
      | act | execute | native => cases same
    | act refs change step rest ih =>
      cases t with
      | done a => exact ⟨a, _, .done _ a, (show g a = _ from same) ▸ .act refs change step rest⟩
      | act env f next =>
        cases same
        obtain ⟨a, v, first, rest⟩ := ih rfl
        exact ⟨a, v, .act refs change step first, rest⟩
      | execute | native => cases same
    | execute rest ih =>
      cases t with
      | done a => exact ⟨a, _, .done _ a, (show g a = _ from same) ▸ .execute rest⟩
      | execute m args env next =>
        cases same
        obtain ⟨a, v, first, rest⟩ := ih (bind_assoc _ _ _)
        exact ⟨a, v, .execute first, rest⟩
      | act | native => cases same
    | native rest ih =>
      cases t with
      | done a => exact ⟨a, _, .done _ a, (show g a = _ from same) ▸ .native rest⟩
      | native f call env next =>
        cases same
        obtain ⟨a, v, first, rest⟩ := ih (bind_assoc _ _ _)
        exact ⟨a, v, .native first, rest⟩
      | act | execute => cases same
  · rintro ⟨a, v, first, rest⟩
    exact first.bind rest

end Task

/-- What the machine does with its main task is a run, with any change by other threads allowed. -/
theorem Machine.runs_of_run {η α : Type} {code : Code η} {start : ThreadStart → Task η Unit}
    {fuel : Nat} {main : Task η α} {m n : Machine η} {a : α}
    (ended : Machine.run code start fuel main m = some (a, n)) :
    Task.Runs code (fun _ _ => True) m.world main a n.world := by
  induction fuel generalizing main m with
  | zero => cases ended
  | succ fuel ih =>
    cases main with
    | done b =>
      cases ended
      exact .done _ _
    | execute => exact .execute (ih ended)
    | native => exact .native (ih ended)
    | act env f next =>
      -- Where the task is blocked, the run goes on from a state that other threads have made.
      have elsewhere {w : World η}
          (run : Task.Runs code (fun _ _ => True) w (.act env f next) a n.world) :
          Task.Runs code (fun _ _ => True) m.world (.act env f next) a n.world := by
        obtain ⟨x, refs, b, v, -, step, rest⟩ := Task.runs_act_iff.mp run
        exact .act refs trivial step rest
      simp only [Machine.run, Task.step] at ended
      cases found : f (m.world.during (env.references ++
          m.background.flatMap Task.references)) with
      | some r =>
        rw [found] at ended
        exact .act _ trivial found (ih ended)
      | none =>
        rw [found] at ended
        simp only at ended
        split at ended
        · exact elsewhere (ih ended)
        · split at ended
          · cases ended
          · exact elsewhere (ih ended)

/-- Runs a task to its end while no other thread does anything; none if the fuel does not suffice or
the task is blocked. -/
def Task.runAlone {η α : Type} (code : Code η) : Nat → World η → Task η α → Option (α × World η)
  | 0, _, _ => none
  | fuel + 1, w, t =>
    match t.step code [] w with
    | .finished a => some (a, w)
    | .blocked => none
    | .stepped t' w' => runAlone code fuel w' t'

theorem Task.runs_of_runAlone {η α : Type} {code : Code η} {rely : World η → World η → Prop}
    (refl : ∀ w, rely w w) {fuel : Nat} {w u : World η} {t : Task η α} {a : α}
    (ended : t.runAlone code fuel w = some (a, u)) : Runs code rely w t a u := by
  induction fuel generalizing w t with
  | zero => cases ended
  | succ fuel ih =>
    cases t with
    | done b =>
      cases ended
      exact .done _ _
    | execute => exact .execute (ih ended)
    | native => exact .native (ih ended)
    | act env f next =>
      simp only [runAlone, step] at ended
      cases found : f (w.during (env.references ++ [])) with
      | none =>
        rw [found] at ended
        cases ended
      | some r =>
        rw [found] at ended
        exact .act [] (refl w) found (ih ended)

namespace Exec
variable {η α β : Type} {code : Code η} {rely : World η → World η → Prop} {w u : World η}
  {env e : Env}

def Ends (code : Code η) (rely : World η → World η → Prop) (w : World η) (env : Env)
    (x : Exec η α) (r : Except Failure α) (e : Env) (u : World η) : Prop :=
  Task.Runs code rely w (x.runIn env) (r, e) u

/-- What a program comes to by itself it can come to beside threads that may leave the state alone. -/
theorem exists_ends_of_runAlone {x : Exec η α} {fuel : Nat} {r : Except Failure α}
    (refl : ∀ w, rely w w) (ended : ((x.runIn env).runAlone code fuel w).map (·.1.1) = some r) :
    ∃ e u, Ends code rely w env x r e u := by
  obtain ⟨⟨⟨r, e⟩, u⟩, run, same⟩ := Option.map_eq_some_iff.mp ended
  cases same
  exact ⟨e, u, Task.runs_of_runAlone refl run⟩

theorem ends_conclude {q r : Except Failure α} :
    Ends code rely w env (conclude q) r e u ↔ r = q ∧ e = env ∧ u = w := by
  rw [Ends, show (conclude q).runIn env = .done (q, env) from rfl, Task.runs_done_iff,
    Prod.mk.injEq, and_assoc]

theorem ends_pure {a : α} {r : Except Failure α} :
    Ends code rely w env (pure a) r e u ↔ r = .ok a ∧ e = env ∧ u = w :=
  ends_conclude (q := .ok a)

theorem ends_throw {f : Failure} {r : Except Failure α} :
    Ends code rely w env (throw f) r e u ↔ r = .error f ∧ e = env ∧ u = w :=
  ends_conclude (q := .error f)

theorem ends_onEnv {f : Env → Except Failure α × Env} {r : Except Failure α} :
    Ends code rely w env (onEnv f) r e u ↔ (r, e) = f env ∧ u = w := by
  rw [Ends, show (onEnv f).runIn env = .done (f env) from rfl, Task.runs_done_iff]

theorem ends_modify {f : Env → Env} {r : Except Failure PUnit} :
    Ends code rely w env (modify f) r e u ↔ r = .ok () ∧ e = f env ∧ u = w := by
  rw [Ends, show (modify f : Exec η PUnit).runIn env = .done (.ok (), f env) from rfl,
    Task.runs_done_iff, Prod.mk.injEq, and_assoc]

theorem ends_await {f : World η → Option (Except Failure α × World η)} {r : Except Failure α} :
    Ends code rely w env (await f) r e u ↔
      ∃ x refs, rely w x ∧ f (x.during (env.references ++ refs)) = some (r, u) ∧
        e = env.hold (u.madeSince x.heap.objects.size) := by
  unfold Ends
  rw [show (await f).runIn env = .act env
      (fun w => (f w).map fun r => ((r.1, r.2.madeSince w.heap.objects.size), r.2))
      (fun r => .done (r.1, env.hold r.2)) from rfl, Task.runs_act_iff]
  constructor
  · rintro ⟨x, refs, _, _, change, step, rest⟩
    obtain ⟨⟨q, v⟩, found, same⟩ := Option.map_eq_some_iff.mp step
    cases same
    obtain ⟨result, rfl⟩ := Task.runs_done_iff.mp rest
    cases result
    exact ⟨x, refs, change, found, rfl⟩
  · rintro ⟨x, refs, change, step, rfl⟩
    refine ⟨x, refs, (r, u.madeSince x.heap.objects.size), u, change, ?_, .done _ _⟩
    rw [step]
    rfl

theorem ends_act {x : Atomic η α} {r : Except Failure α} :
    Ends code rely w env (act x) r e u ↔
      ∃ y refs, rely w y ∧ x.runOn (y.during (env.references ++ refs)) = (r, u) ∧
        e = env.hold (u.madeSince y.heap.objects.size) := by
  simp only [act, ends_await, Option.some.injEq]

theorem ends_native {f : NativeFunction} {call : NativeCall} {r : Except Failure Nat} :
    Ends code rely w env (native f call) r e u ↔
      Ends code rely w env (code.native f call) r e u := by
  rw [Ends, show (native f call : Exec η _).runIn env = .native f call env .done from rfl,
    Task.runs_native_iff, Task.bind_done, Ends]

theorem ends_bind {x : Exec η α} {g : α → Exec η β} {r : Except Failure β} :
    Ends code rely w env (x >>= g) r e u ↔
      (∃ f, Ends code rely w env x (.error f) e u ∧ r = .error f) ∨
        ∃ a d v, Ends code rely w env x (.ok a) d v ∧ Ends code rely v d (g a) r e u := by
  unfold Ends
  have sequence : (x >>= g).runIn env = (x.runIn env).bind _ := rfl
  rw [sequence, Task.runs_bind_iff]
  constructor
  · rintro ⟨⟨f | a, d⟩, v, first, rest⟩
    · obtain ⟨same, rfl⟩ := Task.runs_done_iff.mp rest
      cases same
      exact .inl ⟨f, first, rfl⟩
    · exact .inr ⟨a, d, v, first, rest⟩
  · rintro (⟨f, first, rfl⟩ | ⟨a, d, v, first, rest⟩)
    · exact ⟨(.error f, e), u, first, .done _ _⟩
    · exact ⟨(.ok a, d), v, first, rest⟩

theorem Ends.bind_ok {x : Exec η α} {g : α → Exec η β} {b : β}
    (ends : Ends code rely w env (x >>= g) (.ok b) e u) :
    ∃ a d v, Ends code rely w env x (.ok a) d v ∧ Ends code rely v d (g a) (.ok b) e u := by
  rcases ends_bind.mp ends with ⟨f, -, same⟩ | both
  · cases same
  · exact both

theorem ends_outcome {x : Exec η α} {r : Except Failure (Except Failure α)} :
    Ends code rely w env (outcome x) r e u ↔ ∃ q, r = .ok q ∧ Ends code rely w env x q e u := by
  unfold Ends
  rw [show (outcome x).runIn env = (x.runIn env).bind fun q => .done (.ok q.1, q.2) from rfl,
    Task.runs_bind_iff]
  constructor
  · rintro ⟨⟨q, d⟩, v, first, rest⟩
    obtain ⟨same, rfl⟩ := Task.runs_done_iff.mp rest
    cases same
    exact ⟨q, rfl, first⟩
  · rintro ⟨q, rfl, first⟩
    exact ⟨(q, e), u, first, .done _ _⟩

end Exec
end ManagedRuntime
