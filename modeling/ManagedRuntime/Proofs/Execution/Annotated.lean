import ManagedRuntime.Execution.Machine

/-!
Tasks with notes. A note marks a place in a task and does nothing there; without its notes an
annotated task is a task. Many threads run annotated tasks side by side over one shared state, and
who noted what is remembered. Main statement: whatever such threads do, their tasks without notes
do too.
-/
namespace ManagedRuntime

inductive Annotated (η ν α : Type) : Type 1 where
  | done (a : α)
  | note (n : ν) (next : Annotated η ν α)
  | act {β : Type} (env : Env) (f : World η → Option (β × World η)) (next : β → Annotated η ν α)
  | execute (m : Method) (args : List Value) (env : Env)
      (next : Except Failure (Option Value) × Env → Annotated η ν α)
  | native (f : NativeFunction) (call : NativeCall) (env : Env)
      (next : Except Failure Nat × Env → Annotated η ν α)

namespace Annotated
variable {η ν α β γ : Type}

def bind : Annotated η ν α → (α → Annotated η ν β) → Annotated η ν β
  | done a, g => g a
  | note n next, g => note n (next.bind g)
  | act env f next, g => act env f fun b => (next b).bind g
  | execute m args env next, g => execute m args env fun r => (next r).bind g
  | native f call env next, g => native f call env fun r => (next r).bind g

instance : Monad (Annotated η ν) where
  pure := done
  bind := bind

theorem bind_done (t : Annotated η ν α) : t.bind done = t := by
  induction t with
  | done a => rfl
  | note n next ih => rw [bind, ih]
  | act env f next ih | execute m args env next ih | native f call env next ih => simp [bind, ih]

theorem bind_assoc (t : Annotated η ν α) (g : α → Annotated η ν β) (k : β → Annotated η ν γ) :
    (t.bind g).bind k = t.bind fun a => (g a).bind k := by
  induction t with
  | done a => rfl
  | note n next ih => rw [bind, bind, bind, ih]
  | act env f next ih | execute m args env next ih | native f call env next ih => simp [bind, ih]

instance : LawfulMonad (Annotated η ν) :=
  LawfulMonad.mk' (Annotated η ν)
    (fun t => bind_done t)
    (fun _ _ => rfl)
    (fun t g k => bind_assoc t g k)

def plain : Annotated η ν α → Task η α
  | done a => .done a
  | note _ next => next.plain
  | act env f next => .act env f fun b => (next b).plain
  | execute m args env next => .execute m args env fun r => (next r).plain
  | native f call env next => .native f call env fun r => (next r).plain

def ofTask : Task η α → Annotated η ν α
  | .done a => done a
  | .act env f next => act env f fun b => ofTask (next b)
  | .execute m args env next => execute m args env fun r => ofTask (next r)
  | .native f call env next => native f call env fun r => ofTask (next r)

theorem plain_bind (t : Annotated η ν α) (g : α → Annotated η ν β) :
    (t.bind g).plain = t.plain.bind fun a => (g a).plain := by
  induction t with
  | done a => rfl
  | note n next ih => exact ih
  | act env f next ih | execute m args env next ih | native f call env next ih =>
    simp [bind, plain, Task.bind, ih]

theorem plain_ofTask (t : Task η α) : (ofTask t : Annotated η ν α).plain = t := by
  induction t with
  | done a => rfl
  | act env f next ih | execute m args env next ih | native f call env next ih =>
    simp [ofTask, plain, ih]

theorem ofTask_bind (t : Task η α) (g : α → Task η β) :
    (ofTask (t.bind g) : Annotated η ν β) = (ofTask t).bind fun a => ofTask (g a) := by
  induction t with
  | done a => rfl
  | act env f next ih | execute m args env next ih | native f call env next ih =>
    simp [ofTask, bind, Task.bind, ih]

end Annotated

abbrev Noting (η ν : Type) := ExceptT Failure (StateT Env (Annotated η ν))

namespace Noting
variable {η ν α β : Type}

def runIn (x : Noting η ν α) (env : Env) : Annotated η ν (Except Failure α × Env) := x.run.run env

def ofExec (x : Exec η α) : Noting η ν α := ExceptT.mk fun env => .ofTask (x.runIn env)

def note (n : ν) : Noting η ν Unit := ExceptT.mk fun env => .note n (.done (.ok (), env))

def outcome (x : Noting η ν α) : Noting η ν (Except Failure α) := ExceptT.mk (Except.ok <$> x.run)

def conclude (r : Except Failure α) : Noting η ν α := ExceptT.mk (pure r)

theorem ofExec_bind (x : Exec η α) (g : α → Exec η β) :
    (ofExec (x >>= g) : Noting η ν β) = ofExec x >>= fun a => ofExec (g a) := by
  funext env
  refine (Annotated.ofTask_bind (x.runIn env) _).trans (congrArg (Annotated.bind _) ?_)
  funext ⟨r, e⟩
  cases r <;> rfl

theorem ofExec_outcome (x : Exec η α) :
    (ofExec (Exec.outcome x) : Noting η ν _) = (ofExec x).outcome := by
  funext env
  exact Annotated.ofTask_bind (x.runIn env) _

def plain (x : Noting η ν α) : Exec η α := ExceptT.mk fun env => (x.runIn env).plain

theorem plain_ofExec (x : Exec η α) : (ofExec x : Noting η ν α).plain = x := by
  funext env
  exact Annotated.plain_ofTask _

theorem plain_conclude (r : Except Failure α) :
    (conclude r : Noting η ν α).plain = Exec.conclude r := rfl

theorem plain_bind (x : Noting η ν α) (g : α → Noting η ν β) :
    (x >>= g).plain = x.plain >>= fun a => (g a).plain := by
  funext env
  refine (Annotated.plain_bind (x.runIn env) _).trans (congrArg (Task.bind _) ?_)
  funext ⟨r, e⟩
  cases r <;> rfl

theorem runIn_outcome_bind (x : Noting η ν α) (g : Except Failure α → Noting η ν β) (env : Env) :
    (x.outcome >>= g).runIn env = (x.runIn env).bind fun q => (g q.1).runIn q.2 :=
  Annotated.bind_assoc (x.runIn env) _ _

theorem plain_outcome (x : Noting η ν α) : x.outcome.plain = Exec.outcome x.plain := by
  funext env
  exact Annotated.plain_bind (x.runIn env) _

theorem outcome_bind_conclude (x : Exec η α) : (Exec.outcome x >>= Exec.conclude) = x := by
  funext env
  refine (Task.bind_assoc (x.runIn env) _ _).trans ?_
  refine Eq.trans (congrArg (Task.bind _) ?_) (Task.bind_done _)
  funext ⟨r, e⟩
  rfl

theorem plain_discard (x : Noting η ν α) : (discard x).plain = discard x.plain := by
  funext env
  refine (Annotated.plain_bind (x.runIn env) _).trans (congrArg (Task.bind _) ?_)
  funext ⟨r, e⟩
  cases r <;> rfl

end Noting

/-! Threads side by side. -/

structure Moment (η ν : Type) where
  world : World η
  notes : List (ThreadId × ν)

namespace Moment
variable {η ν : Type}

def noted (σ : Moment η ν) (t : ThreadId) (n : ν) : Moment η ν :=
  { σ with notes := (t, n) :: σ.notes }

def inWorld (σ : Moment η ν) (w : World η) : Moment η ν := { σ with world := w }

end Moment

structure AnnotatedCode (η ν : Type) where
  execute : Method → List Value → Noting η ν (Option Value)
  native : NativeFunction → NativeCall → Noting η ν Nat

def AnnotatedCode.plain {η ν : Type} (code : AnnotatedCode η ν) : Code η where
  execute m args := (code.execute m args).plain
  native f call := (code.native f call).plain

/-- Threads under way: what has come of the shared state, and what each of them still has to do. -/
structure Pool (η ν : Type) : Type 1 where
  moment : Moment η ν
  tasks : ThreadId → Annotated η ν Unit

namespace Pool
variable {η ν : Type}

def goOn (p : Pool η ν) (t : ThreadId) (σ : Moment η ν) (next : Annotated η ν Unit) :
    Pool η ν where
  moment := σ
  tasks u := if u = t then next else p.tasks u

/-- One thread gets on. Where it may put a note is left open. -/
inductive Step (code : AnnotatedCode η ν) (meant : ThreadId → Moment η ν → ν → Prop)
    (t : ThreadId) (p : Pool η ν) : Pool η ν → Prop where
  | note {n : ν} {next : Annotated η ν Unit} (here : p.tasks t = .note n next)
      (means : meant t p.moment n) : Step code meant t p (p.goOn t (p.moment.noted t n) next)
  | act {β : Type} {env : Env} {f : World η → Option (β × World η)}
      {next : β → Annotated η ν Unit} {b : β} {w : World η} (refs : List ObjectId)
      (here : p.tasks t = .act env f next)
      (step : f (p.moment.world.during (env.references ++ refs)) = some (b, w)) :
      Step code meant t p (p.goOn t (p.moment.inWorld w) (next b))
  | execute {m : Method} {args : List Value} {env : Env}
      {next : Except Failure (Option Value) × Env → Annotated η ν Unit}
      (here : p.tasks t = .execute m args env next) :
      Step code meant t p (p.goOn t p.moment (((code.execute m args).runIn env).bind next))
  | native {f : NativeFunction} {call : NativeCall} {env : Env}
      {next : Except Failure Nat × Env → Annotated η ν Unit}
      (here : p.tasks t = .native f call env next) :
      Step code meant t p (p.goOn t p.moment (((code.native f call).runIn env).bind next))

inductive Run (code : AnnotatedCode η ν) (meant : ThreadId → Moment η ν → ν → Prop)
    (p : Pool η ν) : Pool η ν → Prop where
  | refl : Run code meant p p
  | step {q r : Pool η ν} {t : ThreadId} (run : Run code meant p q)
      (step : Step code meant t q r) : Run code meant p r

variable {code : AnnotatedCode η ν} {meant : ThreadId → Moment η ν → ν → Prop} {t : ThreadId}
  {p q : Pool η ν}

theorem goOn_same (σ : Moment η ν) (next : Annotated η ν Unit) : (p.goOn t σ next).tasks t = next := by
  simp [goOn]

theorem goOn_other {u : ThreadId} (σ : Moment η ν) (next : Annotated η ν Unit) (other : u ≠ t) :
    (p.goOn t σ next).tasks u = p.tasks u := by
  simp [goOn, other]

theorem forall_goOn {P : ThreadId → Annotated η ν Unit → Prop} {σ : Moment η ν}
    {next : Annotated η ν Unit} (own : P t next) (others : ∀ u, u ≠ t → P u (p.tasks u))
    (u : ThreadId) : P u ((p.goOn t σ next).tasks u) := by
  by_cases same : u = t
  · subst same
    rw [goOn_same]
    exact own
  · rw [goOn_other _ _ same]
    exact others u same

/-- Notes apart, the thread that gets on takes a step of its task, and the others stay. -/
theorem Step.plain (step : Step code meant t p q) :
    (∀ u, u ≠ t → q.tasks u = p.tasks u) ∧
      ((q.tasks t).plain = (p.tasks t).plain ∧ q.moment.world = p.moment.world ∨
        ∃ others, (p.tasks t).plain.step code.plain others p.moment.world =
          .stepped (q.tasks t).plain q.moment.world) := by
  cases step with
  | note here =>
    refine ⟨fun u other => goOn_other _ _ other, .inl ⟨?_, rfl⟩⟩
    rw [goOn_same, here, Annotated.plain]
  | act refs here step =>
    refine ⟨fun u other => goOn_other _ _ other, .inr ⟨refs, ?_⟩⟩
    rw [goOn_same, here, Annotated.plain, Task.step, step]
    rfl
  | execute here =>
    refine ⟨fun u other => goOn_other _ _ other, .inr ⟨[], ?_⟩⟩
    rw [goOn_same, here, Annotated.plain_bind]
    rfl
  | native here =>
    refine ⟨fun u other => goOn_other _ _ other, .inr ⟨[], ?_⟩⟩
    rw [goOn_same, here, Annotated.plain_bind]
    rfl

theorem Run.trans {r : Pool η ν} (first : Run code meant p q) (second : Run code meant q r) :
    Run code meant p r := by
  induction second with
  | refl => exact first
  | step _ step ih => exact .step ih step

/-! Runs that are computed. -/

section driven
variable (code meant) [∀ t σ n, Decidable (meant t σ n)]

def advance? (t : ThreadId) (p : Pool η ν) : Option (Pool η ν) :=
  match p.tasks t with
  | .done _ => none
  | .note n next =>
    if meant t p.moment n then some (p.goOn t (p.moment.noted t n) next) else none
  | .act env f next =>
    (f (p.moment.world.during env.references)).map fun r =>
      p.goOn t (p.moment.inWorld r.2) (next r.1)
  | .execute m args env next =>
    some (p.goOn t p.moment (((code.execute m args).runIn env).bind next))
  | .native f call env next =>
    some (p.goOn t p.moment (((code.native f call).runIn env).bind next))

def drive : List ThreadId → Pool η ν → Option (Pool η ν)
  | [], p => some p
  | t :: ts, p => (p.advance? code meant t).bind (drive ts)

variable {code meant}

theorem step_of_advance (advanced : p.advance? code meant t = some q) : Step code meant t p q := by
  unfold advance? at advanced
  split at advanced
  · cases advanced
  · rename_i here
    split at advanced
    · rename_i means
      cases advanced
      exact .note here means
    · cases advanced
  · rename_i here
    obtain ⟨⟨b, w⟩, step, same⟩ := Option.map_eq_some_iff.mp advanced
    cases same
    rw [← List.append_nil (Env.references _)] at step
    exact .act [] here step
  · rename_i here
    cases advanced
    exact .execute here
  · rename_i here
    cases advanced
    exact .native here

theorem run_of_drive {ts : List ThreadId} (driven : p.drive code meant ts = some q) :
    Run code meant p q := by
  induction ts generalizing p with
  | nil =>
    cases driven
    exact .refl
  | cons t ts ih =>
    obtain ⟨r, advanced, rest⟩ := Option.bind_eq_some_iff.mp driven
    exact (Run.refl.step (step_of_advance advanced)).trans (ih rest)

end driven

end Pool
end ManagedRuntime
