import ManagedRuntime.Proofs.Execution.Runs
import Mathlib.Logic.Relation

/-!
Tasks with the activations they run in. An activation is a method whose code has begun and has not
ended; the one begun last is the one under way, the others wait for it. Main statements: what is
done with activations in view is what the task does without them, and every run of a task is such a
run, with no activation left at its end.
-/
namespace ManagedRuntime
variable {η α β : Type}

inductive Callers (η α : Type) : Type → Type 1 where
  | root : Callers η α α
  | call {β γ : Type} (m : Method) (next : γ → Task η β) (outer : Callers η α β) : Callers η α γ

namespace Callers

def active : {β : Type} → Callers η α β → List Method
  | _, root => []
  | _, call m _ outer => m :: outer.active

def resume : {β : Type} → Callers η α β → β → Task η α
  | _, root, a => .done a
  | _, call _ next outer, r => (next r).bind outer.resume

end Callers

/-- A task in the midst of its activations: the code under way, and what waits for it. -/
structure Activity (η α : Type) : Type 1 where
  {β : Type}
  now : Task η β
  callers : Callers η α β

namespace Activity

def start (t : Task η α) : Activity η α := ⟨t, .root⟩

def active (s : Activity η α) : List Method := s.callers.active

def whole (s : Activity η α) : Task η α := s.now.bind s.callers.resume

variable {code : Code η} {rely : World η → World η → Prop} {w v u : World η}
  {s t : Activity η α}

inductive Step (code : Code η) (rely : World η → World η → Prop) :
    World η × Activity η α → World η × Activity η α → Prop where
  | act {w v : World η} {β γ : Type} {env : Env} {f : World η → Option (γ × World η)}
      {next : γ → Task η β} {outer : Callers η α β} {b : γ} (refs : List ObjectId)
      (ran : f (w.during (env.references ++ refs)) = some (b, v)) :
      Step code rely (w, ⟨.act env f next, outer⟩) (v, ⟨next b, outer⟩)
  | execute {w : World η} {β : Type} {m : Method} {args : List Value} {env : Env}
      {next : Except Failure (Option Value) × Env → Task η β} {outer : Callers η α β} :
      Step code rely (w, ⟨.execute m args env next, outer⟩)
        (w, ⟨(code.execute m args).runIn env, .call m next outer⟩)
  | native {w : World η} {β : Type} {f : NativeFunction} {call : NativeCall} {env : Env}
      {next : Except Failure Nat × Env → Task η β} {outer : Callers η α β} :
      Step code rely (w, ⟨.native f call env next, outer⟩)
        (w, ⟨(code.native f call).runIn env, .call call.method next outer⟩)
  | back {w : World η} {β γ : Type} {m : Method} {next : γ → Task η β} {outer : Callers η α β}
      (r : γ) : Step code rely (w, ⟨.done r, .call m next outer⟩) (w, ⟨next r, outer⟩)
  | others {w x : World η} {s : Activity η α} (change : rely w x) : Step code rely (w, s) (x, s)

/-- A step is a step of the whole task, or one that the task does not see. -/
theorem Step.whole (step : Step code rely (w, s) (v, t)) :
    (∃ refs, s.whole.step code refs w = .stepped t.whole v) ∨
      t.whole = s.whole ∧ (v = w ∨ rely w v) := by
  cases step with
  | act refs ran =>
    left
    refine ⟨refs, ?_⟩
    unfold Activity.whole
    rw [Task.bind, Task.step, ran]
  | execute | native => exact .inl ⟨[], rfl⟩
  | back r => exact .inr ⟨rfl, .inl rfl⟩
  | others change => exact .inr ⟨rfl, .inr change⟩

abbrev Reaches (code : Code η) (rely : World η → World η → Prop)
    (x y : World η × Activity η α) : Prop :=
  Relation.ReflTransGen (Step code rely) x y

inductive Settled : Activity η α → Prop where
  | done (a : α) : Settled ⟨.done a, .root⟩
  | act {β γ : Type} (env : Env) (f : World η → Option (γ × World η)) (next : γ → Task η β)
      (outer : Callers η α β) : Settled ⟨.act env f next, outer⟩
  | execute {β : Type} (m : Method) (args : List Value) (env : Env)
      (next : Except Failure (Option Value) × Env → Task η β) (outer : Callers η α β) :
      Settled ⟨.execute m args env next, outer⟩
  | native {β : Type} (f : NativeFunction) (call : NativeCall) (env : Env)
      (next : Except Failure Nat × Env → Task η β) (outer : Callers η α β) :
      Settled ⟨.native f call env next, outer⟩

/-- Activations whose code is done end one after the other. -/
theorem settle (w : World η) (s : Activity η α) :
    ∃ t, Reaches code rely (w, s) (w, t) ∧ t.whole = s.whole ∧ t.Settled := by
  obtain ⟨now, callers⟩ := s
  induction callers with
  | root =>
    refine ⟨_, Relation.ReflTransGen.refl, rfl, ?_⟩
    cases now <;> constructor
  | call m next outer ih =>
    cases now with
    | done r =>
      obtain ⟨t, reaches, whole, settled⟩ := ih (next r)
      exact ⟨t, Relation.ReflTransGen.head (.back r) reaches, whole, settled⟩
    | act | execute | native => exact ⟨_, Relation.ReflTransGen.refl, rfl, by constructor⟩

/-- A run of the whole is a run with all activations in view. -/
theorem reaches_of_runs {r : Task η α} {a : α} (run : Task.Runs code rely w r a u)
    (whole : s.whole = r) : Reaches code rely (w, s) (u, ⟨.done a, .root⟩) := by
  induction run generalizing s with
  | done w a =>
    obtain ⟨t, reaches, same, settled⟩ := settle w s
    rw [whole] at same
    cases settled with
    | done b =>
      cases same
      exact reaches
    | act | execute | native => cases same
  | act refs change step rest ih =>
    obtain ⟨t, reaches, same, settled⟩ := settle _ s
    rw [whole] at same
    cases settled with
    | act env f next outer =>
      cases same
      exact ((reaches.tail (.others change)).tail (.act refs step)).trans (ih rfl)
    | done | execute | native => cases same
  | execute rest ih =>
    obtain ⟨t, reaches, same, settled⟩ := settle _ s
    rw [whole] at same
    cases settled with
    | execute m args env next outer =>
      cases same
      exact (reaches.tail .execute).trans (ih rfl)
    | done | act | native => cases same
  | native rest ih =>
    obtain ⟨t, reaches, same, settled⟩ := settle _ s
    rw [whole] at same
    cases settled with
    | native f call env next outer =>
      cases same
      exact (reaches.tail .native).trans (ih rfl)
    | done | act | execute => cases same

end Activity
end ManagedRuntime
