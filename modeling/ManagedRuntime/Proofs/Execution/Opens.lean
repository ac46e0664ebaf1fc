import ManagedRuntime.Proofs.Execution.Unaided

/-!
Programs that have one body run. Such a program acts on the shared state by itself, then asks for the
body of a method, and after that it has nothing more run. Main statement: whatever code there is, the
program does come to that body, it comes to no other, and what its runs end with follows from what
the body ended with.
-/
namespace ManagedRuntime
variable {η α β : Type} {rely does : World η → World η → Prop} {w v u x : World η} {m : Method}
  {args : List Value} {V : World η → Prop}

abbrev BodyOutcome := Except Failure (Option Value)

namespace Task

/-- The task acts by itself, as `does` allows, until it asks for the body of `m` with these arguments,
in a state with `V`. After that it has nothing run, and ends with what `K` allows for the outcome of
the body. -/
def Opens (rely does : World η → World η → Prop) (m : Method) (args : List Value)
    (V : World η → Prop) (K : BodyOutcome → α → Prop) : Task η α → World η → Prop
  | .done _, _ => False
  | .act env f next, w => ∀ x refs, rely w x →
      ∃ b v, f (x.during (env.references ++ refs)) = some (b, v) ∧ does x v ∧
        Opens rely does m args V K (next b) v
  | .execute m' args' _ next, w => m' = m ∧ args' = args ∧ V w ∧
      ∀ r x, (next r).Unaided rely (fun _ _ => True) (fun a _ => K r.1 a) x
  | .native .., _ => False

variable {K : BodyOutcome → α → Prop} {t : Task η α}

theorem Unaided.opens_bind {g : α → Task η β} {K : BodyOutcome → β → Prop}
    (unaided : t.Unaided rely does (fun a u => (g a).Opens rely does m args V K u) w) :
    (t.bind g).Opens rely does m args V K w := by
  induction t generalizing w with
  | done a => exact unaided
  | act env f next ih =>
    intro x refs change
    obtain ⟨b, v, ran, done, rest⟩ := unaided x refs change
    exact ⟨b, v, ran, done, ih b rest⟩
  | execute | native => exact unaided.elim

theorem Opens.bind {g : α → Task η β} {K' : BodyOutcome → β → Prop}
    (opens : t.Opens rely does m args V K w)
    (rest : ∀ q a x, K q a → (g a).Unaided rely (fun _ _ => True) (fun b _ => K' q b) x) :
    (t.bind g).Opens rely does m args V K' w := by
  induction t generalizing w with
  | done a => exact opens.elim
  | act env f next ih =>
    intro x refs change
    obtain ⟨b, v, ran, done, opens⟩ := opens x refs change
    exact ⟨b, v, ran, done, ih b opens⟩
  | execute m' args' env next ih =>
    obtain ⟨rfl, rfl, holds, unaided⟩ := opens
    exact ⟨rfl, rfl, holds, fun r x => .bind ((unaided r x).imp fun a u => rest r.1 a u)⟩
  | native => exact opens.elim

/-- A run goes through the body. -/
theorem Opens.of_run {code : Code η} {a : α} (opens : t.Opens rely does m args V K w)
    (run : Runs code rely w t a u) :
    ∃ v d q e x, V v ∧ Runs code rely v ((code.execute m args).runIn d) (q, e) x ∧ K q a := by
  induction run with
  | done => exact opens.elim
  | act refs change step _ ih =>
    obtain ⟨b, v, ran, -, rest⟩ := opens _ refs change
    cases step.symm.trans ran
    exact ih rest
  | execute rest =>
    obtain ⟨rfl, rfl, holds, unaided⟩ := opens
    obtain ⟨⟨q, e⟩, x, first, last⟩ := runs_bind_iff.mp rest
    exact ⟨_, _, q, e, x, holds, first, (unaided (q, e) x).of_run last⟩
  | native => exact opens.elim

end Task

/-! Activations. -/

def Callers.Awaits (U : Task η α → Prop) : {γ : Type} → Callers η α γ → Prop
  | _, .root => False
  | _, .call _ next .root => ∀ r, U (next r)
  | _, .call _ _ (.call m next outer) => (Callers.call m next outer).Awaits U

namespace Activity
variable {code : Code η} {K : BodyOutcome → α → Prop} {t : Task η α} {s : Activity η α}

def Quits (rely : World η → World η → Prop) (t : Task η α) : Prop :=
  ∀ x, t.Unaided rely (fun _ _ => True) (fun _ _ => True) x

inductive After (rely : World η → World η → Prop) : World η × Activity η α → Prop
  | inside {v : World η} {s : Activity η α} (awaits : s.callers.Awaits (Quits rely)) :
      After rely (v, s)
  | behind {x v : World η} {rest : Task η α} (change : rely x v)
      (unaided : rest.Unaided rely (fun _ _ => True) (fun _ _ => True) x) :
      After rely (v, .start rest)

section
variable (refl : ∀ w, rely w w) (trans : ∀ {w v u}, rely w v → rely v u → rely w u)
include refl trans

theorem After.step {y z : World η × Activity η α} (after : After rely y)
    (step : Step code rely y z) : After rely z := by
  cases after with
  | @inside v s awaits =>
    cases step with
    | act => exact .inside awaits
    | @execute _ _ _ _ _ _ outer =>
      cases outer with
      | root => exact awaits.elim
      | call => exact .inside awaits
    | @native _ _ _ _ _ _ outer =>
      cases outer with
      | root => exact awaits.elim
      | call => exact .inside awaits
    | @back _ _ _ m next outer r =>
      cases outer with
      | root => exact .behind (refl v) (awaits r v)
      | call => exact .inside awaits
    | others => exact .inside awaits
  | @behind x v rest change unaided =>
    cases rest with
    | done a =>
      cases step with
      | others change' => exact .behind (trans change change') unaided
    | act env f next =>
      cases step with
      | act refs ran =>
        obtain ⟨b, u, found, -, unaided⟩ := unaided _ refs change
        cases ran.symm.trans found
        exact .behind (refl _) unaided
      | others change' => exact .behind (trans change change') unaided
    | execute | native => exact unaided.elim

theorem After.reaches {y z : World η × Activity η α} (after : After rely y)
    (reaches : Reaches code rely y z) : After rely z := by
  induction reaches with
  | refl => exact after
  | tail _ step ih => exact ih.step refl trans step

omit refl trans in
theorem After.not_entering {v : World η} {env : Env}
    {next : BodyOutcome × Env → Task η α}
    (after : After rely (v, (⟨.execute m args env next, .root⟩ : Activity η α))) : False := by
  cases after with
  | inside awaits => exact awaits
  | behind _ unaided => exact unaided

/-- Until the body is entered, it is what the rest of the task opens with. -/
theorem before_or_after {y : World η × Activity η α} (opens : t.Opens rely does m args V K w)
    (reaches : Reaches code rely (w, .start t) y) :
    (∃ x v rest, y = (v, .start rest) ∧ rely x v ∧ rest.Opens rely does m args V K x) ∨
      After rely y := by
  induction reaches with
  | refl => exact .inl ⟨w, w, t, rfl, refl w, opens⟩
  | tail _ step ih =>
    rcases ih with ⟨x, v, rest, rfl, change, opens⟩ | after
    · cases rest with
      | done a => exact opens.elim
      | act env f next =>
        cases step with
        | act refs ran =>
          obtain ⟨b, u, found, -, opens⟩ := opens _ refs change
          cases ran.symm.trans found
          exact .inl ⟨_, _, _, rfl, refl _, opens⟩
        | others change' => exact .inl ⟨x, _, _, rfl, trans change change', opens⟩
      | execute m' args' env next =>
        cases step with
        | execute =>
          obtain ⟨rfl, rfl, -, unaided⟩ := opens
          exact .inr (.inside fun r x => (unaided r x).imp fun _ _ _ => trivial)
        | others change' => exact .inl ⟨x, _, _, rfl, trans change change', opens⟩
      | native => exact opens.elim
    · exact .inr (after.step refl trans step)

end

def Enters (code : Code η) (rely : World η → World η → Prop) (w : World η) (t : Task η α)
    (m : Method) (args : List Value) (v : World η) : Prop :=
  ∃ env next, Reaches code rely (w, .start t) (v, ⟨.execute m args env next, .root⟩)

/-- How a task goes that enters one body once: it comes to that body in a state with `V` and to no
other, it asks for no body any more when it has entered, and it ends as `K` says. -/
structure EntersOnce (code : Code η) (rely : World η → World η → Prop) (w : World η)
    (t : Task η α) (m : Method) (args : List Value) (V : World η → Prop)
    (K : BodyOutcome → α → Prop) : Prop where
  enters : ∃ v, Enters code rely w t m args v
  only : ∀ m' args' v, Enters code rely w t m' args' v →
    m' = m ∧ args' = args ∧ ∃ x, rely x v ∧ V x
  once : ∀ v env next, Reaches code rely (w, .start t) (v, ⟨.execute m args env next, .root⟩) →
    ∀ u m' args' env' next', ¬ Reaches code rely
      (v, ⟨(code.execute m args).runIn env, .call m next .root⟩)
      (u, ⟨.execute m' args' env' next', .root⟩)
  outcome : ∀ a u, Task.Runs code rely w t a u → ∃ v d q e x, V v ∧
    Task.Runs code rely v ((code.execute m args).runIn d) (q, e) x ∧ K q a

theorem entersOnce_of_opens (refl : ∀ w, rely w w)
    (trans : ∀ {w v u}, rely w v → rely v u → rely w u)
    (opens : t.Opens rely does m args V K w) : EntersOnce code rely w t m args V K where
  enters := by
    induction t generalizing w with
    | done a => exact opens.elim
    | act env f next ih =>
      obtain ⟨b, v, ran, -, rest⟩ := opens w [] (refl w)
      obtain ⟨u, env', next', reaches⟩ := ih b rest
      exact ⟨u, env', next', .head (.act [] ran) reaches⟩
    | execute m' args' env next =>
      obtain ⟨rfl, rfl, -⟩ := opens
      exact ⟨w, env, next, .refl⟩
    | native => exact opens.elim
  only m' args' v enters := by
    obtain ⟨env, next, reaches⟩ := enters
    rcases before_or_after refl trans opens reaches with ⟨x, _, rest, same, change, opens⟩ | after
    · cases same
      obtain ⟨rfl, rfl, holds, -⟩ := opens
      exact ⟨rfl, rfl, x, change, holds⟩
    · exact after.not_entering.elim
  once v env next reaches u m' args' env' next' again := by
    have entered := reaches.tail (.execute)
    rcases before_or_after refl trans opens entered with ⟨_, _, _, same, -⟩ | after
    · cases same
    · exact (after.reaches refl trans again).not_entering
  outcome _ _ run := opens.of_run run

end Activity

/-! Programs. -/

namespace Exec
variable {env : Env} {K : BodyOutcome → Except Failure α → Prop}

def Opens (rely does : World η → World η → Prop) (w : World η) (env : Env) (x : Exec η α)
    (m : Method) (args : List Value) (V : World η → Prop)
    (K : BodyOutcome → Except Failure α → Prop) : Prop :=
  (x.runIn env).Opens rely does m args V (fun q r => K q r.1) w

theorem Unaided.opens_bind {x : Exec η α} {g : α → Exec η β}
    {K : BodyOutcome → Except Failure β → Prop}
    (unaided : Unaided rely does w env x fun r d v =>
      ∃ a, r = .ok a ∧ Opens rely does v d (g a) m args V K) :
    Opens rely does w env (x >>= g) m args V K := by
  refine Task.Unaided.opens_bind (Task.Unaided.imp unaided fun r u holds => ?_)
  obtain ⟨f | a, d⟩ := r
  · obtain ⟨_, same, _⟩ := holds
    cases same
  · obtain ⟨_, same, opens⟩ := holds
    cases same
    exact opens

theorem Opens.bind {x : Exec η α} {g : α → Exec η β} {K' : BodyOutcome → Except Failure β → Prop}
    (opens : Opens rely does w env x m args V K)
    (rest : ∀ q a d x, K q (.ok a) →
      Unaided rely (fun _ _ => True) x d (g a) fun r _ _ => K' q r)
    (failed : ∀ q f, K q (.error f) → K' q (.error f)) :
    Opens rely does w env (x >>= g) m args V K' := by
  refine Task.Opens.bind opens fun q r x holds => ?_
  obtain ⟨f | a, d⟩ := r
  · exact failed q f holds
  · exact rest q a d x holds

theorem opens_modify_bind {f : Env → Env} {g : PUnit → Exec η α}
    (opens : Opens rely does w (f env) (g ()) m args V K) :
    Opens rely does w env (modify f >>= g) m args V K := opens

theorem opens_get_bind {g : Env → Exec η α} (opens : Opens rely does w env (g env) m args V K) :
    Opens rely does w env (get >>= g) m args V K := opens

theorem opens_execute (holds : V w) :
    Opens rely does w env (execute m args) m args V fun q r => r = q :=
  ⟨rfl, rfl, holds, fun _ _ => rfl⟩

theorem opens_outcome_bind {x : Exec η α} {g : Except Failure α → Exec η β}
    {K' : BodyOutcome → Except Failure β → Prop} (opens : Opens rely does w env x m args V K)
    (rest : ∀ q r d x, K q r →
      Unaided rely (fun _ _ => True) x d (g r) fun r' _ _ => K' q r') :
    Opens rely does w env (outcome x >>= g) m args V K' := by
  have whole : Opens rely does w env (outcome x) m args V fun q r => ∃ s, r = .ok s ∧ K q s :=
    Task.Opens.bind opens fun q r x holds => ⟨r.1, rfl, holds⟩
  refine whole.bind (fun q r d x holds => ?_) fun q f holds => ?_
  · obtain ⟨s, same, holds⟩ := holds
    cases same
    exact rest q _ d x holds
  · obtain ⟨s, same, -⟩ := holds
    cases same

theorem opens_keeping {refs : α → List ObjectId} {x : Exec η α}
    (opens : Opens rely does w env x m args V K) :
    Opens rely does w env (keeping refs x) m args V K :=
  opens_get_bind (opens_outcome_bind opens fun _ _ _ _ holds =>
    unaided_modify_bind (unaided_conclude holds))

theorem opens_onFrame {f : Frame} {x : Exec η α}
    (opens : Opens rely does w (env.pushFrame f) x m args V K) :
    Opens rely does w env (onFrame f x) m args V K :=
  opens_modify_bind (opens_outcome_bind opens fun _ _ _ _ holds =>
    unaided_modify_bind (unaided_conclude holds))

end Exec
end ManagedRuntime
