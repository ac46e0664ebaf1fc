import ManagedRuntime.Proofs.Execution.Interleaving

/-!
Programs that use a service. A user of a service may make its requests at any time, and what else it
does by itself keeps to a relation between shared states. Main statement: if the requests obey a
discipline and the changes that keep to the relation are moves of it, then all users obey it.
-/
namespace ManagedRuntime
variable {η ν α β γ ι : Type}

/-- A task whose own actions keep to `R`, and which may make any request at any time. -/
inductive Annotated.Uses (R : World η → World η → Prop) (ask : ι → Noting η ν γ) :
    Annotated η ν α → Prop where
  | done {a : α} : Uses R ask (.done a)
  | act {β : Type} {env : Env} {f : World η → Option (β × World η)} {next : β → Annotated η ν α}
      (within : ActionWithin R f) (rest : ∀ b, Uses R ask (next b)) : Uses R ask (.act env f next)
  | execute {m : Method} {args : List Value} {env : Env}
      {next : Except Failure (Option Value) × Env → Annotated η ν α}
      (rest : ∀ r, Uses R ask (next r)) : Uses R ask (.execute m args env next)
  | native {f : NativeFunction} {call : NativeCall} {env : Env}
      {next : Except Failure Nat × Env → Annotated η ν α} (rest : ∀ r, Uses R ask (next r)) :
      Uses R ask (.native f call env next)
  | request {i : ι} {env : Env} {next : Except Failure γ × Env → Annotated η ν α}
      (rest : ∀ r, Uses R ask (next r)) : Uses R ask (((ask i).runIn env).bind next)

variable {R : World η → World η → Prop} {ask : ι → Noting η ν γ}

namespace Annotated.Uses

theorem bind {x : Annotated η ν α} {g : α → Annotated η ν β} (first : x.Uses R ask)
    (rest : ∀ a, (g a).Uses R ask) : (x.bind g).Uses R ask := by
  induction first with
  | done => exact rest _
  | act within _ ih => exact .act within ih
  | execute _ ih => exact .execute ih
  | native _ ih => exact .native ih
  | request _ ih =>
    rw [Annotated.bind_assoc]
    exact .request ih

theorem ofTask {x : Task η α} (within : x.Within R) :
    (Annotated.ofTask x : Annotated η ν α).Uses R ask := by
  induction within with
  | done => exact .done
  | act within _ ih => exact .act within ih
  | execute _ ih => exact .execute ih
  | native _ ih => exact .native ih

end Annotated.Uses

namespace Noting

def Uses (R : World η → World η → Prop) (ask : ι → Noting η ν γ) (x : Noting η ν α) : Prop :=
  ∀ env, (x.runIn env).Uses R ask

theorem uses_throw (f : Failure) : Uses R ask (throw f : Noting η ν α) := fun _ => .done

theorem uses_ofExec {x : Exec η α} (within : Exec.Within R x) : Uses R ask (ofExec x) :=
  fun env => .ofTask (within env)

theorem uses_request (i : ι) : Uses R ask (ask i) := by
  intro env
  rw [← Annotated.bind_done ((ask i).runIn env)]
  exact .request fun _ => .done

theorem uses_bind {x : Noting η ν α} {g : α → Noting η ν β} (first : Uses R ask x)
    (rest : ∀ a, Uses R ask (g a)) : Uses R ask (x >>= g) := by
  intro env
  rw [show (x >>= g).runIn env = (x.runIn env).bind _ from rfl]
  refine (first env).bind fun (r, e) => ?_
  cases r with
  | error f => exact .done
  | ok a => exact rest a e

end Noting

structure AnnotatedCode.Uses (R : World η → World η → Prop) (ask : ι → Noting η ν γ)
    (code : AnnotatedCode η ν) : Prop where
  execute : ∀ m args, Noting.Uses R ask (code.execute m args)
  native : ∀ f call, Noting.Uses R ask (code.native f call)

structure Discipline.Serves (d : Discipline η ν) (R : World η → World η → Prop)
    (ask : ι → Noting η ν γ) : Prop where
  requests : ∀ t i env ρ, Obeys d t (fun _ τ => d.keeps t ρ τ) ρ ((ask i).runIn env)
  moves : ∀ t σ refs w, d.sound σ → R (σ.world.during refs) w →
    d.moves t σ (σ.inWorld w) ∧ d.keeps t σ (σ.inWorld w)

namespace Discipline.Serves
variable {d : Discipline η ν} (serves : d.Serves R ask)
include serves

theorem obeys {x : Annotated η ν α} (uses : x.Uses R ask) (t : ThreadId) (ρ : Moment η ν) :
    Obeys d t (fun _ τ => d.keeps t ρ τ) ρ x := by
  -- on the actions of the user; what it has kept from `ρ` is carried from one to the next
  induction uses generalizing ρ with
  | done => exact .done fun σ keeps _ => keeps
  | act within _ ih =>
    refine .act (fun σ refs b w _ sound step => ?_) fun σ refs b w keeps sound step => ?_
    · exact (serves.moves t σ refs w sound (within _ b w step)).1
    · have moved := (serves.moves t σ refs w sound (within _ b w step)).2
      exact (ih b _).since (d.keeps_trans keeps moved)
  | execute _ ih => exact .execute fun σ r keeps _ => (ih r σ).since keeps
  | native _ ih => exact .native fun σ r keeps _ => (ih r σ).since keeps
  | @request i env next _ ih =>
    exact (serves.requests t i env ρ).bind fun r σ _ keeps => (ih r σ).since keeps

theorem code {code : AnnotatedCode η ν} (uses : code.Uses R ask) : code.Obeys d :=
  ⟨fun t m args env ρ => serves.obeys (uses.execute m args env) t ρ,
    fun t f call env ρ => serves.obeys (uses.native f call env) t ρ⟩

theorem kept {p : Pool η ν} (sound : d.sound p.moment) (tasks : ∀ t, (p.tasks t).Uses R ask) :
    p.Kept d :=
  ⟨sound, fun t => (serves.obeys (tasks t) t _).weaken fun _ _ _ _ => trivial⟩

end Discipline.Serves
end ManagedRuntime
