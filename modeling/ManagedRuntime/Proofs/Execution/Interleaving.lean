import ManagedRuntime.Proofs.Execution.Annotated
import ManagedRuntime.Proofs.Execution.Within

/-!
Threads that keep a discipline. A discipline says which moves each thread may make, and what a
thread may rely on while the others move. A task obeys it from some moment on if all its moves are
allowed wherever the others have led in between. Main statement: if all threads obey, every step of
a run is an allowed move and every moment is sound.
-/
namespace ManagedRuntime
variable {η ν α β : Type}

structure Discipline (η ν : Type) where
  /-- Where a thread may put a note. -/
  meant : ThreadId → Moment η ν → ν → Prop
  moves : ThreadId → Moment η ν → Moment η ν → Prop
  sound : Moment η ν → Prop
  /-- From one moment of a thread to a later one, with no work of its own left open in between. -/
  keeps : ThreadId → Moment η ν → Moment η ν → Prop
  keeps_refl : ∀ t σ, keeps t σ σ
  keeps_trans : ∀ {t ρ σ τ}, keeps t ρ σ → keeps t σ τ → keeps t ρ τ
  sound_moves : ∀ {t σ τ}, sound σ → moves t σ τ → sound τ
  keeps_others : ∀ {t u σ τ}, u ≠ t → sound σ → moves u σ τ → keeps t σ τ

variable (d : Discipline η ν) (t : ThreadId)

/-- From this moment on the task of `t` makes allowed moves alone, and when it is done `Q` holds of
its result and of the moment. -/
inductive Obeys (Q : α → Moment η ν → Prop) : Moment η ν → Annotated η ν α → Prop
  | done {ρ : Moment η ν} {a : α} (post : ∀ σ, d.keeps t ρ σ → d.sound σ → Q a σ) :
      Obeys Q ρ (.done a)
  | note {ρ : Moment η ν} {n : ν} {next : Annotated η ν α}
      (moves : ∀ σ, d.keeps t ρ σ → d.sound σ → d.meant t σ n → d.moves t σ (σ.noted t n))
      (rest : ∀ σ, d.keeps t ρ σ → d.sound σ → d.meant t σ n → Obeys Q (σ.noted t n) next) :
      Obeys Q ρ (.note n next)
  | act {ρ : Moment η ν} {β : Type} {env : Env} {f : World η → Option (β × World η)}
      {next : β → Annotated η ν α}
      (moves : ∀ σ refs b w, d.keeps t ρ σ → d.sound σ →
        f (σ.world.during refs) = some (b, w) → d.moves t σ (σ.inWorld w))
      (rest : ∀ σ refs b w, d.keeps t ρ σ → d.sound σ →
        f (σ.world.during refs) = some (b, w) → Obeys Q (σ.inWorld w) (next b)) :
      Obeys Q ρ (.act env f next)
  | execute {ρ : Moment η ν} {m : Method} {args : List Value} {env : Env}
      {next : Except Failure (Option Value) × Env → Annotated η ν α}
      (rest : ∀ σ r, d.keeps t ρ σ → d.sound σ → Obeys Q σ (next r)) :
      Obeys Q ρ (.execute m args env next)
  | native {ρ : Moment η ν} {f : NativeFunction} {call : NativeCall} {env : Env}
      {next : Except Failure Nat × Env → Annotated η ν α}
      (rest : ∀ σ r, d.keeps t ρ σ → d.sound σ → Obeys Q σ (next r)) :
      Obeys Q ρ (.native f call env next)

variable {d t} {Q R : α → Moment η ν → Prop} {ρ σ : Moment η ν}

/-- It is enough that a task obeys from all moments that the others can lead to. -/
theorem Obeys.of_kept {x : Annotated η ν α}
    (kept : ∀ σ, d.keeps t ρ σ → d.sound σ → Obeys d t Q σ x) : Obeys d t Q ρ x := by
  cases x with
  | done a =>
    refine .done fun σ keeps sound => ?_
    cases kept σ keeps sound with
    | done post => exact post σ (d.keeps_refl t σ) sound
  | note n next =>
    refine .note (fun σ keeps sound => ?_) (fun σ keeps sound => ?_)
    · cases kept σ keeps sound with
      | note moves => exact moves σ (d.keeps_refl t σ) sound
    · cases kept σ keeps sound with
      | note _ rest => exact rest σ (d.keeps_refl t σ) sound
  | act env f next =>
    refine .act (fun σ refs b w keeps sound => ?_) (fun σ refs b w keeps sound => ?_)
    · cases kept σ keeps sound with
      | act moves => exact moves σ refs b w (d.keeps_refl t σ) sound
    · cases kept σ keeps sound with
      | act _ rest => exact rest σ refs b w (d.keeps_refl t σ) sound
  | execute m args env next =>
    refine .execute fun σ r keeps sound => ?_
    cases kept σ keeps sound with
    | execute rest => exact rest σ r (d.keeps_refl t σ) sound
  | native f call env next =>
    refine .native fun σ r keeps sound => ?_
    cases kept σ keeps sound with
    | native rest => exact rest σ r (d.keeps_refl t σ) sound

theorem Obeys.later {x : Annotated η ν α} (keeps : d.keeps t ρ σ) (obeys : Obeys d t Q ρ x) :
    Obeys d t Q σ x := by
  cases obeys with
  | done post => exact .done fun τ further => post τ (d.keeps_trans keeps further)
  | note moves rest =>
    exact .note (fun τ further => moves τ (d.keeps_trans keeps further))
      (fun τ further => rest τ (d.keeps_trans keeps further))
  | act moves rest =>
    exact .act (fun τ refs b w further => moves τ refs b w (d.keeps_trans keeps further))
      (fun τ refs b w further => rest τ refs b w (d.keeps_trans keeps further))
  | execute rest => exact .execute fun τ r further => rest τ r (d.keeps_trans keeps further)
  | native rest => exact .native fun τ r further => rest τ r (d.keeps_trans keeps further)

theorem Obeys.bind {x : Annotated η ν α} {g : α → Annotated η ν β} {Q : β → Moment η ν → Prop}
    (first : Obeys d t R ρ x) (rest : ∀ a σ, d.sound σ → R a σ → Obeys d t Q σ (g a)) :
    Obeys d t Q ρ (x.bind g) := by
  induction first with
  | done post => exact .of_kept fun σ keeps sound => rest _ σ sound (post σ keeps sound)
  | note moves _ ih => exact .note moves ih
  | act moves _ ih => exact .act moves ih
  | execute _ ih => exact .execute ih
  | native _ ih => exact .native ih

theorem Obeys.weaken {x : Annotated η ν α} (obeys : Obeys d t R ρ x)
    (implies : ∀ a σ, d.sound σ → R a σ → Q a σ) : Obeys d t Q ρ x := by
  induction obeys with
  | done post => exact .done fun σ keeps sound => implies _ σ sound (post σ keeps sound)
  | note moves _ ih => exact .note moves ih
  | act moves _ ih => exact .act moves ih
  | execute _ ih => exact .execute ih
  | native _ ih => exact .native ih

/-- What is kept from a later moment on is kept from an earlier one on. -/
theorem Obeys.since {x : Annotated η ν α} (keeps : d.keeps t ρ σ)
    (obeys : Obeys d t (fun _ τ => d.keeps t σ τ) σ x) :
    Obeys d t (fun _ τ => d.keeps t ρ τ) σ x :=
  obeys.weaken fun _ _ _ later => d.keeps_trans keeps later

theorem Obeys.since_and {x : Annotated η ν α} (keeps : d.keeps t ρ σ)
    (obeys : Obeys d t (fun a τ => d.keeps t σ τ ∧ Q a τ) σ x) :
    Obeys d t (fun a τ => d.keeps t ρ τ ∧ Q a τ) σ x :=
  obeys.weaken fun _ _ _ ⟨later, post⟩ => ⟨d.keeps_trans keeps later, post⟩

/-- A task without notes obeys if its own actions keep to a relation whose changes are moves. -/
theorem obeys_ofTask {R : World η → World η → Prop} {x : Task η α} (within : x.Within R)
    (moves : ∀ σ refs w, d.sound σ → R (σ.world.during refs) w →
      d.moves t σ (σ.inWorld w) ∧ d.keeps t σ (σ.inWorld w)) (ρ : Moment η ν) :
    Obeys d t (fun _ τ => d.keeps t ρ τ) ρ (.ofTask x) := by
  induction within generalizing ρ with
  | done => exact .done fun σ keeps _ => keeps
  | act within _ ih =>
    refine .act (fun σ refs b w _ sound step => (moves σ refs w sound (within _ b w step)).1) ?_
    intro σ refs b w keeps sound step
    have moved := (moves σ refs w sound (within _ b w step)).2
    exact (ih b _).since (d.keeps_trans keeps moved)
  | execute _ ih => exact .execute fun σ r keeps _ => (ih r σ).since keeps
  | native _ ih => exact .native fun σ r keeps _ => (ih r σ).since keeps

/-! Programs. -/

section programs
variable {env : Env} {x : Noting η ν α} {g : α → Noting η ν β}
  {F : Except Failure α × Env → Moment η ν → Prop}
  {G : Except Failure β × Env → Moment η ν → Prop}

theorem obeys_conclude {r : Except Failure α}
    (post : ∀ σ, d.keeps t ρ σ → d.sound σ → F (r, env) σ) :
    Obeys d t F ρ ((Noting.conclude r).runIn env) := .done post

theorem obeys_bind (first : Obeys d t F ρ (x.runIn env))
    (failed : ∀ f e σ τ, F (.error f, e) σ → d.keeps t σ τ → d.sound τ → G (.error f, e) τ)
    (rest : ∀ a e σ, d.sound σ → F (.ok a, e) σ → Obeys d t G σ ((g a).runIn e)) :
    Obeys d t G ρ ((x >>= g).runIn env) := by
  rw [show (x >>= g).runIn env = (x.runIn env).bind _ from rfl]
  refine first.bind fun (r, e) σ sound holds => ?_
  cases r with
  | error f => exact .done fun τ keeps sound => failed f e σ τ holds keeps sound
  | ok a => exact rest a e σ sound holds

theorem obeys_outcome_bind {g : Except Failure α → Noting η ν β}
    (first : Obeys d t F ρ (x.runIn env))
    (rest : ∀ r e σ, d.sound σ → F (r, e) σ → Obeys d t G σ ((g r).runIn e)) :
    Obeys d t G ρ ((x.outcome >>= g).runIn env) := by
  rw [show (x.outcome >>= g).runIn env = ((x.runIn env).bind _).bind _ from rfl,
    Annotated.bind_assoc]
  exact first.bind fun (r, e) σ sound holds => rest r e σ sound holds

theorem obeys_note_bind {n : ν} {g : Unit → Noting η ν β}
    (moves : ∀ σ, d.keeps t ρ σ → d.sound σ → d.meant t σ n → d.moves t σ (σ.noted t n))
    (rest : ∀ σ, d.keeps t ρ σ → d.sound σ → d.meant t σ n →
      Obeys d t G (σ.noted t n) ((g ()).runIn env)) :
    Obeys d t G ρ ((Noting.note n >>= g).runIn env) := .note moves rest

theorem obeys_await {f : World η → Option (Except Failure α × World η)}
    (moves : ∀ σ refs r w, d.keeps t ρ σ → d.sound σ → f (σ.world.during refs) = some (r, w) →
      d.moves t σ (σ.inWorld w))
    (post : ∀ σ refs r w held τ, d.keeps t ρ σ → d.sound σ →
      f (σ.world.during refs) = some (r, w) → d.keeps t (σ.inWorld w) τ → d.sound τ →
      F (r, env.hold held) τ) :
    Obeys d t F ρ ((Noting.ofExec (Exec.await f)).runIn env) := by
  refine .act (fun σ refs b w keeps sound step => ?_) (fun σ refs b w keeps sound step => ?_)
  · obtain ⟨⟨r, v⟩, found, same⟩ := Option.map_eq_some_iff.mp step
    cases same
    exact moves σ refs r v keeps sound found
  · obtain ⟨⟨r, v⟩, found, same⟩ := Option.map_eq_some_iff.mp step
    cases same
    exact .done fun τ later sound' => post σ refs r v _ τ keeps sound found later sound'

end programs

structure AnnotatedCode.Obeys (code : AnnotatedCode η ν) (d : Discipline η ν) : Prop where
  execute : ∀ t m args env ρ, ManagedRuntime.Obeys d t (fun _ τ => d.keeps t ρ τ) ρ
    ((code.execute m args).runIn env)
  native : ∀ t f call env ρ, ManagedRuntime.Obeys d t (fun _ τ => d.keeps t ρ τ) ρ
    ((code.native f call).runIn env)

structure Pool.Kept (d : Discipline η ν) (p : Pool η ν) : Prop where
  sound : d.sound p.moment
  obeys : ∀ t, Obeys d t (fun _ _ => True) p.moment (p.tasks t)

namespace Pool
variable {code : AnnotatedCode η ν} {p q : Pool η ν}

theorem Kept.goOn {τ : Moment η ν} {next : Annotated η ν Unit} (kept : p.Kept d)
    (moves : d.moves t p.moment τ) (obeys : Obeys d t (fun _ _ => True) τ next) :
    (p.goOn t τ next).Kept d := by
  refine ⟨d.sound_moves kept.sound moves, forall_goOn obeys fun u other => ?_⟩
  -- the others obey from the new moment on because they rely on nothing that a move breaks
  exact (kept.obeys u).later (d.keeps_others (Ne.symm other) kept.sound moves)

theorem Kept.expand {next : Annotated η ν Unit} (kept : p.Kept d)
    (obeys : ManagedRuntime.Obeys d t (fun _ _ => True) p.moment next) :
    (p.goOn t p.moment next).Kept d :=
  ⟨kept.sound, forall_goOn obeys fun u _ => kept.obeys u⟩

theorem Kept.step (kept : p.Kept d) (disciplined : code.Obeys d)
    (step : Step code d.meant t p q) :
    (d.moves t p.moment q.moment ∨ q.moment = p.moment) ∧ q.Kept d := by
  have obeys := kept.obeys t
  have refl := d.keeps_refl t p.moment
  cases step with
  | note here means =>
    rw [here] at obeys
    cases obeys with
    | note moves rest =>
      have moved := moves p.moment refl kept.sound means
      exact ⟨.inl moved, kept.goOn moved (rest p.moment refl kept.sound means)⟩
  | act refs here step =>
    rw [here] at obeys
    cases obeys with
    | act moves rest =>
      have moved := moves p.moment _ _ _ refl kept.sound step
      exact ⟨.inl moved, kept.goOn moved (rest p.moment _ _ _ refl kept.sound step)⟩
  | @execute m args env next here =>
    rw [here] at obeys
    cases obeys with
    | execute rest =>
      refine ⟨.inr rfl, kept.expand ((disciplined.execute t m args env p.moment).bind ?_)⟩
      exact fun r σ sound keeps => rest σ r keeps sound
  | @native f call env next here =>
    rw [here] at obeys
    cases obeys with
    | native rest =>
      refine ⟨.inr rfl, kept.expand ((disciplined.native t f call env p.moment).bind ?_)⟩
      exact fun r σ sound keeps => rest σ r keeps sound

theorem Kept.run (kept : p.Kept d) (disciplined : code.Obeys d) (run : Run code d.meant p q) :
    q.Kept d := by
  induction run with
  | refl => exact kept
  | step _ step ih => exact (ih.step disciplined step).2

/-- What every allowed move keeps is kept by a run. -/
theorem Kept.invariant {I : Moment η ν → Prop} (kept : p.Kept d) (disciplined : code.Obeys d)
    (moves : ∀ t σ τ, d.sound σ → d.moves t σ τ → I σ → I τ) (start : I p.moment)
    (run : Run code d.meant p q) : I q.moment := by
  induction run with
  | refl => exact start
  | @step q r t run step ih =>
    have before := kept.run disciplined run
    rcases (before.step disciplined step).1 with moved | same
    · exact moves t _ _ before.sound moved ih
    · rw [same]
      exact ih

end Pool
end ManagedRuntime
