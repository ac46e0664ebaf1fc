import ManagedRuntime.Boot.Basic
import ManagedRuntime.Proofs.Loading.Phases

/-!
Initialisation happens once and is seen only when it is safe. Any number of threads run clients side
by side, and initialisers are clients too. Main statement: phases move forward in the hands of one
thread, an initialiser is called once, an answer is given only for a class that is initialised or in
the hands of the thread that asks, and superclasses go first.
-/
namespace ManagedRuntime.Initialization
open Noting
variable {η α β : Type} {t : ThreadId} {ρ σ τ : Moment η InitNote} {c : ClassId} {env : Env}

/-! Programs that ask for no class. -/

theorem obeys_quietAction {f : World η → Option (β × World η)} {next : β → Annotated η InitNote α}
    (quiet : QuietAction f)
    (rest : ∀ b σ, Obeys discipline t (fun _ τ => Keeps t σ τ) σ (next b)) :
    Obeys discipline t (fun _ τ => Keeps t ρ τ) ρ (.act env f next) := by
  have moves {σ : Moment η InitNote} {refs b w} (step : f (σ.world.during refs) = some (b, w)) :
      Moves t σ none (σ.inWorld w) := .quiet (quiet (σ.world.during refs) b w step) rfl
  refine .act (fun σ refs b w _ _ step => ⟨none, moves step⟩) fun σ refs b w keeps _ step => ?_
  exact Obeys.since (keeps.moves (moves step) nofun) (rest b _)

theorem obeys_task {x : Task η α} (quiet : x.Within Quietly) (ρ : Moment η InitNote) :
    Obeys discipline t (fun _ τ => Keeps t ρ τ) ρ (.ofTask x) := by
  refine obeys_ofTask quiet (fun σ refs w _ quiet => ?_) ρ
  have move : Moves t σ none (σ.inWorld w) := .quiet quiet rfl
  exact ⟨⟨none, move⟩, (Keeps.refl t σ).moves move nofun⟩

theorem obeys_askClass (there : ρ.Loaded c) (env : Env) :
    Obeys discipline t
      (fun r τ => Keeps t ρ τ ∧ r.1 = .ok (ρ.cls c) ∧ r.2.thread = env.thread) ρ
      ((ofExec (Exec.act (Atomic.ask (·.cls c)))).runIn env) := by
  have moves (σ : Moment η InitNote) (refs : List ObjectId) :
      Moves t σ none (σ.inWorld (σ.world.during refs)) := .quiet (.refl _) rfl
  refine obeys_await (fun σ refs r w _ _ step => ?_) fun σ refs r w held τ keeps _ step later _ => ?_
  · cases step
    exact ⟨none, moves σ refs⟩
  · cases step
    refine ⟨(keeps.moves (moves σ refs) nofun).trans later, ?_, rfl⟩
    exact congrArg Except.ok (keeps.cls c there)

/-! A request. -/

structure Holds (t : ThreadId) (c : ClassId) (ρ σ : Moment η InitNote) : Prop where
  keeps : Keeps t ρ σ
  foreign : ρ.phase c ≠ .inProgress t
  mine : σ.phase c = .inProgress t

theorem Holds.loaded (holds : Holds t c ρ σ) : σ.Loaded c := σ.loaded_of_phase holds.mine nofun

theorem Holds.later (holds : Holds t c ρ σ) (keeps : Keeps t σ τ) : Holds t c ρ τ where
  keeps := holds.keeps.trans keeps
  foreign := holds.foreign
  mine := (keeps.mine c holds.mine).1

theorem Keeps.superclassFirst (keeps : Keeps t σ τ) (there : σ.Loaded c)
    (first : σ.SuperclassFirst c) : τ.SuperclassFirst c := by
  intro s above
  rw [keeps.cls c there] at above
  exact keeps.left s (first s above)

theorem Keeps.ready (keeps : Keeps t σ τ) (ready : σ.Ready t c) : τ.Ready t c := by
  rcases ready with initialized | mine
  · exact .inl (keeps.initialized c initialized)
  · exact .inr (keeps.mine c mine).1

theorem request?_cases {q p : InitPhase} {decision : InitDecision}
    (found : q.request? t = some (decision, p)) :
    q = .uninitialized ∧ decision = .proceed ∧ p = .inProgress t ∨
      q ≠ .uninitialized ∧ p = q ∧
        (decision = .available ∧ (q = .initialized ∨ q = .inProgress t) ∨
          ∃ f, decision = .failed f) := by
  cases q with
  | uninitialized =>
    cases found
    exact .inl ⟨rfl, rfl, rfl⟩
  | inProgress owner =>
    simp only [InitPhase.request?] at found
    split at found
    · rename_i same
      cases found
      exact .inr ⟨nofun, rfl, .inl ⟨rfl, .inr (congrArg _ same)⟩⟩
    · cases found
  | initialized =>
    cases found
    exact .inr ⟨nofun, rfl, .inl ⟨rfl, .inl rfl⟩⟩
  | failed f =>
    cases found
    exact .inr ⟨nofun, rfl, .inr ⟨f, rfl⟩⟩

def Decided (t : ThreadId) (c : ClassId) (ρ σ : Moment η InitNote) : InitDecision → Prop
  | .available => Keeps t ρ σ ∧ σ.Ready t c
  | .failed _ => Keeps t ρ σ
  | .proceed => Holds t c ρ σ ∧ σ.starts c = 0

theorem Decided.later {decision : InitDecision} (decided : Decided t c ρ σ decision)
    (keeps : Keeps t σ τ) : Decided t c ρ τ decision := by
  cases decision with
  | available => exact ⟨decided.1.trans keeps, keeps.ready decided.2⟩
  | failed f => exact Keeps.trans decided keeps
  | proceed => exact ⟨decided.1.later keeps, (keeps.mine c decided.1.mine).2.trans decided.2⟩

theorem decided_of_request {decision : InitDecision} {p : InitPhase} (sound : Sound σ)
    (keeps : Keeps t ρ σ) (there : σ.Loaded c) (sets : Sets c p σ τ)
    (found : (σ.phase c).request? t = some (decision, p)) :
    Moves t σ none τ ∧ Decided t c ρ τ decision := by
  rcases request?_cases found with ⟨first, rfl, rfl⟩ | ⟨-, same, answer⟩
  · have move : Moves t σ none τ := .begins there first sets
    refine ⟨move, ⟨keeps.moves move nofun, fun here => ?_, sets.phase_same there⟩, ?_⟩
    · cases (keeps.mine c here).1.symm.trans first
    · have unstarted : σ.starts c = 0 := by
        refine Nat.eq_zero_of_not_pos fun started => ?_
        exact (sound.started c started).1 first
      rw [sets.starts, unstarted]
  · have quiet : σ.registry.Quiet τ.registry := by
      rw [sets.registry]
      exact .modifyState same
    have move : Moves t σ none τ := .quiet quiet sets.notes
    have kept := keeps.moves move nofun
    rcases answer with ⟨rfl, initialized | mine⟩ | ⟨f, rfl⟩
    · exact ⟨move, kept, .inl ((sets.phase_same there).trans (same.trans initialized))⟩
    · exact ⟨move, kept, .inr ((sets.phase_same there).trans (same.trans mine))⟩
    · exact ⟨move, kept⟩

theorem sets_setPhase (σ : Moment η InitNote) (c : ClassId) (p : InitPhase)
    (refs : List ObjectId) : Sets c p σ (σ.inWorld (Exec.setPhase c p (σ.world.during refs))) :=
  ⟨rfl, rfl⟩

theorem obeys_requestInit (there : ρ.Loaded c) (mine : env.thread = t) :
    Obeys discipline t
      (fun r τ => r.2.thread = t ∧ ∃ decision, r.1 = .ok decision ∧ Decided t c ρ τ decision) ρ
      ((ofExec (Exec.requestInit c)).runIn env) := by
  subst mine
  change Obeys discipline env.thread _ ρ ((ofExec (Exec.await fun w =>
    ((w.registry.state c).phase.request? env.thread).map fun r =>
      (.ok r.1, Exec.setPhase c r.2 w))).runIn env)
  refine obeys_await (fun σ refs r w keeps sound step => ?_)
    fun σ refs r w held τ keeps sound step later _ => ?_
  · obtain ⟨⟨decision, p⟩, found, same⟩ := Option.map_eq_some_iff.mp step
    cases same
    have sets := sets_setPhase σ c p refs
    exact ⟨none, (decided_of_request sound keeps (keeps.loaded there) sets found).1⟩
  · obtain ⟨⟨decision, p⟩, found, same⟩ := Option.map_eq_some_iff.mp step
    cases same
    have sets := sets_setPhase σ c p refs
    refine ⟨rfl, decision, rfl, Decided.later ?_ later⟩
    exact (decided_of_request sound keeps (keeps.loaded there) sets found).2

def Done (c : ClassId) (σ : Moment η InitNote) : Prop :=
  σ.SuperclassFirst c ∧ ((σ.cls c).initializer?.isSome → σ.starts c = 1)

theorem obeys_runInitializer (holds : Holds t c ρ σ) (unstarted : σ.starts c = 0)
    (superclass : σ.SuperclassFirst c) :
    Obeys discipline t (fun r τ => Holds t c ρ τ ∧ (r.1 = .ok () → Done c τ)) σ
      ((Noting.runInitializer c).runIn env) := by
  refine obeys_bind (obeys_askClass holds.loaded env) ?_ ?_
  · rintro f e τ _ ⟨-, same, -⟩
    cases same
  rintro x e τ sound ⟨keeps, same, -⟩
  cases same
  cases declared : (σ.cls c).initializer? with
  | none =>
    refine .done fun υ later _ => ?_
    have keeps := keeps.trans later
    refine ⟨holds.later keeps, fun _ => ⟨keeps.superclassFirst holds.loaded superclass, ?_⟩⟩
    intro declares
    rw [keeps.cls c holds.loaded, declared] at declares
    cases declares
  | some m =>
    -- the note counts the call that comes next
    have starting {υ : Moment η InitNote} (later : Keeps t τ υ) :
        Moves t υ (some c) (υ.noted t (.starts c)) := by
      have keeps := keeps.trans later
      refine .starts (keeps.mine c holds.mine).1 ?_ ?_
      · exact (keeps.mine c holds.mine).2.trans unstarted
      · exact keeps.superclassFirst holds.loaded superclass
    refine obeys_note_bind (fun υ later _ _ => ⟨_, starting later⟩) fun υ later _ _ => ?_
    have keeps := keeps.trans later
    have holding : Holds t c ρ (υ.noted t (.starts c)) := by
      refine ⟨(holds.keeps.trans keeps).moves (starting later) ?_, holds.foreign, ?_⟩
      · rintro _ ⟨⟩
        exact holds.foreign
      · exact (keeps.mine c holds.mine).1
    have once : (υ.noted t (.starts c)).starts c = 1 := by
      rw [υ.starts_noted_starts, if_pos rfl, (keeps.mine c holds.mine).2, unstarted]
    have first : (υ.noted t (.starts c)).SuperclassFirst c :=
      keeps.superclassFirst holds.loaded superclass
    have quiet (name : String) : Exec.Within Quietly (Exec.callInitializer name m : Exec η Unit) :=
      Exec.within_callInitializer Atomic.quietly_link Quietly.refl name m
    refine (obeys_task (quiet _ e) _).weaken fun r φ _ rest => ?_
    refine ⟨holding.later rest, fun _ => ⟨rest.superclassFirst holding.loaded first, fun _ => ?_⟩⟩
    exact (rest.mine c holding.mine).2.trans once

theorem obeys_finish {r : Except Failure Unit} (holds : Holds t c ρ σ) (done : r = .ok () → Done c σ) :
    Obeys discipline t
      (fun q τ => q.1 = .ok () ∧ Keeps t ρ τ ∧ (r = .ok () → τ.phase c = .initialized)) σ
      ((ofExec (Exec.act (modify (Exec.setPhase c (.finish r))))).runIn env) := by
  have moves {υ : Moment η InitNote} (refs : List ObjectId) (keeps : Keeps t σ υ) :
      Moves t υ (some c)
        (υ.inWorld (Exec.setPhase c (.finish r) (υ.world.during refs))) := by
    refine .finishes (holds.later keeps).mine (fun ok => ?_) (sets_setPhase υ c _ refs)
    obtain ⟨first, once⟩ := done ok
    refine ⟨keeps.superclassFirst holds.loaded first, fun declares => ?_⟩
    rw [keeps.cls c holds.loaded] at declares
    exact (keeps.mine c holds.mine).2.trans (once declares)
  refine obeys_await (fun υ refs q w keeps _ step => ?_) fun υ refs q w held τ keeps _ step later _ => ?_
  · cases step
    exact ⟨_, moves refs keeps⟩
  · cases step
    have kept : Keeps t ρ _ := (holds.later keeps).keeps.moves (moves refs keeps) (by
      rintro _ ⟨⟩
      exact holds.foreign)
    refine ⟨rfl, kept.trans later, fun ok => later.initialized c ?_⟩
    rw [(sets_setPhase υ c _ refs).phase_same (holds.later keeps).loaded, ok]
    rfl

def Answered (t : ThreadId) (c : ClassId) (ρ : Moment η InitNote)
    (r : Except Failure Unit × Env) (τ : Moment η InitNote) : Prop :=
  Keeps t ρ τ ∧ (r.1 = .ok () → τ.Ready t c)

theorem Answered.later {r : Except Failure Unit × Env} (answered : Answered t c ρ r σ)
    (keeps : Keeps t σ τ) : Answered t c ρ r τ :=
  ⟨answered.1.trans keeps, fun ok => keeps.ready (answered.2 ok)⟩

theorem obeys_answering {x : Noting η InitNote Unit}
    (first : Obeys discipline t (Answered t c ρ) ρ (x.runIn env)) :
    Obeys discipline t (Answered t c ρ) ρ ((answering c x).runIn env) := by
  refine obeys_outcome_bind first fun r e σ _ answered => ?_
  have answers {υ : Moment η InitNote} (later : Keeps t σ υ) :
      Moves t υ none (υ.noted t (.answers c r)) :=
    .answers (answered.later later).2
  refine obeys_note_bind (fun υ later _ _ => ⟨none, answers later⟩) fun υ later _ _ => ?_
  refine obeys_conclude fun φ rest _ => ?_
  exact answered.later (later.trans (((Keeps.refl t υ).moves (answers later) nofun).trans rest))

theorem obeys_superclassFirst {ask : ClassId → Noting η InitNote Unit}
    (asked : ∀ s e υ, s.index < c.index → υ.Loaded s → e.thread = t →
      Obeys discipline t (Answered t s υ) υ ((ask s).runIn e))
    (ordered : σ.registry.Ordered) (holds : Holds t c ρ σ) (unstarted : σ.starts c = 0)
    (mine : env.thread = t) :
    Obeys discipline t (fun r τ => Holds t c ρ τ ∧ (r.1 = .ok () → Done c τ)) σ
      ((superclassFirst ask c).runIn env) := by
  refine obeys_bind (obeys_askClass holds.loaded env) ?_ ?_
  · rintro f e υ τ ⟨-, same, -⟩
    cases same
  rintro x e τ - ⟨keeps, same, thread⟩
  cases same
  have held := holds.later keeps
  have still : τ.starts c = 0 := (keeps.mine c holds.mine).2.trans unstarted
  cases above : (σ.cls c).superclass with
  | none =>
    refine obeys_runInitializer held still fun s here => ?_
    rw [keeps.cls c holds.loaded, above] at here
    cases here
  | some s =>
    have less : s.index < c.index := ordered.superclass_lt above
    have known : τ.Loaded s := Nat.lt_trans less held.loaded
    refine obeys_bind (asked s e τ less known (thread.trans mine)) ?_ ?_
    · intro f e' υ φ answered later _
      exact ⟨(held.later answered.1).later later, nofun⟩
    · intro a e' υ _ answered
      have further := answered.1
      refine obeys_runInitializer (held.later further) ?_ fun s' here => ?_
      · exact (further.mine c held.mine).2.trans still
      · rw [further.cls c held.loaded, keeps.cls c holds.loaded, above] at here
        cases here
        rcases answered.2 rfl with ready | ready <;> rw [ready] <;> nofun

theorem obeys_requestWithin (n : Nat) (enough : c.index < n) (there : ρ.Loaded c)
    (mine : env.thread = t) :
    Obeys discipline t (Answered t c ρ) ρ ((requestWithin n c).runIn env) := by
  -- a superclass has a smaller number, so the bound that is left is enough for its request
  induction n generalizing c ρ env with
  | zero => omega
  | succ n ih =>
    refine obeys_answering (obeys_bind (obeys_requestInit there mine) ?_ ?_)
    · rintro f e σ τ ⟨-, decision, same, -⟩
      cases same
    rintro decision e σ sound ⟨thread, _, ⟨⟩, decided⟩
    cases decision with
    | available =>
      refine .done fun τ keeps _ => ?_
      have known := decided.later keeps
      exact ⟨known.1, fun _ => known.2⟩
    | failed f =>
      have kept : Keeps t ρ σ := decided
      refine obeys_bind (obeys_askClass (kept.loaded there) e) ?_ ?_
      · rintro f' e' σ τ ⟨-, same, -⟩
        cases same
      · rintro x e' τ _ ⟨keeps, -, -⟩
        exact .done fun φ later _ => ⟨(kept.trans keeps).trans later, nofun⟩
    | proceed =>
      obtain ⟨holds, unstarted⟩ := decided
      have asked (s : ClassId) (e : Env) (υ : Moment η InitNote) (less : s.index < c.index)
          (known : υ.Loaded s) (thread : e.thread = t) :
          Obeys discipline t (Answered t s υ) υ ((requestWithin n s).runIn e) :=
        ih (by omega) known thread
      refine obeys_outcome_bind
        (obeys_superclassFirst asked sound.ordered holds unstarted thread) ?_
      rintro r e' τ _ ⟨held, done⟩
      refine obeys_bind (obeys_finish held done) ?_ ?_
      · rintro f e'' σ τ ⟨same, -, -⟩
        cases same
      · rintro a e'' υ _ ⟨-, kept, finished⟩
        refine obeys_conclude fun φ later _ => ⟨kept.trans later, fun ok => ?_⟩
        exact later.ready (.inl (finished ok))

theorem obeys_request (c : ClassId) (env : Env) (ρ : Moment η InitNote) :
    Obeys discipline t (fun _ τ => Keeps t ρ τ) ρ ((request c).runIn env) := by
  change Obeys discipline t _ ρ
    (.note (.asks c env.thread) ((requestWithin (c.index + 1) c).runIn env))
  have moves {σ : Moment η InitNote} (same : env.thread = t) :
      Moves t σ none (σ.noted t (.asks c env.thread)) := by
    rw [same]
    exact .asks
  refine .note (fun σ _ _ means => ⟨none, moves means.1⟩) fun σ keeps _ ⟨same, there⟩ => ?_
  have known : (σ.noted t (.asks c env.thread)).Loaded c := there
  refine (obeys_requestWithin (c.index + 1) (by omega) known same).weaken fun r τ _ answered => ?_
  exact (keeps.moves (moves same) nofun).trans answered.1

theorem obeys_client {x : Annotated η InitNote α} (client : Client x) (ρ : Moment η InitNote) :
    Obeys discipline t (fun _ τ => Keeps t ρ τ) ρ x := by
  -- on the actions of the client; what it has kept from `ρ` is carried from one to the next
  induction client generalizing ρ with
  | done => exact .done fun σ keeps _ => keeps
  | act quiet _ ih => exact obeys_quietAction quiet ih
  | execute _ ih => exact .execute fun σ r keeps _ => Obeys.since keeps (ih r σ)
  | native _ ih => exact .native fun σ r keeps _ => Obeys.since keeps (ih r σ)
  | @request c env next _ ih =>
    exact (obeys_request c env ρ).bind fun r σ _ keeps => Obeys.since keeps (ih r σ)

/-! Many threads. -/

structure Fresh (r : Registry) : Prop where
  ordered : r.Ordered
  phase : ∀ c : ClassId, c.index < r.loaded.size →
    (r.state c).phase = (ClassState.initial (r.cls c)).phase

theorem sound_of_fresh (fresh : Fresh σ.registry) (unnoted : σ.notes = []) : Sound σ := by
  have unstarted (c : ClassId) : σ.starts c = 0 := by
    rw [Moment.starts, unnoted]
    rfl
  refine ⟨fresh.ordered, fun c => ?_, fun c started => ?_, fun c ordinary here => ?_⟩
  · rw [unstarted]
    exact Nat.zero_le 1
  · rw [unstarted] at started
    cases started
  · have phase := fresh.phase c (σ.loaded_of_phase here (by simp))
    have initial : (ClassState.initial (σ.cls c)).phase = .uninitialized := if_pos ordinary
    cases here.symm.trans (phase.trans initial)

/-- How a step of thread `t` may change the phase of a class. -/
inductive Turns (t : ThreadId) : InitPhase → InitPhase → Prop
  | stays {p : InitPhase} : Turns t p p
  | begins : Turns t .uninitialized (.inProgress t)
  | succeeds : Turns t (.inProgress t) .initialized
  | fails {f : Failure} : Turns t (.inProgress t) (.failed f)

theorem Sets.turns {d : ClassId} {p : InitPhase} (sets : Sets d p σ τ) (there : σ.Loaded d)
    (turns : Turns t (σ.phase d) p) : Turns t (σ.phase c) (τ.phase c) := by
  by_cases same : c = d
  · subst same
    rw [sets.phase_same there]
    exact turns
  · rw [sets.phase_other same]
    exact .stays

theorem Moves.turns {x : Option ClassId} (move : Moves t σ x τ) (there : σ.Loaded c) :
    Turns t (σ.phase c) (τ.phase c) := by
  cases move with
  | quiet quiet _ =>
    rw [show τ.phase c = σ.phase c from quiet.phase c there]
    exact .stays
  | begins loaded first sets => exact sets.turns loaded (first ▸ .begins)
  | @finishes d r _ mine _ sets =>
    refine sets.turns (σ.loaded_of_phase mine nofun) ?_
    rw [mine]
    cases r with
    | ok a => exact .succeeds
    | error f => exact .fails
  | asks | starts _ _ _ | answers _ => exact .stays

theorem Moves.answers_ready {x : Option ClassId} {r : Except Failure Unit} (move : Moves t σ x τ)
    (noted : τ.notes = (t, .answers c r) :: σ.notes) (ok : r = .ok ()) : σ.Ready t c := by
  have apart : σ.notes ≠ (t, .answers c r) :: σ.notes := fun same => List.cons_ne_self _ _ same.symm
  cases move with
  | quiet _ notes => exact absurd (notes.symm.trans noted) apart
  | begins _ _ sets | finishes _ _ sets => exact absurd (sets.notes.symm.trans noted) apart
  | asks | starts => cases noted
  | answers ready =>
    cases noted
    exact ready ok

variable {code : AnnotatedCode η InitNote} {p q : Pool η InitNote}

theorem kept_of_run (clients : code.IsClient) (fresh : Fresh p.moment.registry)
    (unnoted : p.moment.notes = []) (tasks : ∀ t, Client (p.tasks t))
    (run : Pool.Run code meant p q) : q.Kept discipline ∧ code.Obeys discipline := by
  have disciplined : code.Obeys discipline :=
    ⟨fun _ m args env ρ => obeys_client (clients.execute m args env) ρ,
      fun _ f call env ρ => obeys_client (clients.native f call env) ρ⟩
  have start : p.Kept discipline :=
    ⟨sound_of_fresh fresh unnoted,
      fun t => (obeys_client (tasks t) _).weaken fun _ _ _ _ => trivial⟩
  exact ⟨start.run disciplined run, disciplined⟩

/-- After any run the next step of a thread turns phases forward, and what has been noted so far is
as it should be. Without its notes a request is the runtime's own program. A call is a client. -/
theorem initialization_once (clients : code.IsClient) (fresh : Fresh p.moment.registry)
    (unnoted : p.moment.notes = []) (tasks : ∀ t, Client (p.tasks t))
    (run : Pool.Run code meant p q) :
    (∀ t q', Pool.Step code meant t q q' → ∀ c, q.moment.Loaded c →
        Turns t (q.moment.phase c) (q'.moment.phase c)) ∧
      (∀ c, q.moment.starts c ≤ 1) ∧
      (∀ t c next, q.tasks t = .note (.answers c (.ok ())) next → q.moment.Ready t c) ∧
      (∀ c, 0 < q.moment.starts c ∨
          (q.moment.cls c).kind = .ordinary ∧ q.moment.phase c = .initialized →
        q.moment.SuperclassFirst c) ∧
      (∀ c, (q.moment.cls c).kind = .ordinary → q.moment.phase c = .initialized →
        (q.moment.cls c).initializer?.isSome → q.moment.starts c = 1) ∧
      (∀ c, (request c : Noting η InitNote Unit).plain = Exec.initializeClass c) ∧
      ∀ m args, IsClient (ofExec (Exec.callMethod m args) : Noting η InitNote _) := by
  obtain ⟨kept, disciplined⟩ := kept_of_run clients fresh unnoted tasks run
  have sound : Sound q.moment := kept.sound
  refine ⟨?_, sound.once, ?_, ?_, ?_, plain_request, isClient_callMethod⟩
  · intro t q' step c there
    rcases (kept.step disciplined step).1 with ⟨x, move⟩ | same
    · exact move.turns there
    · rw [same]
      exact .stays
  · intro t c next here
    have obeys := kept.obeys t
    rw [here] at obeys
    cases obeys with
    | note moves _ =>
      obtain ⟨x, move⟩ := moves q.moment (Keeps.refl t _) sound trivial
      exact move.answers_ready rfl rfl
  · rintro c (started | ⟨ordinary, initialized⟩)
    · exact (sound.started c started).2
    · exact (sound.initialized c ordinary initialized).1
  · intro c ordinary initialized
    exact (sound.initialized c ordinary initialized).2

/-! A class whose initialiser asks for the class itself. -/

instance (t : ThreadId) (σ : Moment η InitNote) (n : InitNote) : Decidable (meant t σ n) :=
  match n with
  | .asks c u => inferInstanceAs (Decidable (u = t ∧ c.index < σ.world.registry.loaded.size))
  | .starts _ | .answers .. => isTrue trivial

def declaring : Registry :=
  let root := (Registry.empty.define (ClassDef.named Registry.rootName).root none).2
  let clinit := (ClassDef.named "C").method "<clinit>" "()V" (.isPublic ||| .isStatic)
  ((root.define clinit none).2.arrayOf (Registry.primitive .int)).2

theorem fresh_declaring : Fresh declaring := by
  have built : declaring.Built := by
    unfold declaring
    exact ((Registry.Built.empty.define _ _).define _ _).arrayOf (by decide +kernel)
  refine ⟨built.ordered, fun c there => ?_⟩
  have size : declaring.loaded.size = 12 := by decide +kernel
  have phases : ∀ i < 12, (declaring.state ⟨i⟩).phase =
      (ClassState.initial (declaring.cls ⟨i⟩)).phase := by
    decide +kernel
  exact phases c.index (size ▸ there)

def nestedCode : AnnotatedCode Unit InitNote where
  execute _ _ := do
    request ⟨10⟩
    return none
  native _ _ := throw .nullReference

theorem isClient_nestedCode : nestedCode.IsClient where
  execute _ _ := isClient_bind (isClient_request ⟨10⟩) fun _ => isClient_pure none
  native _ _ := isClient_throw .nullReference

def asking : Pool Unit InitNote where
  moment := ⟨Boot.initialWorld .silent declaring 0, []⟩
  tasks t := ((request ⟨10⟩).runIn (.new t 8)).bind fun _ => .done ()

theorem client_asking (t : ThreadId) : Client (asking.tasks t) := .request fun _ => .done

theorem declared_initialized_once :
    ∃ q, Pool.Run nestedCode meant asking q ∧ q.moment.phase ⟨10⟩ = .initialized ∧
      q.moment.starts ⟨10⟩ = 1 ∧ q.moment.SuperclassFirst ⟨10⟩ := by
  let order : List ThreadId := ⟨1⟩ :: List.replicate 16 ⟨0⟩ ++ List.replicate 2 ⟨1⟩
  have driven : (asking.drive nestedCode meant order).map (fun q =>
      (q.moment.phase ⟨10⟩, (q.moment.cls ⟨10⟩).kind, (q.moment.cls ⟨10⟩).initializer?.isSome)) =
      some (.initialized, .ordinary, true) := by
    decide +kernel
  obtain ⟨q, drove, same⟩ := Option.map_eq_some_iff.mp driven
  simp only [Prod.mk.injEq] at same
  obtain ⟨initialized, ordinary, declares⟩ := same
  have run := Pool.run_of_drive drove
  have fresh : Fresh asking.moment.registry := fresh_declaring
  obtain ⟨-, -, -, first, once, -⟩ :=
    initialization_once isClient_nestedCode fresh rfl client_asking run
  exact ⟨q, run, initialized, once ⟨10⟩ ordinary initialized declares,
    first ⟨10⟩ (.inr ⟨ordinary, initialized⟩)⟩

/-- An array class is initialised from the start, and nobody has asked for its superclass. -/
theorem array_class_before_root :
    Fresh asking.moment.registry ∧ Pool.Run nestedCode meant asking asking ∧
      asking.moment.phase ⟨11⟩ = .initialized ∧ ¬ asking.moment.SuperclassFirst ⟨11⟩ := by
  refine ⟨fresh_declaring, .refl, by decide +kernel, fun first => ?_⟩
  exact first ⟨9⟩ (by decide +kernel) (by decide +kernel)

end ManagedRuntime.Initialization
