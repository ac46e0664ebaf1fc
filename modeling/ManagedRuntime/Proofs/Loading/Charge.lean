import ManagedRuntime.Proofs.Loading.Records

/-!
Requests keep phases and reports in step. A thread that takes a class in hand holds it until it has
been told what came of it, and knows all along what has been reported of it. Main statement: programs
that ask for classes and otherwise spare them make allowed moves alone, whatever the other threads do
in between.
-/
namespace ManagedRuntime.Reporting
open Noting
variable {η α β : Type} {t : ThreadId} {ρ σ τ : Moment η Report} {c d s : ClassId} {env : Env}
  {l : List (ThreadId × Report)} {r : Except Failure Unit}

/-! Programs that ask for no class. -/

theorem Moves.minds {v : World η} {refs : List ObjectId} (sound : Sound σ)
    (minds : (σ.world.during refs).Minds v) : Moves t σ none (σ.inWorld v) :=
  have ⟨built, spared⟩ := minds sound.built
  .quiet ⟨spared.quiet, spared.objects, spared.classOf⟩ built

theorem obeys_minding {f : World η → Option (β × World η)} {next : β → Annotated η Report α}
    (minds : ActionWithin World.Minds f)
    (rest : ∀ w b v, w.registry.Built → f w = some (b, v) →
      ∀ σ, Obeys discipline t (fun _ τ => Keeps t σ τ) σ (next b)) :
    Obeys discipline t (fun _ τ => Keeps t ρ τ) ρ (.act env f next) := by
  have moves {σ : Moment η Report} {refs b w} (sound : Sound σ)
      (step : f (σ.world.during refs) = some (b, w)) : Moves t σ none (σ.inWorld w) :=
    .minds sound (minds _ b w step)
  refine .act (fun σ refs b w _ sound step => ⟨none, moves sound step⟩)
    fun σ refs b w keeps sound step => ?_
  exact Obeys.since (keeps.moves (moves sound step) nofun)
    (rest (σ.world.during refs) b w sound.built step _)

theorem obeys_task {x : Task η α} (minds : x.Within World.Minds) (ρ : Moment η Report) :
    Obeys discipline t (fun _ τ => Keeps t ρ τ) ρ (.ofTask x) := by
  refine obeys_ofTask minds (fun σ refs w sound minds => ?_) ρ
  have move : Moves t σ none (σ.inWorld w) := .minds sound minds
  exact ⟨⟨none, move⟩, (Keeps.refl t σ).moves move nofun⟩

/-- What is asked for is true at some moment on the way. -/
theorem obeys_ask (f : World η → α) (env : Env) :
    Obeys discipline t (fun r τ => r.2.thread = env.thread ∧ ∃ σ refs, Keeps t ρ σ ∧ Sound σ ∧
        Keeps t σ τ ∧ r.1 = .ok (f (σ.world.during refs))) ρ
      ((ofExec (Exec.act (Atomic.ask f))).runIn env) := by
  have moves {σ : Moment η Report} (sound : Sound σ) (refs : List ObjectId) :
      Moves t σ none (σ.inWorld (σ.world.during refs)) := .minds sound (.refl (σ.world.during refs))
  refine obeys_await (fun σ refs r w _ sound step => ?_)
    fun σ refs r w held τ keeps sound step later _ => ?_
  · cases step
    exact ⟨none, moves sound refs⟩
  · cases step
    refine ⟨rfl, σ, _, keeps, sound, ?_, rfl⟩
    exact ((Keeps.refl t σ).moves (moves sound _) nofun).trans later

theorem obeys_askClass (there : ρ.world.There c) (env : Env) :
    Obeys discipline t
      (fun r τ => Keeps t ρ τ ∧ r.1 = .ok (ρ.world.cls c) ∧ r.2.thread = env.thread) ρ
      ((ofExec (Exec.act (Atomic.ask (·.cls c)))).runIn env) := by
  refine (obeys_ask (World.cls · c) env).weaken fun r τ _ told => ?_
  obtain ⟨thread, σ, refs, keeps, -, later, same⟩ := told
  refine ⟨keeps.trans later, same.trans ?_, thread⟩
  exact congrArg Except.ok (keeps.cls there)

/-! The decision on a request. -/

inductive Decides (t : ThreadId) : InitPhase → InitDecision → InitPhase → Prop
  | takes : Decides t .uninitialized .proceed (.inProgress t)
  | own : Decides t (.inProgress t) .available (.inProgress t)
  | done : Decides t .initialized .available .initialized
  | refused {f : Failure} : Decides t (.failed f) (.failed f) (.failed f)

theorem decides_of_request {p q : InitPhase} {decision : InitDecision}
    (found : q.request? t = some (decision, p)) : Decides t q decision p := by
  cases q with
  | uninitialized =>
    cases found
    exact .takes
  | inProgress owner =>
    simp only [InitPhase.request?] at found
    split at found
    · rename_i same
      cases found
      exact same ▸ .own
    · cases found
  | initialized =>
    cases found
    exact .done
  | failed f =>
    cases found
    exact .refused

/-- Since the first moment thread `t` has taken `c` in hand, and this has been reported of it. It has
begun after all that had been begun before. -/
structure Holds (t : ThreadId) (c : ClassId) (ρ σ : Moment η Report)
    (l : List (ThreadId × Report)) : Prop where
  keeps : Keeps t ρ σ
  foreign : ¬ Hand t ρ c
  mine : σ.world.phase c = .inProgress t
  about : σ.about c = l
  order : (t, .begins c) ∈ l → ∀ d ∈ ρ.begun, [c, d].Sublist σ.begun

theorem Holds.there (holds : Holds t c ρ σ l) : σ.world.There c :=
  World.there_of_phase holds.mine nofun

theorem Holds.later (holds : Holds t c ρ σ l) (keeps : Keeps t σ τ) : Holds t c ρ τ l where
  keeps := holds.keeps.trans keeps
  foreign := holds.foreign
  mine := keeps.mine c holds.mine
  about := (keeps.hand c (.inl holds.mine)).trans holds.about
  order begun d before := (holds.order begun d before).trans keeps.begun

theorem Holds.notes (holds : Holds t c ρ σ l) {n : Report} (next : Next σ.world t c l n) :
    Moves t σ (some c) (σ.noted t n) := by
  refine .notes holds.mine ?_
  rw [holds.about]
  exact next

theorem Holds.noted (holds : Holds t c ρ σ l) {n : Report} (next : Next σ.world t c l n) :
    Holds t c ρ (σ.noted t n) ((t, n) :: l) where
  keeps := holds.keeps.moves (holds.notes next) fun d same => by
    cases same
    exact holds.foreign
  foreign := holds.foreign
  mine := holds.mine
  about := by rw [about_noted, if_pos next.about, holds.about]
  order _ d before := by
    cases next with
    | begins => exact (List.singleton_sublist.mpr (holds.keeps.begun.subset before)).cons_cons c
    | starts | fails => exact holds.order (by simp) d before

theorem SuperclassReady.later (ready : SuperclassReady t σ.world c) (there : σ.world.There c)
    (keeps : Keeps t σ τ) : SuperclassReady t τ.world c := by
  intro s above
  rw [keeps.cls there] at above
  rcases ready s above with initialized | mine
  · exact .inl (keeps.settled s (.ok ()) initialized)
  · exact .inr (keeps.mine s mine)

theorem told_own {w : World η} (mine : w.phase c = .inProgress t) : Told t w c (.ok ()) := by
  rw [Told, mine]
  exact ⟨rfl, rfl⟩

theorem told_done {w : World η} (done : w.phase c = .initialized) : Told t w c (.ok ()) := by
  rw [Told, done]

theorem told_refused {w : World η} {f : Failure} (failed : w.phase c = .failed f) :
    Told t w c (.error (.noClassDefFoundFrom (w.cls c).name f)) := by
  rw [Told, failed]

theorem Told.later (told : Told t σ.world c r) (keeps : Keeps t σ τ) : Told t τ.world c r := by
  unfold Told at told
  split at told
  · exact told.elim
  · rename_i mine
    obtain ⟨rfl, rfl⟩ := told
    exact told_own (keeps.mine c mine)
  · rename_i done
    subst told
    exact told_done (keeps.settled c (.ok ()) done)
  · rename_i f failed
    subst told
    rw [← keeps.cls (World.there_of_phase failed nofun)]
    exact told_refused (keeps.settled c (.error f) failed)

theorem Told.ready (told : Told t σ.world c (.ok ())) :
    σ.world.phase c = .initialized ∨ σ.world.phase c = .inProgress t := by
  unfold Told at told
  split at told
  · exact told.elim
  · rename_i mine
    exact .inr (told.1 ▸ mine)
  · rename_i done
    exact .inl done
  · cases told

def Decided (t : ThreadId) (c : ClassId) (ρ σ : Moment η Report) : InitDecision → Prop
  | .available => Keeps t ρ σ ∧ Told t σ.world c (.ok ())
  | .failed f => Keeps t ρ σ ∧ σ.world.phase c = .failed f
  | .proceed => Holds t c ρ σ []

theorem Decided.later {decision : InitDecision} (decided : Decided t c ρ σ decision)
    (keeps : Keeps t σ τ) : Decided t c ρ τ decision := by
  cases decision with
  | available => exact ⟨decided.1.trans keeps, decided.2.later keeps⟩
  | failed f => exact ⟨decided.1.trans keeps, keeps.settled c (.error f) decided.2⟩
  | proceed => exact Holds.later decided keeps

theorem Moves.resets {p : InitPhase} (refs : List ObjectId) (sound : Sound σ)
    (same : σ.world.phase c = p) :
    Moves t σ none (σ.inWorld (Exec.setPhase c p (σ.world.during refs))) := by
  refine .quiet ⟨?_, Nat.le_refl _, fun _ _ => rfl⟩ (sound.built.modifyState c ({ · with phase := p }))
  exact Registry.Quiet.modifyState (f := ({ · with phase := p })) same.symm

theorem decided_of_request {decision : InitDecision} {p : InitPhase} (refs : List ObjectId)
    (sound : Sound σ) (keeps : Keeps t ρ σ) (there : σ.world.There c)
    (found : (σ.world.phase c).request? t = some (decision, p)) :
    Moves t σ none (σ.inWorld (Exec.setPhase c p (σ.world.during refs))) ∧
      Decided t c ρ (σ.inWorld (Exec.setPhase c p (σ.world.during refs))) decision := by
  generalize phase : σ.world.phase c = q at found
  cases decides_of_request found with
  | takes =>
    have move : Moves t σ none
        (σ.inWorld (Exec.setPhase c (.inProgress t) (σ.world.during refs))) := .takes there phase
    have none : σ.about c = [] := (sound.fits c).none_of_uninitialized phase
    refine ⟨move, keeps.moves move nofun, fun hand => ?_, phase_taken _ there, none, nofun⟩
    rcases keeps.handed hand with mine | ⟨n, k, about, -⟩
    · cases mine.symm.trans phase
    · cases none.symm.trans about
  | own =>
    have move := Moves.resets (t := t) refs sound phase
    refine ⟨move, keeps.moves move nofun, ?_⟩
    exact told_own (phase_taken _ there)
  | done =>
    have move := Moves.resets (t := t) refs sound phase
    refine ⟨move, keeps.moves move nofun, ?_⟩
    exact told_done (phase_taken _ there)
  | refused =>
    have move := Moves.resets (t := t) refs sound phase
    exact ⟨move, keeps.moves move nofun, phase_taken _ there⟩

theorem obeys_requestInit (there : ρ.world.There c) (mine : env.thread = t) :
    Obeys discipline t
      (fun r τ => r.2.thread = t ∧ ∃ decision, r.1 = .ok decision ∧ Decided t c ρ τ decision) ρ
      ((ofExec (Exec.requestInit c)).runIn env) := by
  subst mine
  change Obeys discipline env.thread _ ρ ((ofExec (Exec.await fun w =>
    ((w.registry.state c).phase.request? env.thread).map fun r =>
      (.ok r.1, Exec.setPhase c r.2 w))).runIn env)
  refine obeys_await (fun σ refs r w keeps sound step => ?_)
    fun σ refs r w held τ keeps sound step later _ => ?_
  all_goals
    obtain ⟨⟨decision, p⟩, found, same⟩ := Option.map_eq_some_iff.mp step
    cases same
    have decided := decided_of_request refs sound keeps (keeps.there there) found
  · exact ⟨none, decided.1⟩
  · exact ⟨rfl, decision, rfl, decided.2.later later⟩

/-! The thread in charge. -/

def Concluded (t : ThreadId) (c : ClassId) (ρ σ : Moment η Report) (r : Except Failure Unit) :
    Prop :=
  ∃ l, Holds t c ρ σ l ∧ Outcome σ t c l r ∧ (r = .ok () → SuperclassReady t σ.world c)

theorem Concluded.later (concluded : Concluded t c ρ σ r) (sound : Sound σ)
    (keeps : Keeps t σ τ) : Concluded t c ρ τ r := by
  obtain ⟨l, holds, outcome, ready⟩ := concluded
  exact ⟨l, holds.later keeps, keeps.outcome sound.ordered holds.there outcome,
    fun ok => (ready ok).later holds.there keeps⟩

theorem obeys_raising {f : Failure} (raised : σ.world.Raised f)
    (holds : Holds t c ρ σ [(t, .fails c f), (t, .starts c), (t, .begins c)]) :
    Obeys discipline t (fun r τ => Concluded t c ρ τ r.1) σ
      ((raising (σ.world.cls c).name f).runIn env) := by
  refine obeys_bind (obeys_ask (Exec.isError · f) env) ?_ ?_
  · rintro g d τ τ' ⟨-, χ, refs, -, -, -, same⟩
    cases same
  rintro unwrapped d τ sound ⟨-, χ, refs, before, judged, after, same⟩
  have keeps := before.trans after
  -- whether the failure is an error does not depend on the moment of asking
  have error : unwrapped = true ↔ τ.world.IsError f := by
    rw [isError_later judged.ordered after.later after.classOf (before.raised raised),
      ← World.isError_iff judged.ordered]
    cases same
    cases f <;> rfl
  have concluded : Concluded t c ρ τ (.error (τ.world.classified c f)) :=
    ⟨_, holds.later keeps, .failed (keeps.raised raised), nofun⟩
  rw [World.classified, keeps.cls holds.there] at concluded
  cases unwrapped with
  | true =>
    rw [if_pos (error.mp rfl)] at concluded
    exact .done fun υ later _ => concluded.later sound later
  | false =>
    rw [if_neg fun is => Bool.noConfusion (error.mpr is)] at concluded
    exact .done fun υ later _ => concluded.later sound later

theorem obeys_callInitializer {m : Method}
    (holds : Holds t c ρ σ [(t, .starts c), (t, .begins c)])
    (superclass : SuperclassReady t σ.world c) :
    Obeys discipline t (fun r τ => Concluded t c ρ τ r.1) σ
      ((callInitializer c (σ.world.cls c).name m).runIn env) := by
  have minds : Exec.Within World.Minds
      (Exec.releasing (discard (Exec.callMethod m [])) : Exec η Unit) :=
    Exec.within_keeping (Exec.within_discard (Exec.within_callMethod Atomic.minds_link m []))
  refine obeys_outcome_bind (obeys_task (minds env) σ) fun q e υ _ keeps => ?_
  cases q with
  | ok a =>
    exact .done fun τ later _ => ⟨_, holds.later (keeps.trans later), .ran,
      fun _ => superclass.later holds.there (keeps.trans later)⟩
  | error f =>
    have failing {φ : Moment η Report} (later : Keeps t υ φ) (raised : φ.world.Raised f) :=
      (holds.later (keeps.trans later)).notes (.fails raised)
    refine obeys_note_bind (fun φ later _ raised => ⟨_, failing later raised⟩)
      fun φ later _ raised => ?_
    rw [← show (φ.world.cls c).name = (σ.world.cls c).name by
      rw [(keeps.trans later).cls holds.there]]
    exact obeys_raising raised ((holds.later (keeps.trans later)).noted (.fails raised))

theorem obeys_runInitializer (holds : Holds t c ρ σ [(t, .begins c)])
    (superclass : SuperclassReady t σ.world c) :
    Obeys discipline t (fun r τ => Concluded t c ρ τ r.1) σ
      ((Reporting.runInitializer c).runIn env) := by
  refine obeys_bind (obeys_askClass holds.there env) ?_ ?_
  · rintro f e τ _ ⟨-, same, -⟩
    cases same
  rintro x e τ sound ⟨keeps, same, -⟩
  cases same
  cases (σ.world.cls c).initializer? with
  | none =>
    exact .done fun υ later _ => ⟨_, holds.later (keeps.trans later), .bare,
      fun _ => superclass.later holds.there (keeps.trans later)⟩
  | some m =>
    have ready {υ : Moment η Report} (later : Keeps t τ υ) : SuperclassReady t υ.world c :=
      superclass.later holds.there (keeps.trans later)
    refine obeys_note_bind (fun υ later _ _ => ?_) fun υ later _ _ => ?_
    · exact ⟨_, (holds.later (keeps.trans later)).notes (.starts (ready later))⟩
    rw [← show (υ.world.cls c).name = (σ.world.cls c).name by
      rw [(keeps.trans later).cls holds.there]]
    have superclass := ready later
    exact obeys_callInitializer ((holds.later (keeps.trans later)).noted (.starts superclass))
      superclass

/-- What comes of a request for `s` that was made at the first moment. If the class fails in the hands
of `t` then it has been taken in hand after all that had been before. -/
def Answered (t : ThreadId) (s : ClassId) (ρ σ : Moment η Report) : Except Failure Unit → Prop
  | .ok _ => σ.world.phase s = .initialized ∨ σ.world.phase s = .inProgress t
  | .error g => ∃ h, σ.world.phase s = .failed h ∧
    (g = .noClassDefFoundFrom (σ.world.cls s).name h ∨
      g = h ∧ ∀ c ∈ ρ.begun, [s, c].Sublist σ.begun)

theorem Answered.later (answered : Answered t s ρ σ r) (keeps : Keeps t σ τ) :
    Answered t s ρ τ r := by
  cases r with
  | ok a =>
    rcases answered with done | mine
    · exact .inl (keeps.settled s (.ok ()) done)
    · exact .inr (keeps.mine s mine)
  | error g =>
    obtain ⟨h, failed, passed⟩ := answered
    refine ⟨h, keeps.settled s (.error h) failed, ?_⟩
    rw [keeps.cls (World.there_of_phase failed nofun)]
    exact passed.imp_right fun ⟨same, order⟩ => ⟨same, fun c begun => (order c begun).trans keeps.begun⟩

theorem Answered.noted (answered : Answered t s ρ σ r) (u : ThreadId) (n : Report) :
    Answered t s ρ (σ.noted u n) r := by
  cases r with
  | ok a => exact answered
  | error g =>
    obtain ⟨h, failed, passed⟩ := answered
    refine ⟨h, failed, passed.imp_right fun ⟨same, order⟩ => ⟨same, fun c begun => ?_⟩⟩
    exact (order c begun).trans (onward_noted u n).begun

theorem mem_begun_of_about (member : (t, .begins c) ∈ σ.about c) : c ∈ σ.begun :=
  List.mem_filterMap.mpr ⟨_, (List.mem_filter.mp member).1, rfl⟩

theorem obeys_superclassFirst {ask : ClassId → Noting η Report Unit}
    (asked : ∀ s e υ, s.index < c.index → υ.world.There s → e.thread = t →
      Obeys discipline t (fun r τ => Keeps t υ τ ∧ Answered t s υ τ r.1) υ ((ask s).runIn e))
    (ordered : σ.world.registry.Ordered) (holds : Holds t c ρ σ [(t, .begins c)])
    (mine : env.thread = t) :
    Obeys discipline t (fun r τ => Concluded t c ρ τ r.1) σ
      ((Reporting.superclassFirst ask c).runIn env) := by
  refine obeys_bind (obeys_askClass holds.there env) ?_ ?_
  · rintro f e υ τ ⟨-, same, -⟩
    cases same
  rintro x e τ - ⟨keeps, same, thread⟩
  cases same
  have held := holds.later keeps
  cases above : (σ.world.cls c).superclass with
  | none =>
    refine obeys_runInitializer held fun s here => ?_
    rw [keeps.cls holds.there, above] at here
    cases here
  | some s =>
    have less : s.index < c.index := ordered.superclass_lt above
    have known : τ.world.There s := Nat.lt_trans less held.there
    have still {υ : Moment η Report} (further : Keeps t τ υ) :
        (υ.world.cls c).superclass = some s := by
      rw [further.cls held.there, keeps.cls holds.there]
      exact above
    refine obeys_bind (asked s e τ less known (thread.trans mine)) ?_ ?_
    · rintro f e' υ φ ⟨further, answered⟩ later sound
      have further := further.trans later
      obtain ⟨h, failed, passed⟩ := answered.later later
      refine ⟨_, held.later further, .inherited (still further) failed ?_, nofun⟩
      refine passed.imp_right fun ⟨same, order⟩ => ⟨same, order c ?_⟩
      exact mem_begun_of_about (by rw [held.about]; exact List.mem_singleton_self _)
    · rintro a e' υ _ ⟨further, answered⟩
      refine obeys_runInitializer (held.later further) fun s' here => ?_
      cases (still further).symm.trans here
      exact answered

structure Recorded (t : ThreadId) (c : ClassId) (ρ σ : Moment η Report)
    (r : Except Failure Unit) : Prop where
  keeps : Keeps t ρ σ
  foreign : ¬ Hand t ρ c
  phase : σ.world.phase c = .finish r
  outcome : Outcome σ t c (σ.about c) r
  order : ∀ d ∈ ρ.begun, [c, d].Sublist σ.begun

theorem Recorded.later (recorded : Recorded t c ρ σ r) (sound : Sound σ) (keeps : Keeps t σ τ) :
    Recorded t c ρ τ r where
  keeps := recorded.keeps.trans keeps
  foreign := recorded.foreign
  phase := keeps.settled c r recorded.phase
  outcome := by
    rw [keeps.hand c (.inr recorded.outcome.head)]
    have there := World.there_of_phase recorded.phase (finish_left r)
    exact keeps.outcome sound.ordered there recorded.outcome
  order d before := (recorded.order d before).trans keeps.begun

theorem Outcome.begun (outcome : Outcome σ t c l r) : (t, .begins c) ∈ l := by
  cases outcome <;> simp

theorem Recorded.answered (recorded : Recorded t c ρ σ r) : Answered t c ρ σ r := by
  cases r with
  | ok a => exact .inl recorded.phase
  | error g => exact ⟨g, recorded.phase, .inr ⟨rfl, recorded.order⟩⟩

theorem Concluded.finishes (concluded : Concluded t c ρ σ r) (sound : Sound σ)
    (refs : List ObjectId) :
    Moves t σ (some c) (σ.inWorld (Exec.setPhase c (.finish r) (σ.world.during refs))) ∧
      Recorded t c ρ (σ.inWorld (Exec.setPhase c (.finish r) (σ.world.during refs))) r := by
  obtain ⟨l, holds, outcome, ready⟩ := concluded
  have order := holds.order outcome.begun
  rw [← holds.about] at outcome
  have move : Moves t σ (some c)
      (σ.inWorld (Exec.setPhase c (.finish r) (σ.world.during refs))) :=
    .finishes holds.mine outcome ready
  refine ⟨move, holds.keeps.moves move fun d same => ?_, holds.foreign, ?_, ?_, order⟩
  · cases same
    exact holds.foreign
  · exact phase_taken _ holds.there
  · exact move.onward.outcome sound.ordered holds.there outcome

theorem obeys_finishing (concluded : Concluded t c ρ σ r) (sound : Sound σ) :
    Obeys discipline t (fun q τ => Keeps t ρ τ ∧ Answered t c ρ τ q.1) σ
      ((finishing c r).runIn env) := by
  have records : Obeys discipline t (fun q τ => Recorded t c ρ τ r ∧ q.1 = .ok ()) σ
      ((ofExec (Exec.act (modify (Exec.setPhase c (.finish r))))).runIn env) := by
    refine obeys_await (fun υ refs q w later valid step => ?_)
      fun υ refs q w held τ later valid step further _ => ?_
    all_goals
      cases step
      have finishes := (concluded.later sound later).finishes valid
    · exact ⟨_, (finishes refs).1⟩
    · have valid := valid.moves (finishes refs).1
      exact ⟨(finishes refs).2.later valid further, rfl⟩
  refine obeys_bind records ?_ ?_
  · rintro f e τ υ ⟨-, same⟩
    cases same
  rintro a e τ valid ⟨recorded, -⟩
  have receives {υ : Moment η Report} (later : Keeps t τ υ) :
      Moves t υ (some c) (υ.noted t (.receives c r)) :=
    .receives (recorded.later valid later).phase (recorded.later valid later).outcome
  refine obeys_note_bind (fun υ later _ _ => ⟨_, receives later⟩) fun υ later _ _ => ?_
  have recorded := recorded.later valid later
  refine obeys_conclude fun φ further _ => ⟨?_, (recorded.answered.noted t (.receives c r)).later further⟩
  refine Keeps.trans (recorded.keeps.moves (receives later) ?_) further
  rintro _ ⟨⟩
  exact recorded.foreign

/-! A request. -/

theorem obeys_answering {x : Noting η Report Unit}
    (first : Obeys discipline t (fun q τ => Keeps t ρ τ ∧ Told t τ.world c q.1) ρ (x.runIn env)) :
    Obeys discipline t (fun q τ => Keeps t ρ τ ∧ Told t τ.world c q.1) ρ
      ((answering c x).runIn env) := by
  refine obeys_outcome_bind first fun r e σ _ ⟨keeps, told⟩ => ?_
  have answers {υ : Moment η Report} (later : Keeps t σ υ) :
      Moves t υ none (υ.noted t (.answers c r)) := .answers (told.later later)
  refine obeys_note_bind (fun υ later _ _ => ⟨none, answers later⟩) fun υ later _ _ => ?_
  have noted := later.moves (answers later) nofun
  exact obeys_conclude fun φ rest _ =>
    ⟨keeps.trans (noted.trans rest), told.later (noted.trans rest)⟩

theorem Told.answered (told : Told t σ.world c r) : Answered t c ρ σ r := by
  cases r with
  | ok a => exact told.ready
  | error g =>
    unfold Told at told
    split at told
    · exact told.elim
    · cases told.2
    · cases told
    · rename_i f failed
      cases told
      exact ⟨f, failed, .inl rfl⟩

theorem obeys_requestWithin (n : Nat) (enough : c.index < n) (there : ρ.world.There c)
    (mine : env.thread = t) :
    Obeys discipline t (fun r τ => Keeps t ρ τ ∧ Answered t c ρ τ r.1) ρ
      ((requestWithin n c).runIn env) := by
  -- a superclass has a smaller number, so the bound that is left is enough for its request
  induction n generalizing c ρ env with
  | zero => omega
  | succ n ih =>
    refine obeys_bind (obeys_requestInit there mine) ?_ ?_
    · rintro f e σ τ ⟨-, decision, same, -⟩
      cases same
    rintro decision e σ sound ⟨thread, _, ⟨⟩, decided⟩
    have since {x : Noting η Report Unit}
        (keeps : Keeps t ρ σ) (answers : Obeys discipline t
          (fun q τ => Keeps t σ τ ∧ Told t τ.world c q.1) σ (x.runIn e)) :
        Obeys discipline t (fun r τ => Keeps t ρ τ ∧ Answered t c ρ τ r.1) σ (x.runIn e) :=
      answers.weaken fun r τ _ ⟨later, told⟩ => ⟨keeps.trans later, told.answered⟩
    cases decision with
    | available =>
      obtain ⟨keeps, told⟩ := decided
      refine since keeps (obeys_answering ?_)
      exact .done fun τ later _ => ⟨later, told.later later⟩
    | failed f =>
      obtain ⟨keeps, failed⟩ := decided
      refine since keeps (obeys_answering (obeys_bind (obeys_askClass (keeps.there there) e) ?_ ?_))
      · rintro f' e' σ τ ⟨-, same, -⟩
        cases same
      · rintro x e' τ _ ⟨later, same, -⟩
        cases same
        refine .done fun φ further _ => ?_
        have later := later.trans further
        refine ⟨later, ?_⟩
        rw [← later.cls (keeps.there there)]
        exact told_refused (later.settled c (.error f) failed)
    | proceed =>
      have holds : Holds t c ρ σ [] := decided
      have begins {υ : Moment η Report} (later : Keeps t σ υ) := (holds.later later).notes .begins
      refine obeys_note_bind (fun υ later _ _ => ⟨_, begins later⟩) fun υ later valid _ => ?_
      have holding := (holds.later later).noted .begins
      have asked (s : ClassId) (e : Env) (φ : Moment η Report) (less : s.index < c.index)
          (known : φ.world.There s) (thread : e.thread = t) :
          Obeys discipline t (fun r τ => Keeps t φ τ ∧ Answered t s φ τ r.1) φ
            ((requestWithin n s).runIn e) :=
        ih (by omega) known thread
      refine obeys_outcome_bind (obeys_superclassFirst asked ?_ holding thread) ?_
      · exact valid.ordered
      rintro r e' τ valid concluded
      exact obeys_finishing concluded valid

theorem obeys_request (c : ClassId) (env : Env) (ρ : Moment η Report) :
    Obeys discipline t (fun _ τ => Keeps t ρ τ) ρ ((request c).runIn env) := by
  change Obeys discipline t _ ρ
    (.note (.asks c env.thread) ((requestWithin (c.index + 1) c).runIn env))
  have moves {σ : Moment η Report} (same : env.thread = t) :
      Moves t σ none (σ.noted t (.asks c env.thread)) := by
    rw [same]
    exact .asks
  refine .note (fun σ _ _ means => ⟨none, moves means.1⟩) fun σ keeps _ ⟨same, there⟩ => ?_
  have known : (σ.noted t (.asks c env.thread)).world.There c := there
  refine (obeys_requestWithin (c.index + 1) (by omega) known same).weaken fun r τ _ answered => ?_
  exact (keeps.moves (moves same) nofun).trans answered.1

theorem obeys_bystander {x : Annotated η Report α} (bystander : Bystander x)
    (ρ : Moment η Report) : Obeys discipline t (fun _ τ => Keeps t ρ τ) ρ x := by
  -- on the actions of the task; what it has kept from `ρ` is carried from one to the next
  induction bystander generalizing ρ with
  | done => exact .done fun σ keeps _ => keeps
  | remark _ ih =>
    have moves (σ : Moment η Report) (k : Remark) : Moves t σ none (σ.noted t (.remarks k)) :=
      .remarks
    refine .note (fun σ _ _ _ => ⟨none, moves σ _⟩) fun σ keeps _ _ => ?_
    exact Obeys.since (keeps.moves (moves σ _) nofun) (ih _)
  | act minds _ ih => exact obeys_minding minds ih
  | execute _ ih => exact .execute fun σ r keeps _ => Obeys.since keeps (ih r σ)
  | native _ ih => exact .native fun σ r keeps _ => Obeys.since keeps (ih r σ)
  | @request c env next _ ih =>
    exact (obeys_request c env ρ).bind fun r σ _ keeps => Obeys.since keeps (ih r σ)

theorem obeys_code {code : AnnotatedCode η Report} (bystanders : code.IsBystander) :
    code.Obeys discipline where
  execute _ m args env ρ := obeys_bystander (bystanders.execute m args env) ρ
  native _ f call env ρ := obeys_bystander (bystanders.native f call env) ρ

end ManagedRuntime.Reporting
