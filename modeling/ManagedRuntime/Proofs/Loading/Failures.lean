import ManagedRuntime.Proofs.Execution.Alone
import ManagedRuntime.Proofs.Execution.Unaided
import ManagedRuntime.Proofs.Loading.Charge
import ManagedRuntime.Proofs.Loading.OnceOnly

/-!
Failed initialisations. Any number of threads ask for classes, and initialisers are programs that do
so too. Main statement: the thread in charge is told what is recorded, a class that has failed stays
so, everybody else is told that the class cannot be had and why, the failure of an initialiser is
wrapped unless it is an error, and a class whose superclass has failed fails without its initialiser.
-/
namespace ManagedRuntime

namespace Reporting
variable {η α β : Type} {t : ThreadId} {ρ σ τ : Moment η Report} {c d s : ClassId} {h : Failure}
  {l : List (ThreadId × Report)} {r : Except Failure Unit}

/-! What reports tell. -/

theorem mem_about {n : Report} (noted : (t, n) ∈ σ.notes) (about : n.about? = some c) :
    (t, n) ∈ σ.about c :=
  List.mem_filter.mpr ⟨noted, decide_eq_true about⟩

theorem mem_notes {n : ThreadId × Report} (member : n ∈ σ.about c) : n ∈ σ.notes :=
  (List.mem_filter.mp member).1

theorem Outcome.unreceived (outcome : Outcome σ t c l r) (u : ThreadId) (q : Except Failure Unit) :
    (u, .receives c q) ∉ l := by
  cases outcome <;> simp

/-- The failure of an initialiser that has been reported is the one that counts. -/
theorem Outcome.of_fails (outcome : Outcome σ t c l r) {u : ThreadId} {f : Failure}
    (member : (u, .fails c f) ∈ l) : r = .error (σ.world.classified c f) := by
  cases outcome with
  | bare | ran | inherited => simp at member
  | failed raised =>
    simp only [List.mem_cons, Prod.mk.injEq, Report.fails.injEq, true_and, reduceCtorEq, and_false,
      List.not_mem_nil, or_false] at member
    rw [member.2]

theorem Stage.of_fails {w : World η} (stage : Stage w t c l) {u : ThreadId} {f : Failure}
    (member : (u, .fails c f) ∈ l) : u = t := by
  cases stage with
  | taken | begun | started => simp at member
  | failed raised =>
    simp only [List.mem_cons, Prod.mk.injEq, Report.fails.injEq, true_and, reduceCtorEq, and_false,
      List.not_mem_nil, or_false] at member
    exact member.1

def Caused (σ : Moment η Report) (c : ClassId) (g : Failure) : Prop :=
  (∃ t f, (t, .fails c f) ∈ σ.notes ∧ g = σ.world.classified c f) ∨
    (∀ t, (t, .starts c) ∉ σ.notes) ∧ ∃ s h, (σ.world.cls c).superclass = some s ∧
      σ.world.phase s = .failed h ∧ (g = h ∨ g = .noClassDefFoundFrom (σ.world.cls s).name h)

theorem Outcome.caused {g : Failure} (outcome : Outcome σ t c l (.error g))
    (part : ∀ n, n ∈ σ.about c ↔ n ∈ l ∨ ∃ r, n = (t, .receives c r) ∧ n ∈ σ.about c) :
    Caused σ c g := by
  generalize result : Except.error g = r at outcome
  cases outcome with
  | bare | ran => cases result
  | failed raised =>
    cases result
    refine .inl ⟨t, _, mem_notes ((part _).mpr (.inl List.mem_cons_self)), rfl⟩
  | inherited above failed passed =>
    cases result
    refine .inr ⟨fun u started => ?_, _, _, above, failed, ?_⟩
    · rcases (part _).mp (mem_about started rfl) with member | ⟨r, same, -⟩
      · simp at member
      · cases same
    · exact passed.symm.imp_left And.left

theorem Fits.caused (fits : Fits σ c) {g : Failure} (failed : σ.world.phase c = .failed g) :
    Caused σ c g := by
  have same {r : Except Failure Unit} (phase : σ.world.phase c = .finish r) : r = .error g :=
    finish_inj (phase.symm.trans failed)
  cases fits with
  | untouched _ phase => rcases phase with phase | phase <;> cases failed.symm.trans phase
  | inHand phase _ => cases failed.symm.trans phase
  | finished phase outcome =>
    rw [same phase] at outcome
    exact outcome.caused fun n => ⟨.inl, fun either => either.elim id fun ⟨_, _, member⟩ => member⟩
  | @received t r l phase about outcome =>
    rw [same phase] at outcome
    refine outcome.caused fun n => ?_
    rw [about, List.mem_cons]
    constructor
    · rintro (first | rest)
      · exact .inr ⟨r, first, .inl first⟩
      · exact .inl rest
    · rintro (rest | ⟨_, _, either⟩)
      · exact .inr rest
      · exact either

theorem Fits.of_fails (fits : Fits σ c) {u : ThreadId} {f : Failure}
    (noted : (u, .fails c f) ∈ σ.notes) :
    σ.world.phase c = .inProgress u ∨ σ.world.phase c = .failed (σ.world.classified c f) := by
  have member := mem_about noted rfl
  cases fits with
  | untouched none _ =>
    rw [none] at member
    cases member
  | inHand phase stage => exact .inl (phase.trans (congrArg _ (stage.of_fails member).symm))
  | finished phase outcome =>
    rw [outcome.of_fails member] at phase
    exact .inr phase
  | received phase about outcome =>
    rw [about, List.mem_cons] at member
    rcases member with same | member
    · cases same
    · rw [outcome.of_fails member] at phase
      exact .inr phase

theorem Next.ne_receives {w : World η} {n : Report} (next : Next w t c l n) (d : ClassId)
    (r : Except Failure Unit) : n ≠ .receives d r := by
  cases next <;> nofun

theorem Moves.receives_inv {x : Option ClassId} (move : Moves t σ x (σ.noted t (.receives c r))) :
    σ.world.phase c = .finish r ∧ Outcome σ t c (σ.about c) r := by
  generalize last : σ.noted t (.receives c r) = τ at move
  have notes : (t, .receives c r) :: σ.notes = τ.notes := congrArg Moment.notes last
  have apart : (t, .receives c r) :: σ.notes ≠ σ.notes := List.cons_ne_self _ _
  cases move with
  | quiet | takes | finishes => exact absurd notes apart
  | notes mine next =>
    cases notes
    exact absurd rfl (next.ne_receives c r)
  | receives phase outcome =>
    cases notes
    exact ⟨phase, outcome⟩
  | asks | answers | remarks => cases notes

theorem Moves.answers_inv {x : Option ClassId} (move : Moves t σ x (σ.noted t (.answers c r))) :
    Told t σ.world c r := by
  generalize last : σ.noted t (.answers c r) = τ at move
  have notes : (t, .answers c r) :: σ.notes = τ.notes := congrArg Moment.notes last
  have apart : (t, .answers c r) :: σ.notes ≠ σ.notes := List.cons_ne_self _ _
  cases move with
  | quiet | takes | finishes => exact absurd notes apart
  | notes mine next =>
    cases notes
    cases next.about
  | answers told =>
    cases notes
    exact told
  | asks | receives | remarks => cases notes

/-! A class below one that has failed. -/

def Fated (name : String) (h : Failure) : InitPhase → Prop
  | .uninitialized | .inProgress _ => True
  | .initialized => False
  | .failed f => f = .noClassDefFoundFrom name h

/-- Class `c` lies below `s`, which has failed and was not taken in hand after `c`. -/
structure Doomed (s c : ClassId) (h : Failure) (σ : Moment η Report) : Prop where
  above : (σ.world.cls c).superclass = some s
  failed : σ.world.phase s = .failed h
  unstarted : ∀ t, (t, .starts c) ∉ σ.notes
  order : ¬ [s, c].Sublist σ.begun
  fate : Fated (σ.world.cls s).name h (σ.world.phase c)

theorem there_of_superclass {w : World η} (above : (w.cls c).superclass = some s) : w.There c := by
  refine Classical.byContradiction fun outside => ?_
  rw [show w.cls c = default from Registry.cls_of_unloaded (Nat.le_of_not_lt outside)] at above
  cases above

theorem Fits.begun (fits : Fits σ c) (noted : (t, .begins c) ∈ σ.notes) :
    σ.world.phase c ≠ .uninitialized := by
  intro first
  have member := mem_about noted rfl
  rw [fits.none_of_uninitialized first] at member
  cases member

theorem doomed_of_failed (sound : Sound σ) (first : σ.world.phase c = .uninitialized)
    (above : (σ.world.cls c).superclass = some s) (failed : σ.world.phase s = .failed h) :
    Doomed s c h σ := by
  have none := (sound.fits c).none_of_uninitialized first
  refine ⟨above, failed, fun t started => ?_, fun order => ?_, first ▸ trivial⟩
  · have member := mem_about started rfl
    rw [none] at member
    cases member
  · obtain ⟨⟨u, n⟩, noted, begins⟩ :=
      List.mem_filterMap.mp (order.subset (List.mem_cons_of_mem s List.mem_cons_self))
    cases n <;> cases begins
    exact (sound.fits c).begun noted first

theorem begun_noted (t : ThreadId) (n : Report) :
    (σ.noted t n).begun = n.begun?.toList ++ σ.begun := by
  cases n <;> rfl

theorem Doomed.noted (doomed : Doomed s c h σ) (t : ThreadId) {n : Report} (idle : n ≠ .starts c)
    (other : n ≠ .begins s) : Doomed s c h (σ.noted t n) where
  above := doomed.above
  failed := doomed.failed
  unstarted u noted := by
    rcases List.mem_cons.mp noted with same | before
    · cases same
      exact idle rfl
    · exact doomed.unstarted u before
  order sublist := by
    rw [begun_noted] at sublist
    cases n with
    | begins d =>
      cases sublist with
      | cons _ rest => exact doomed.order rest
      | cons_cons _ rest => exact other rfl
    | asks | starts | fails | receives | answers | remarks => exact doomed.order sublist
  fate := doomed.fate

/-- Only `c` itself can be begun from then on, its initialiser cannot be called, and it comes to
nothing. -/
theorem Doomed.moves (doomed : Doomed s c h σ) {x : Option ClassId} (move : Moves t σ x τ) :
    Doomed s c h τ := by
  have onward := move.onward
  have there := there_of_superclass doomed.above
  have known : σ.world.There s := World.there_of_phase doomed.failed nofun
  have unready : ¬ SuperclassReady t σ.world c := fun ready => by
    rcases ready s doomed.above with phase | phase <;> cases phase.symm.trans doomed.failed
  -- unless a report is made, what is left to see is the phase of `c`
  have goesOn {p : InitPhase} (notes : τ.notes = σ.notes) (phase : τ.world.phase c = p)
      (fate : Fated (σ.world.cls s).name h p) : Doomed s c h τ := by
    refine ⟨?_, onward.settled s (.error h) doomed.failed, ?_, ?_, ?_⟩
    · rw [onward.cls there]
      exact doomed.above
    · rw [notes]
      exact doomed.unstarted
    · rw [Moment.begun, notes]
      exact doomed.order
    · rw [onward.cls known, phase]
      exact fate
  cases move with
  | quiet spares _ => exact goesOn rfl (spares.quiet.phase c there) doomed.fate
  | @takes d refs inside first =>
    by_cases same : c = d
    · subst same
      exact goesOn rfl (phase_taken _ inside) trivial
    · exact goesOn rfl (phase_other _ same) doomed.fate
  | @notes d n mine next =>
    refine doomed.noted t ?_ ?_
    · rintro rfl
      cases next.about
      generalize σ.about c = l at next
      cases next with
      | starts ready => exact unready ready
    · rintro rfl
      cases next.about
      cases mine.symm.trans doomed.failed
  | @finishes d r refs mine outcome ready =>
    by_cases same : c = d
    · subst same
      refine goesOn rfl (phase_taken _ there) ?_
      generalize about : σ.about c = l at outcome
      cases outcome with
      | bare | ran => exact absurd (ready rfl) unready
      | failed raised =>
        have started : (t, .starts c) ∈ σ.about c := by
          rw [about]
          simp
        exact absurd (mem_notes started) (doomed.unstarted t)
      | inherited above' failed' passed =>
        cases doomed.above.symm.trans above'
        cases doomed.failed.symm.trans failed'
        rcases passed with rfl | ⟨-, order⟩
        · rfl
        · exact absurd order doomed.order
    · exact goesOn rfl (phase_other _ same) doomed.fate
  | receives | asks | answers | remarks => exact doomed.noted t nofun nofun

/-! Requests that others do not disturb. -/

def Respects (w v : World η) : Prop :=
  Registry.Later w.registry v.registry ∧ ∀ d f, w.phase d = .failed f → v.phase d = .failed f

theorem Respects.trans {w v u : World η} (first : Respects w v) (second : Respects v u) :
    Respects w u :=
  ⟨first.1.trans second.1, fun d f failed => second.2 d f (first.2 d f failed)⟩

theorem Respects.there {w v : World η} (respects : Respects w v) (there : w.There c) : v.There c :=
  Nat.lt_of_lt_of_le there respects.1.size

theorem Respects.cls {w v : World η} (respects : Respects w v) (there : w.There c) :
    v.cls c = w.cls c := respects.1.cls c there

theorem Respects.like {w v u : World η} (respects : Respects w v) (like : v.Like u) :
    Respects w u := by
  refine respects.trans ⟨?_, fun d f failed => ?_⟩
  · rw [like.registry]
    exact .refl _
  · rw [World.phase, like.registry]
    exact failed

section unaided
variable {rely does : World η → World η → Prop} {w : World η} {env : Env} {f : Failure}
  (respects : ∀ {w v}, rely w v → Respects w v) (likes : ∀ {w v}, w.Like v → does w v)
include respects likes

theorem unaided_askClass {T : Except Failure Class → Env → World η → Prop} (there : w.There c)
    (holds : ∀ d v, Respects w v → T (.ok (w.cls c)) d v) :
    Exec.Unaided rely does w env (Exec.act (Atomic.ask (·.cls c))) T := by
  refine Exec.unaided_act fun y refs change => ⟨likes (.during y _), ?_⟩
  have respected := (respects change).like (.during y (env.references ++ refs))
  refine (?_ : T (.ok ((y.during (env.references ++ refs)).cls c)) _ _)
  rw [respected.cls there]
  exact holds _ _ respected

theorem unaided_refused (failed : w.phase c = .failed f) (n : Nat) :
    Exec.Unaided rely does w env (Exec.initializeWithin (n + 1) c) fun r _ u =>
      r = .error (.noClassDefFoundFrom (w.cls c).name f) ∧ Respects w u := by
  have there : w.There c := World.there_of_phase failed nofun
  refine Exec.unaided_bind (Exec.unaided_get_bind (Exec.unaided_await fun y refs change => ?_))
  have still : y.phase c = .failed f := (respects change).2 c f failed
  have like : y.Like (Exec.setPhase c (.failed f) (y.during (env.references ++ refs))) := by
    have same : y.registry.modifyState c ({ · with phase := .failed f }) = y.registry := by
      apply Registry.modifyState_same
      rw [← still]
      rfl
    exact ⟨same, rfl⟩
  refine ⟨.ok (.failed f), Exec.setPhase c (.failed f) (y.during (env.references ++ refs)), ?_,
    likes like, ?_⟩
  · rw [show ((y.during _).registry.state c).phase = .failed f from still]
    rfl
  · have respected := (respects change).like like
    refine Exec.unaided_bind (unaided_askClass respects likes (respected.there there) fun d v later => ?_)
    refine Exec.unaided_conclude ⟨?_, respected.trans later⟩
    rw [respected.cls there]

end unaided

def Leaves (c : ClassId) (w v : World η) : Prop := Respects w v ∧ v.phase c = w.phase c

/-- A class below one that has failed is taken in hand and fails with nothing run. -/
theorem unaided_below {w : World η} {env : Env} (ordered : w.registry.Ordered)
    (first : w.phase c = .uninitialized) (above : (w.cls c).superclass = some s)
    (failed : w.phase s = .failed h) :
    Exec.Unaided (Leaves c) (fun x v => ∀ d ≠ c, v.phase d = x.phase d) w env
      (Exec.initializeClass c) fun r _ u =>
        r = .error (.noClassDefFoundFrom (w.cls s).name h) ∧
          u.phase c = .failed (.noClassDefFoundFrom (w.cls s).name h) := by
  have there := there_of_superclass above
  have known : w.There s := World.there_of_phase failed nofun
  have less := ordered.superclass_lt above
  have apart : s ≠ c := fun same => Nat.lt_irrefl _ (same ▸ less)
  have respects {w v : World η} (leaves : Leaves c w v) : Respects w v := leaves.1
  have likes {w v : World η} (like : w.Like v) (d : ClassId) (_ : d ≠ c) : v.phase d = w.phase d := by
    rw [World.phase, like.registry]
    rfl
  have sets (p : InitPhase) (x : World η) (refs : List ObjectId) :
      ∀ d ≠ c, (Exec.setPhase c p (x.during refs)).phase d = x.phase d := fun d other => by
    rw [World.phase_setPhase, if_neg fun both => other both.1]
    rfl
  obtain ⟨n, index⟩ : ∃ n, c.index = n + 1 := ⟨c.index - 1, by omega⟩
  unfold Exec.initializeClass
  rw [index]
  refine Exec.unaided_bind (Exec.unaided_get_bind (Exec.unaided_await fun y refs change => ?_))
  let v := Exec.setPhase c (.inProgress env.thread) (y.during (env.references ++ refs))
  refine ⟨.ok .proceed, v, ?_, sets _ y _, ?_⟩
  · have phase : ((y.during (env.references ++ refs)).registry.state c).phase = .uninitialized :=
      change.2.trans first
    rw [phase]
    rfl
  have later : Registry.Later w.registry v.registry :=
    change.1.1.trans (.modifyState c ({ · with phase := .inProgress env.thread }))
  have below : (v.cls c).superclass = some s := by
    rw [show v.cls c = w.cls c from later.cls c there]
    exact above
  have failed : v.phase s = .failed h := (sets _ y _ s apart).trans (change.1.2 s h failed)
  refine Exec.unaided_bind (Exec.unaided_outcome (Exec.unaided_bind ?_))
  refine unaided_askClass respects likes (there_of_superclass below) fun d u passed => ?_
  simp only [below]
  have failed : u.phase s = .failed h := passed.2 s h failed
  have same : u.cls s = w.cls s := (later.trans passed.1).cls s known
  refine Exec.unaided_bind ((unaided_refused respects likes failed n).weaken fun r e x refused => ?_)
  obtain ⟨rfl, further⟩ := refused
  have inside : x.There c := Nat.lt_of_lt_of_le there (later.trans (passed.trans further).1).size
  refine Exec.unaided_bind (Exec.unaided_act fun z refs change => ⟨sets _ z _, ?_⟩)
  rw [same]
  refine Exec.unaided_conclude ⟨rfl, ?_⟩
  exact (World.phase_setPhase _ _ _).trans (if_pos ⟨rfl, change.1.there inside⟩)

/-! Many threads. -/

open Initialization (Fresh)

theorem fresh_of_built {r : Registry} (built : r.Built) (phases : ∀ i < r.loaded.size,
    (r.state ⟨i⟩).phase = (ClassState.initial (r.cls ⟨i⟩)).phase) : Fresh r :=
  ⟨built.ordered, fun c there => phases c.index there⟩

theorem sound_of_fresh (built : σ.world.registry.Built) (fresh : Fresh σ.world.registry)
    (unnoted : σ.notes = []) : Sound σ := by
  refine ⟨built, fun c => ?_⟩
  have none : σ.about c = [] := by rw [Moment.about, unnoted]; rfl
  refine .untouched none ?_
  by_cases there : σ.world.There c
  · rw [World.phase, fresh.phase c there]
    unfold ClassState.initial
    split
    · exact .inl rfl
    · exact .inr rfl
  · exact .inl (World.phase_not_there there)

variable {code : AnnotatedCode η Report} {p q : Pool η Report}

theorem kept_of_run (bystanders : code.IsBystander) (built : p.moment.world.registry.Built)
    (fresh : Fresh p.moment.world.registry) (unnoted : p.moment.notes = [])
    (tasks : ∀ t, Bystander (p.tasks t)) (run : Pool.Run code meant p q) : q.Kept discipline := by
  have start : p.Kept discipline :=
    ⟨sound_of_fresh built fresh unnoted,
      fun t => (obeys_bystander (tasks t) _).weaken fun _ _ _ _ => trivial⟩
  exact start.run (obeys_code bystanders) run

/-- What threads are told goes together with what is recorded. -/
structure Truthful (q : Pool η Report) : Prop where
  /-- The thread in charge is told what is recorded, and is the only one to be told so. -/
  receives : ∀ t c r next, q.tasks t = .note (.receives c r) next →
    q.moment.world.phase c = .finish r ∧ (t, .begins c) ∈ q.moment.notes ∧
      ∀ u r', (u, .receives c r') ∉ q.moment.notes
  answers : ∀ t c r next, q.tasks t = .note (.answers c r) next → Told t q.moment.world c r
  fails : ∀ t c f, (t, .fails c f) ∈ q.moment.notes → q.moment.world.phase c = .inProgress t ∨
    q.moment.world.phase c = .failed (q.moment.world.classified c f)
  caused : ∀ c g, q.moment.world.phase c = .failed g → Caused q.moment c g

structure Lasts (σ τ : Moment η Report) : Prop where
  failed : ∀ c f, σ.world.phase c = .failed f → τ.world.phase c = .failed f
  below : ∀ s c h, σ.world.phase c = .uninitialized → (σ.world.cls c).superclass = some s →
    σ.world.phase s = .failed h →
    (∀ t, (t, .starts c) ∉ τ.notes) ∧ Fated (σ.world.cls s).name h (τ.world.phase c)

theorem truthful_of_kept (kept : q.Kept discipline) : Truthful q := by
  have sound : Sound q.moment := kept.sound
  have noting {t : ThreadId} {n : Report} {next : Annotated η Report Unit}
      (here : q.tasks t = .note n next) (means : meant t q.moment n) :
      ∃ x, Moves t q.moment x (q.moment.noted t n) := by
    have obeys := kept.obeys t
    rw [here] at obeys
    cases obeys with
    | note moves _ => exact moves q.moment (Keeps.refl t _) sound means
  refine ⟨fun t c r next here => ?_, fun t c r next here => ?_, fun t c f noted => ?_, fun c g => ?_⟩
  · obtain ⟨x, move⟩ := noting here trivial
    obtain ⟨phase, outcome⟩ := move.receives_inv
    refine ⟨phase, mem_notes outcome.begun, fun u r' noted => ?_⟩
    exact outcome.unreceived u r' (mem_about noted rfl)
  · obtain ⟨x, move⟩ := noting here trivial
    exact move.answers_inv
  · exact (sound.fits c).of_fails noted
  · exact (sound.fits c).caused

theorem lasts_of_kept (kept : p.Kept discipline) (bystanders : code.IsBystander)
    (run : Pool.Run code meant p q) : Lasts p.moment q.moment := by
  have disciplined := obeys_code bystanders
  have onward : Onward p.moment q.moment :=
    kept.invariant disciplined (fun _ _ _ _ ⟨_, move⟩ before => before.trans move.onward)
      (.refl _) run
  refine ⟨fun c f failed => onward.settled c (.error f) failed, fun s c h first above failed => ?_⟩
  have doomed : Doomed s c h q.moment :=
    kept.invariant disciplined (fun _ _ _ _ ⟨_, move⟩ before => before.moves move)
      (doomed_of_failed kept.sound first above failed) run
  refine ⟨doomed.unstarted, ?_⟩
  rw [← onward.cls (World.there_of_phase failed nofun)]
  exact doomed.fate

/-- After any run what has been told and recorded is as it should be, and it lasts. A class that has
failed is refused at once, and one below it that is asked for fails with nothing run. Without its
reports a request is the runtime's own program. A call is a bystander. -/
theorem failures_recorded (bystanders : code.IsBystander) (built : p.moment.world.registry.Built)
    (fresh : Fresh p.moment.world.registry) (unnoted : p.moment.notes = [])
    (tasks : ∀ t, Bystander (p.tasks t)) (run : Pool.Run code meant p q) :
    Truthful q ∧
      (∀ q', Pool.Run code meant q q' → Lasts q.moment q'.moment) ∧
      (∀ (w : World η) env c f, w.phase c = .failed f →
        Exec.Unaided Respects World.Like w env (Exec.initializeClass c) fun r _ _ =>
          r = .error (.noClassDefFoundFrom (w.cls c).name f)) ∧
      (∀ (w : World η) env s c h, w.registry.Ordered → w.phase c = .uninitialized →
        (w.cls c).superclass = some s → w.phase s = .failed h →
        Exec.Unaided (Leaves c) (fun x v => ∀ d ≠ c, v.phase d = x.phase d) w env
          (Exec.initializeClass c) fun r _ u =>
            r = .error (.noClassDefFoundFrom (w.cls s).name h) ∧
              u.phase c = .failed (.noClassDefFoundFrom (w.cls s).name h)) ∧
      (∀ c, (request c : Noting η Report Unit).plain = Exec.initializeClass c) ∧
      ∀ m args, IsBystander (.ofExec (Exec.callMethod m args) : Noting η Report _) := by
  have kept := kept_of_run bystanders built fresh unnoted tasks run
  refine ⟨truthful_of_kept kept, fun q' further => lasts_of_kept kept bystanders further, ?_, ?_,
    plain_request, isBystander_callMethod⟩
  · exact fun w env c f failed =>
      (unaided_refused id id failed c.index).weaken fun _ _ _ refused => refused.1
  · exact fun w env s c h => unaided_below

/-! A class that fails, and a class below it. -/

instance (w : World η) (f : Failure) : Decidable (w.Raised f) := by
  cases f with
  | thrown o name =>
    exact inferInstanceAs (Decidable (o.index < w.heap.objects.size ∧ w.There (w.classOf o)))
  | _ => exact isTrue trivial

instance (t : ThreadId) (σ : Moment η Report) (n : Report) : Decidable (meant t σ n) :=
  match n with
  | .asks c u => inferInstanceAs (Decidable (u = t ∧ σ.world.There c))
  | .fails _ f => inferInstanceAs (Decidable (σ.world.Raised f))
  | .begins _ | .starts _ | .receives .. | .answers .. | .remarks _ => isTrue trivial

def layered : Registry :=
  let clinit (d : ClassDef) := d.method "<clinit>" "()V" (.isPublic ||| .isStatic)
  let root := (Registry.empty.define (ClassDef.named Registry.rootName).root none).2
  [clinit (.named "C"), clinit ((ClassDef.named "D").extending "C"), clinit (.named "E"),
    .named "java/lang/Error", (ClassDef.named "Oops").extending "java/lang/Error"].foldl
      (fun r d => (r.define d none).2) root

theorem built_layered : layered.Built :=
  (((((Registry.Built.empty.define _ _).define _ _).define _ _).define _ _).define _ _).define _ _

theorem fresh_layered : Fresh layered := fresh_of_built built_layered (by decide +kernel)

def oops : Failure := .thrown ⟨0⟩ "Oops"

def failingCode : AnnotatedCode Unit Report where
  execute m _ :=
    if m.className = "C" then request ⟨9⟩ >>= fun _ => throw oops else throw .nullReference
  native _ _ := throw .nullReference

theorem isBystander_failingCode : failingCode.IsBystander where
  execute m _ := by
    by_cases first : m.className = "C"
    · simp only [failingCode, if_pos first]
      exact isBystander_bind (isBystander_request _) fun _ => isBystander_throw oops
    · simp only [failingCode, if_neg first]
      exact isBystander_throw .nullReference
  native _ _ := isBystander_throw .nullReference

def layeredPool : Pool Unit Report where
  moment := ⟨{ Boot.initialWorld .silent layered 0 with
    heap := { Heap.empty 0 0 with
      objects := #[{ cls := ⟨14⟩, fields := #[], payload := .plain }] } }, []⟩
  tasks t := ((request (if t = ⟨0⟩ then ⟨11⟩ else if t = ⟨2⟩ then ⟨12⟩ else ⟨10⟩)).runIn
    (.new t 8)).bind fun _ => .done ()

theorem bystander_layeredPool (t : ThreadId) : Bystander (layeredPool.tasks t) :=
  .request fun _ => .done

/-- The upper class fails with the error that its initialiser throws, and the third one with a failure
that wraps what is no error. Then thread `0` is told of the lower class, whose initialiser is not
called. -/
theorem lower_failed_with_upper :
    ∃ q q', Pool.Run failingCode meant layeredPool q ∧ Pool.Run failingCode meant q q' ∧
      q.moment.world.IsError oops ∧ q.moment.world.phase ⟨10⟩ = .failed oops ∧
      ¬ q.moment.world.IsError .nullReference ∧
      q.moment.world.phase ⟨12⟩ = .failed (.exceptionInInitializer "E" .nullReference) ∧
      q'.moment.world.phase ⟨11⟩ = .failed (.noClassDefFoundFrom "C" oops) ∧
      ∀ t, (t, .starts ⟨11⟩) ∉ q'.moment.notes := by
  have driven : (layeredPool.drive failingCode meant
      (List.replicate 20 ⟨1⟩ ++ List.replicate 13 ⟨2⟩)).map (fun q =>
        ((Exec.isError q.moment.world oops, Exec.isError q.moment.world .nullReference),
          (q.moment.world.phase ⟨10⟩, q.moment.world.phase ⟨11⟩, q.moment.world.phase ⟨12⟩),
          (q.moment.world.cls ⟨11⟩).superclass,
          (q.drive failingCode meant (List.replicate 9 ⟨0⟩)).map (·.moment.world.phase ⟨11⟩))) =
      some ((true, false), (.failed oops, .uninitialized,
        .failed (.exceptionInInitializer "E" .nullReference)), some ⟨10⟩,
        some (.failed (.noClassDefFoundFrom "C" oops))) := by
    decide +kernel
  obtain ⟨q, drove, same⟩ := Option.map_eq_some_iff.mp driven
  simp only [Prod.mk.injEq] at same
  obtain ⟨⟨error, other⟩, ⟨upper, first, third⟩, above, later⟩ := same
  obtain ⟨q', drove', lower⟩ := Option.map_eq_some_iff.mp later
  have run := Pool.run_of_drive drove
  have run' := Pool.run_of_drive drove'
  have fresh : Fresh layeredPool.moment.world.registry := fresh_layered
  obtain ⟨-, lasts, -⟩ :=
    failures_recorded isBystander_failingCode built_layered fresh rfl bystander_layeredPool run
  have sound : Sound q.moment :=
    (kept_of_run isBystander_failingCode built_layered fresh rfl bystander_layeredPool run).sound
  rw [World.isError_iff sound.ordered] at error
  rw [← Bool.not_eq_true, World.isError_iff sound.ordered] at other
  exact ⟨q, q', run, run', error, upper, other, third, lower,
    ((lasts q' run').below ⟨10⟩ ⟨11⟩ _ first above upper).1⟩

end Reporting
end ManagedRuntime
