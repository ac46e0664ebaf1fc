import ManagedRuntime.Proofs.Class.Names
import ManagedRuntime.Proofs.Class.Subtyping
import ManagedRuntime.Proofs.Execution.Interleaving
import ManagedRuntime.Proofs.Loading.Reports

/-!
What has been reported of each class, and its phase. The reports of one class are the work of one
thread; where they stop tells how far the initialisation has come, and once it is over they tell how
it ended. Main statements: the moves of threads keep phases and reports in step, a class that has
failed stays failed, and what one thread does leaves the reports of the classes in the hands of
another as they are.
-/
namespace ManagedRuntime
variable {η : Type}

namespace World
variable (w : World η)

def There (c : ClassId) : Prop := c.index < w.registry.loaded.size

instance (c : ClassId) : Decidable (w.There c) := inferInstanceAs (Decidable (_ < _))

def phase (c : ClassId) : InitPhase := (w.registry.state c).phase

def Raised : Failure → Prop
  | .thrown o _ => o.index < w.heap.objects.size ∧ w.There (w.classOf o)
  | _ => True

/-- A failure of the runtime whose managed class has a name that ends so, or a thrown object of the
class `java/lang/Error` or one below it. -/
inductive IsError : Failure → Prop
  | runtime {f : Failure} (own : ∀ o name, f ≠ .thrown o name)
      (named : "Error".toList <:+ f.className.toList) : IsError f
  | thrown {o : ObjectId} {name : String} {d : ClassId}
      (inherits : w.registry.Inherits (w.classOf o) d) (named : (w.cls d).name = "java/lang/Error") :
      IsError (.thrown o name)

open Classical in
noncomputable def classified (c : ClassId) (f : Failure) : Failure :=
  if w.IsError f then f else .exceptionInInitializer (w.cls c).name f

variable {w}

theorem isError_iff (ordered : w.registry.Ordered) (f : Failure) :
    Exec.isError w f = true ↔ w.IsError f := by
  have ending (s : String) : s.endsWith "Error" = true ↔ "Error".toList <:+ s.toList := by
    rw [String.endsWith_eq_endsWith_toSlice, String.Slice.endsWith_string_iff]
    simp
  cases f with
  | thrown o name =>
    rw [Exec.isError, List.any_eq_true]
    constructor
    · rintro ⟨d, member, named⟩
      exact .thrown ((Registry.mem_superChain_iff ordered _ d).mp member) (beq_iff_eq.mp named)
    · intro error
      cases error with
      | runtime own => exact absurd rfl (own o name)
      | thrown inherits named =>
        exact ⟨_, (Registry.mem_superChain_iff ordered _ _).mpr inherits, beq_iff_eq.mpr named⟩
  | _ =>
    refine (ending _).trans ⟨fun named => .runtime nofun named, fun error => ?_⟩
    cases error with
    | runtime own named => exact named

theorem phase_not_there {c : ClassId} (outside : ¬ w.There c) : w.phase c = .uninitialized := by
  have absent : w.registry.loaded[c.index]? = none :=
    Array.getElem?_eq_none (Nat.le_of_not_lt outside)
  rw [phase, Registry.state, absent]
  rfl

theorem there_of_phase {c : ClassId} {p : InitPhase} (here : w.phase c = p)
    (left : p ≠ .uninitialized) : w.There c := by
  refine Classical.byContradiction fun outside => left ?_
  rw [← here, phase_not_there outside]

theorem phase_setPhase (c : ClassId) (p : InitPhase) (d : ClassId) :
    (Exec.setPhase c p w).phase d = if d = c ∧ w.There c then p else w.phase d := by
  have state : (Exec.setPhase c p w).registry.state d = _ :=
    Registry.state_modifyState (r := w.registry) c ({ · with phase := p }) d
  rw [phase, state]
  by_cases same : d = c ∧ w.There c
  · rw [if_pos same]
    exact congrArg ClassState.phase (if_pos same)
  · rw [if_neg same]
    exact congrArg ClassState.phase (if_neg same)

end World

def Report.about? : Report → Option ClassId
  | begins c | starts c | fails c _ | receives c _ => some c
  | asks .. | answers .. | remarks _ => none

def Report.begun? : Report → Option ClassId
  | begins c => some c
  | _ => none

namespace Moment
variable (σ : Moment η Report)

def about (c : ClassId) : List (ThreadId × Report) := σ.notes.filter fun n => n.2.about? = some c

def begun : List ClassId := σ.notes.filterMap fun n => n.2.begun?

end Moment

namespace Reporting

inductive Stage (w : World η) (t : ThreadId) (c : ClassId) : List (ThreadId × Report) → Prop
  | taken : Stage w t c []
  | begun : Stage w t c [(t, .begins c)]
  | started : Stage w t c [(t, .starts c), (t, .begins c)]
  | failed {f : Failure} (raised : w.Raised f) :
      Stage w t c [(t, .fails c f), (t, .starts c), (t, .begins c)]

/-- How the initialisation of `c` by `t` has ended, with the reports of it until then. A class whose
superclass fails in the hands of the same thread fails with the same failure. -/
inductive Outcome (σ : Moment η Report) (t : ThreadId) (c : ClassId) :
    List (ThreadId × Report) → Except Failure Unit → Prop
  | bare : Outcome σ t c [(t, .begins c)] (.ok ())
  | ran : Outcome σ t c [(t, .starts c), (t, .begins c)] (.ok ())
  | failed {f : Failure} (raised : σ.world.Raised f) :
      Outcome σ t c [(t, .fails c f), (t, .starts c), (t, .begins c)]
        (.error (σ.world.classified c f))
  | inherited {s : ClassId} {h g : Failure} (above : (σ.world.cls c).superclass = some s)
      (failed : σ.world.phase s = .failed h)
      (passed : g = .noClassDefFoundFrom (σ.world.cls s).name h ∨
        g = h ∧ [s, c].Sublist σ.begun) : Outcome σ t c [(t, .begins c)] (.error g)

inductive Fits (σ : Moment η Report) (c : ClassId) : Prop
  | untouched (about : σ.about c = [])
      (phase : σ.world.phase c = .uninitialized ∨ σ.world.phase c = .initialized)
  | inHand {t : ThreadId} (phase : σ.world.phase c = .inProgress t)
      (stage : Stage σ.world t c (σ.about c))
  | finished {t : ThreadId} {r : Except Failure Unit} (phase : σ.world.phase c = .finish r)
      (outcome : Outcome σ t c (σ.about c) r)
  | received {t : ThreadId} {r : Except Failure Unit} {l : List (ThreadId × Report)}
      (phase : σ.world.phase c = .finish r) (about : σ.about c = (t, .receives c r) :: l)
      (outcome : Outcome σ t c l r)

def Hand (t : ThreadId) (σ : Moment η Report) (c : ClassId) : Prop :=
  σ.world.phase c = .inProgress t ∨
    ∃ n l, σ.about c = (t, n) :: l ∧ ∀ r, n ≠ .receives c r

def SuperclassReady (t : ThreadId) (w : World η) (c : ClassId) : Prop :=
  ∀ s, (w.cls c).superclass = some s → w.phase s = .initialized ∨ w.phase s = .inProgress t

def Told (t : ThreadId) (w : World η) (c : ClassId) (r : Except Failure Unit) : Prop :=
  match w.phase c with
  | .uninitialized => False
  | .inProgress u => u = t ∧ r = .ok ()
  | .initialized => r = .ok ()
  | .failed f => r = .error (.noClassDefFoundFrom (w.cls c).name f)

inductive Next (w : World η) (t : ThreadId) (c : ClassId) :
    List (ThreadId × Report) → Report → Prop
  | begins : Next w t c [] (.begins c)
  | starts (ready : SuperclassReady t w c) : Next w t c [(t, .begins c)] (.starts c)
  | fails {f : Failure} (raised : w.Raised f) :
      Next w t c [(t, .starts c), (t, .begins c)] (.fails c f)

/-- What thread `t` does to phases and reports in one step. The class is the one in its hands whose
reports or phase it takes further. -/
inductive Moves (t : ThreadId) (σ : Moment η Report) : Option ClassId → Moment η Report → Prop
  | quiet {w : World η} (spares : σ.world.Spares w) (built : w.registry.Built) :
      Moves t σ none (σ.inWorld w)
  | takes {c : ClassId} {refs : List ObjectId} (there : σ.world.There c)
      (first : σ.world.phase c = .uninitialized) :
      Moves t σ none (σ.inWorld (Exec.setPhase c (.inProgress t) (σ.world.during refs)))
  | notes {c : ClassId} {n : Report} (mine : σ.world.phase c = .inProgress t)
      (next : Next σ.world t c (σ.about c) n) : Moves t σ (some c) (σ.noted t n)
  | finishes {c : ClassId} {r : Except Failure Unit} {refs : List ObjectId}
      (mine : σ.world.phase c = .inProgress t) (outcome : Outcome σ t c (σ.about c) r)
      (ready : r = .ok () → SuperclassReady t σ.world c) :
      Moves t σ (some c) (σ.inWorld (Exec.setPhase c (.finish r) (σ.world.during refs)))
  | receives {c : ClassId} {r : Except Failure Unit} (phase : σ.world.phase c = .finish r)
      (outcome : Outcome σ t c (σ.about c) r) : Moves t σ (some c) (σ.noted t (.receives c r))
  | asks {c : ClassId} : Moves t σ none (σ.noted t (.asks c t))
  | remarks {k : Remark} : Moves t σ none (σ.noted t (.remarks k))
  | answers {c : ClassId} {r : Except Failure Unit} (told : Told t σ.world c r) :
      Moves t σ none (σ.noted t (.answers c r))

structure Onward (σ τ : Moment η Report) : Prop where
  later : Registry.Later σ.world.registry τ.world.registry
  objects : σ.world.heap.objects.size ≤ τ.world.heap.objects.size
  classOf : ∀ o : ObjectId, o.index < σ.world.heap.objects.size →
    τ.world.classOf o = σ.world.classOf o
  settled : ∀ c r, σ.world.phase c = .finish r → τ.world.phase c = .finish r
  begun : σ.begun.Sublist τ.begun

structure Sound (σ : Moment η Report) : Prop where
  built : σ.world.registry.Built
  fits : ∀ c, Fits σ c

structure Keeps (t : ThreadId) (σ τ : Moment η Report) : Prop extends Onward σ τ where
  mine : ∀ c, σ.world.phase c = .inProgress t → τ.world.phase c = .inProgress t
  hand : ∀ c, Hand t σ c → τ.about c = σ.about c

variable {t u : ThreadId} {ρ σ τ : Moment η Report} {c d : ClassId} {w v : World η}

theorem finish_left (r : Except Failure Unit) : InitPhase.finish r ≠ .uninitialized := by
  cases r <;> nofun

theorem finish_free (r : Except Failure Unit) : InitPhase.finish r ≠ .inProgress t := by
  cases r <;> nofun

theorem finish_inj {q r : Except Failure Unit} (same : InitPhase.finish q = .finish r) : q = r := by
  cases q <;> cases r <;> cases same <;> rfl

/-! What is told of failures stays true. -/

theorem isError_later (ordered : w.registry.Ordered)
    (later : Registry.Later w.registry v.registry)
    (classOf : ∀ o : ObjectId, o.index < w.heap.objects.size → v.classOf o = w.classOf o)
    {f : Failure} (raised : w.Raised f) : v.IsError f ↔ w.IsError f := by
  have inherits {o : ObjectId} {name : String} (raised : w.Raised (.thrown o name)) (d : ClassId) :
      v.registry.Inherits (v.classOf o) d ↔ w.registry.Inherits (w.classOf o) d := by
    rw [classOf o raised.1]
    exact later.inherits_iff ordered raised.2
  have cls {o : ObjectId} {name : String} (raised : w.Raised (.thrown o name)) {d : ClassId}
      (below : w.registry.Inherits (w.classOf o) d) : v.cls d = w.cls d :=
    later.cls d (Nat.lt_of_le_of_lt (below.below.le ordered) raised.2)
  constructor
  · rintro (⟨own, named⟩ | ⟨below, named⟩)
    · exact .runtime own named
    · have below := (inherits raised _).mp below
      exact .thrown below (cls raised below ▸ named)
  · rintro (⟨own, named⟩ | ⟨below, named⟩)
    · exact .runtime own named
    · exact .thrown ((inherits raised _).mpr below) ((cls raised below).symm ▸ named)

theorem Onward.there (onward : Onward σ τ) (there : σ.world.There c) : τ.world.There c :=
  Nat.lt_of_lt_of_le there onward.later.size

theorem Onward.cls (onward : Onward σ τ) (there : σ.world.There c) :
    τ.world.cls c = σ.world.cls c := onward.later.cls c there

theorem Onward.raised (onward : Onward σ τ) {f : Failure} (raised : σ.world.Raised f) :
    τ.world.Raised f := by
  cases f with
  | thrown o name =>
    refine ⟨Nat.lt_of_lt_of_le raised.1 onward.objects, ?_⟩
    rw [onward.classOf o raised.1]
    exact onward.there raised.2
  | _ => trivial

theorem Onward.classified (onward : Onward σ τ) (ordered : σ.world.registry.Ordered)
    (there : σ.world.There c) {f : Failure} (raised : σ.world.Raised f) :
    τ.world.classified c f = σ.world.classified c f := by
  classical
  rw [World.classified, World.classified, onward.cls there]
  exact if_congr (isError_later ordered onward.later onward.classOf raised) rfl rfl

theorem Onward.refl (σ : Moment η Report) : Onward σ σ :=
  ⟨.refl _, Nat.le_refl _, fun _ _ => rfl, fun _ _ same => same, .refl _⟩

theorem Onward.trans (first : Onward ρ σ) (second : Onward σ τ) : Onward ρ τ where
  later := first.later.trans second.later
  objects := Nat.le_trans first.objects second.objects
  classOf o made := (second.classOf o (Nat.lt_of_lt_of_le made first.objects)).trans
    (first.classOf o made)
  settled c r here := second.settled c r (first.settled c r here)
  begun := first.begun.trans second.begun

theorem Onward.stage (onward : Onward σ τ) {l : List (ThreadId × Report)}
    (stage : Stage σ.world t c l) : Stage τ.world t c l := by
  cases stage with
  | taken => exact .taken
  | begun => exact .begun
  | started => exact .started
  | failed raised => exact .failed (onward.raised raised)

theorem Onward.outcome (onward : Onward σ τ) (ordered : σ.world.registry.Ordered)
    (there : σ.world.There c) {l : List (ThreadId × Report)} {r : Except Failure Unit}
    (outcome : Outcome σ t c l r) : Outcome τ t c l r := by
  cases outcome with
  | bare => exact .bare
  | ran => exact .ran
  | failed raised =>
    rw [← onward.classified ordered there raised]
    exact .failed (onward.raised raised)
  | @inherited s h g above failed passed =>
    have known : σ.world.There s := World.there_of_phase failed nofun
    refine .inherited (s := s) (h := h) ?_ (onward.settled s (.error h) failed) ?_
    · rw [onward.cls there]
      exact above
    · rw [onward.cls known]
      exact passed.imp_right fun ⟨same, order⟩ => ⟨same, order.trans onward.begun⟩

/-! Phases and reports after a move. -/

theorem about_noted (t : ThreadId) (n : Report) (d : ClassId) :
    (σ.noted t n).about d = if n.about? = some d then (t, n) :: σ.about d else σ.about d := by
  simp only [Moment.about, Moment.noted, List.filter_cons, decide_eq_true_eq]

theorem about_noted_other {n : Report} (other : n.about? ≠ some d) :
    (σ.noted t n).about d = σ.about d := by
  rw [about_noted, if_neg other]

theorem Next.about {l : List (ThreadId × Report)} {n : Report} (next : Next w t c l n) :
    n.about? = some c := by
  cases next <;> rfl

theorem Next.stage {l : List (ThreadId × Report)} {n : Report} (next : Next w t c l n) :
    Stage w t c ((t, n) :: l) := by
  cases next with
  | begins => exact .begun
  | starts _ => exact .started
  | fails raised => exact .failed raised

theorem phase_taken {refs : List ObjectId} (p : InitPhase) (there : σ.world.There c) :
    (Exec.setPhase c p (σ.world.during refs)).phase c = p := by
  rw [World.phase_setPhase, if_pos ⟨rfl, there⟩]

theorem phase_other {refs : List ObjectId} (p : InitPhase) (other : d ≠ c) :
    (Exec.setPhase c p (σ.world.during refs)).phase d = σ.world.phase d := by
  rw [World.phase_setPhase, if_neg fun both => other both.1]
  rfl

theorem Spares.phase {p : InitPhase} (spares : w.Spares v) (here : w.phase c = p)
    (left : p ≠ .uninitialized) : v.phase c = p :=
  (spares.quiet.phase c (World.there_of_phase here left)).trans here

theorem onward_setPhase (refs : List ObjectId) (p : InitPhase)
    (free : ∀ r, σ.world.phase c ≠ .finish r) :
    Onward σ (σ.inWorld (Exec.setPhase c p (σ.world.during refs))) where
  later := Registry.Later.modifyState (r := σ.world.registry) c ({ · with phase := p })
  objects := Nat.le_refl _
  classOf _ _ := rfl
  settled d r here := by
    refine (phase_other p ?_).trans here
    rintro rfl
    exact free r here
  begun := .refl _

theorem onward_noted (t : ThreadId) (n : Report) : Onward σ (σ.noted t n) := by
  refine ⟨.refl _, Nat.le_refl _, fun _ _ => rfl, fun _ _ here => here, ?_⟩
  exact (List.sublist_cons_self _ _).filterMap _

theorem Moves.onward {x : Option ClassId} (move : Moves t σ x τ) : Onward σ τ := by
  cases move with
  | quiet spares _ =>
    refine ⟨⟨spares.quiet.size, spares.quiet.cls⟩, spares.objects, spares.classOf, ?_, .refl _⟩
    exact fun d r here => Spares.phase spares here (finish_left r)
  | takes _ first =>
    exact onward_setPhase _ _ fun r here => finish_left r (here.symm.trans first)
  | finishes mine _ _ =>
    exact onward_setPhase _ _ fun r here => finish_free r (here.symm.trans mine)
  | notes | receives | asks | answers | remarks => exact onward_noted _ _

/-! Sound moments stay sound. -/

theorem Fits.onward (fits : Fits σ c) (onward : Onward σ τ) (ordered : σ.world.registry.Ordered)
    (phase : τ.world.phase c = σ.world.phase c) (about : τ.about c = σ.about c) : Fits τ c := by
  have known {r : Except Failure Unit} (here : σ.world.phase c = .finish r) : σ.world.There c :=
    World.there_of_phase here (finish_left r)
  cases fits with
  | untouched none before => exact .untouched (about.trans none) (phase ▸ before)
  | inHand before stage =>
    refine .inHand (phase.trans before) ?_
    rw [about]
    exact onward.stage stage
  | finished before outcome =>
    have kept := onward.outcome ordered (known before) outcome
    rw [← about] at kept
    exact .finished (phase.trans before) kept
  | received before reported outcome =>
    exact .received (phase.trans before) (about.trans reported)
      (onward.outcome ordered (known before) outcome)

theorem Fits.none_of_uninitialized (fits : Fits σ c) (first : σ.world.phase c = .uninitialized) :
    σ.about c = [] := by
  cases fits with
  | untouched none _ => exact none
  | inHand here _ => cases here.symm.trans first
  | finished here _ | received here _ _ => exact absurd (here.symm.trans first) (finish_left _)

theorem Moves.built {x : Option ClassId} (move : Moves t σ x τ)
    (built : σ.world.registry.Built) : τ.world.registry.Built := by
  cases move with
  | quiet _ built => exact built
  | @takes c refs =>
    exact Registry.Built.modifyState built c ({ · with phase := .inProgress t })
  | @finishes c r refs =>
    exact Registry.Built.modifyState built c ({ · with phase := .finish r })
  | notes | receives | asks | answers | remarks => exact built

theorem Sound.ordered (sound : Sound σ) : σ.world.registry.Ordered := sound.built.ordered

theorem Sound.moves {x : Option ClassId} (sound : Sound σ) (move : Moves t σ x τ) : Sound τ := by
  have onward := move.onward
  refine ⟨move.built sound.built, fun d => ?_⟩
  -- the class of the move takes a step, and all others are as they were
  have fits := sound.fits d
  cases move with
  | @quiet w spares _ =>
    by_cases there : σ.world.There d
    · exact fits.onward onward sound.ordered (spares.quiet.phase d there) rfl
    · have none := fits.none_of_uninitialized (World.phase_not_there there)
      refine .untouched none ?_
      by_cases inside : w.There d
      · have phase := spares.quiet.added d (Nat.le_of_not_lt there) inside
        refine (show w.phase d = _ from phase) ▸ ?_
        unfold ClassState.initial
        split
        · exact .inl rfl
        · exact .inr rfl
      · exact .inl (World.phase_not_there inside)
  | @takes c refs there first =>
    by_cases same : d = c
    · subst same
      refine .inHand (phase_taken _ there) (t := t) ?_
      have none := fits.none_of_uninitialized first
      exact none ▸ .taken
    · exact fits.onward onward sound.ordered (phase_other _ same) rfl
  | @notes c n mine next =>
    by_cases same : d = c
    · subst same
      refine .inHand mine ?_
      rw [about_noted, if_pos next.about]
      exact next.stage
    · refine fits.onward onward sound.ordered rfl (about_noted_other fun about => same ?_)
      exact Option.some.inj (about.symm.trans next.about)
  | @finishes c r refs mine outcome _ =>
    have there : σ.world.There c := World.there_of_phase mine nofun
    by_cases same : d = c
    · subst same
      exact .finished (phase_taken _ there) (onward.outcome sound.ordered there outcome)
    · exact fits.onward onward sound.ordered (phase_other _ same) rfl
  | @receives c r phase outcome =>
    by_cases same : d = c
    · subst same
      refine .received phase ?_ (onward.outcome sound.ordered ?_ outcome)
      · rw [about_noted]
        exact if_pos rfl
      · exact World.there_of_phase phase (finish_left r)
    · refine fits.onward onward sound.ordered rfl (about_noted_other fun about => same ?_)
      exact (Option.some.inj about).symm
  | asks | answers | remarks =>
    exact fits.onward onward sound.ordered rfl (about_noted_other nofun)

/-! What threads rely on. -/

theorem Outcome.head {l : List (ThreadId × Report)} {r : Except Failure Unit}
    (outcome : Outcome σ t c l r) : ∃ n l', l = (t, n) :: l' ∧ ∀ r, n ≠ .receives c r := by
  cases outcome <;> exact ⟨_, _, rfl, nofun⟩

theorem Stage.head {l : List (ThreadId × Report)} {n : ThreadId × Report}
    (stage : Stage w t c (n :: l)) : n.1 = t := by
  cases stage <;> rfl

/-- A class is in the hands of one thread at most. -/
theorem Hand.unique (sound : Sound σ) (first : Hand t σ c) (second : Hand u σ c) : t = u := by
  have owner {t u : ThreadId} (mine : σ.world.phase c = .inProgress t) (hand : Hand u σ c) :
      t = u := by
    rcases hand with other | ⟨n, l, about, _⟩
    · cases mine.symm.trans other
      rfl
    · cases sound.fits c with
      | untouched none _ => cases none.symm.trans about
      | inHand here stage =>
        cases mine.symm.trans here
        rw [about] at stage
        exact stage.head.symm
      | finished here _ | received here _ _ =>
        exact absurd (here.symm.trans mine) (finish_free _)
  rcases first with mine | ⟨n, l, about, _⟩
  · exact owner mine second
  · rcases second with mine | ⟨m, k, about', _⟩
    · exact (owner mine (.inr ⟨n, l, about, ‹_›⟩)).symm
    · cases about.symm.trans about'
      rfl

theorem Moves.hand {x : Option ClassId} (move : Moves t σ x τ) : ∀ c ∈ x, Hand t σ c := by
  intro c member
  cases move with
  | quiet | takes | asks | answers | remarks => cases member
  | notes mine _ | finishes mine _ _ =>
    cases member
    exact .inl mine
  | receives _ outcome =>
    cases member
    exact .inr outcome.head

theorem Keeps.refl (t : ThreadId) (σ : Moment η Report) : Keeps t σ σ :=
  ⟨.refl σ, fun _ mine => mine, fun _ _ => rfl⟩

theorem Keeps.handed (keeps : Keeps t σ τ) (hand : Hand t σ c) : Hand t τ c := by
  rcases hand with mine | ⟨n, l, about, open'⟩
  · exact .inl (keeps.mine c mine)
  · exact .inr ⟨n, l, (keeps.hand c (.inr ⟨n, l, about, open'⟩)).trans about, open'⟩

theorem Keeps.trans (first : Keeps t ρ σ) (second : Keeps t σ τ) : Keeps t ρ τ where
  toOnward := first.toOnward.trans second.toOnward
  mine c here := second.mine c (first.mine c here)
  hand c here := (second.hand c (first.handed here)).trans (first.hand c here)

theorem Keeps.moves {x : Option ClassId} (keeps : Keeps t ρ σ) (move : Moves u σ x τ)
    (foreign : ∀ c ∈ x, ¬ Hand t ρ c) : Keeps t ρ τ := by
  refine ⟨keeps.toOnward.trans move.onward, fun d here => ?_, fun d hand => ?_⟩
  · have mine := keeps.mine d here
    cases move with
    | quiet spares _ => exact Spares.phase spares mine nofun
    | takes _ first =>
      refine (phase_other _ ?_).trans mine
      rintro rfl
      cases mine.symm.trans first
    | finishes _ _ _ =>
      refine (phase_other _ ?_).trans mine
      rintro rfl
      exact foreign d rfl (.inl here)
    | notes | receives | asks | answers | remarks => exact mine
  · refine Eq.trans ?_ (keeps.hand d hand)
    cases move with
    | quiet | takes | finishes => rfl
    | notes mine next =>
      refine about_noted_other fun about => foreign _ rfl ?_
      cases about.symm.trans next.about
      exact hand
    | receives =>
      refine about_noted_other fun about => foreign _ rfl ?_
      cases about
      exact hand
    | asks | answers | remarks => exact about_noted_other nofun

def meant (t : ThreadId) (σ : Moment η Report) : Report → Prop
  | .asks c u => u = t ∧ σ.world.There c
  | .fails _ f => σ.world.Raised f
  | _ => True

def discipline : Discipline η Report where
  meant := meant
  moves t σ τ := ∃ x, Moves t σ x τ
  sound := Sound
  keeps := Keeps
  keeps_refl := Keeps.refl
  keeps_trans := Keeps.trans
  sound_moves sound := fun ⟨_, move⟩ => sound.moves move
  keeps_others := fun other sound ⟨_, move⟩ =>
    (Keeps.refl _ _).moves move fun c member here => other ((move.hand c member).unique sound here)

end Reporting
end ManagedRuntime
