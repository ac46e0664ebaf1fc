import ManagedRuntime.Proofs.Execution.Interleaving
import ManagedRuntime.Proofs.Loading.Clients

/-!
Phases of classes while threads move. A thread begins a class, calls its initialiser and finishes it;
notes tell what it asked for, started and answered. Main statements: these moves keep moments sound,
which means that initialisers have been called at most once and superclasses have been asked for
first, and what one thread does leaves the classes in the hands of another as they are.
-/
namespace ManagedRuntime
variable {η α β : Type}

def InitNote.started? : InitNote → Option ClassId
  | starts c => some c
  | _ => none

namespace Moment
variable (σ : Moment η InitNote)

def registry : Registry := σ.world.registry
def cls (c : ClassId) : Class := σ.registry.cls c
def phase (c : ClassId) : InitPhase := (σ.registry.state c).phase

def Loaded (c : ClassId) : Prop := c.index < σ.registry.loaded.size

def starts (c : ClassId) : Nat := (σ.notes.filterMap fun n => n.2.started?).count c

def SuperclassFirst (c : ClassId) : Prop :=
  ∀ s, (σ.cls c).superclass = some s → σ.phase s ≠ .uninitialized

def Ready (t : ThreadId) (c : ClassId) : Prop :=
  σ.phase c = .initialized ∨ σ.phase c = .inProgress t

theorem phase_unloaded {c : ClassId} (outside : ¬ σ.Loaded c) : σ.phase c = .uninitialized := by
  have absent : σ.registry.loaded[c.index]? = none := Array.getElem?_eq_none (Nat.le_of_not_lt outside)
  rw [phase, Registry.state, absent]
  rfl

theorem loaded_of_phase {c : ClassId} {p : InitPhase} (here : σ.phase c = p)
    (left : p ≠ .uninitialized) : σ.Loaded c := by
  refine Classical.byContradiction fun outside => left ?_
  rw [← here, σ.phase_unloaded outside]

theorem starts_noted_starts (t : ThreadId) (c d : ClassId) :
    (σ.noted t (.starts c)).starts d = σ.starts d + if c = d then 1 else 0 := by
  simp [starts, noted, InitNote.started?, List.count_cons]

end Moment

namespace Initialization

structure Sets (c : ClassId) (p : InitPhase) (σ τ : Moment η InitNote) : Prop where
  registry : τ.registry = σ.registry.modifyState c ({ · with phase := p })
  notes : τ.notes = σ.notes

/-- What thread `t` does to phases and notes in one step. The class is the one whose initialisation
it is in charge of and takes further. -/
inductive Moves (t : ThreadId) (σ : Moment η InitNote) : Option ClassId → Moment η InitNote → Prop
  | quiet {τ : Moment η InitNote} (quiet : σ.registry.Quiet τ.registry)
      (notes : τ.notes = σ.notes) : Moves t σ none τ
  | begins {c : ClassId} {τ : Moment η InitNote} (loaded : σ.Loaded c)
      (first : σ.phase c = .uninitialized) (sets : Sets c (.inProgress t) σ τ) : Moves t σ none τ
  | finishes {c : ClassId} {r : Except Failure Unit} {τ : Moment η InitNote}
      (mine : σ.phase c = .inProgress t)
      (ready : r = .ok () → σ.SuperclassFirst c ∧
        ((σ.cls c).initializer?.isSome → σ.starts c = 1))
      (sets : Sets c (.finish r) σ τ) : Moves t σ (some c) τ
  | asks {c : ClassId} : Moves t σ none (σ.noted t (.asks c t))
  | starts {c : ClassId} (mine : σ.phase c = .inProgress t) (first : σ.starts c = 0)
      (superclass : σ.SuperclassFirst c) : Moves t σ (some c) (σ.noted t (.starts c))
  | answers {c : ClassId} {r : Except Failure Unit} (ready : r = .ok () → σ.Ready t c) :
      Moves t σ none (σ.noted t (.answers c r))

structure Sound (σ : Moment η InitNote) : Prop where
  ordered : σ.registry.Ordered
  once : ∀ c, σ.starts c ≤ 1
  started : ∀ c, 0 < σ.starts c → σ.phase c ≠ .uninitialized ∧ σ.SuperclassFirst c
  initialized : ∀ c, (σ.cls c).kind = .ordinary → σ.phase c = .initialized →
    σ.SuperclassFirst c ∧ ((σ.cls c).initializer?.isSome → σ.starts c = 1)

/-- What thread `t` may rely on while others move, and what code under way gives back to it. -/
structure Keeps (t : ThreadId) (σ τ : Moment η InitNote) : Prop where
  size : σ.registry.loaded.size ≤ τ.registry.loaded.size
  cls : ∀ c, σ.Loaded c → τ.cls c = σ.cls c
  left : ∀ c, σ.phase c ≠ .uninitialized → τ.phase c ≠ .uninitialized
  initialized : ∀ c, σ.phase c = .initialized → τ.phase c = .initialized
  mine : ∀ c, σ.phase c = .inProgress t → τ.phase c = .inProgress t ∧ τ.starts c = σ.starts c

variable {t u : ThreadId} {ρ σ τ : Moment η InitNote} {c d : ClassId} {p : InitPhase}

theorem Sets.loaded (sets : Sets c p σ τ) : τ.registry.loaded.size = σ.registry.loaded.size := by
  rw [sets.registry, Registry.size_modifyState]

theorem Sets.cls (sets : Sets c p σ τ) (d : ClassId) : τ.cls d = σ.cls d := by
  rw [Moment.cls, sets.registry, Registry.cls_modifyState]
  rfl

theorem Sets.phase_same (sets : Sets c p σ τ) (there : σ.Loaded c) : τ.phase c = p := by
  rw [Moment.phase, sets.registry, Registry.state_modifyState, if_pos ⟨rfl, there⟩]

theorem Sets.phase_other (sets : Sets c p σ τ) (other : d ≠ c) : τ.phase d = σ.phase d := by
  rw [Moment.phase, sets.registry, Registry.state_modifyState, if_neg fun both => other both.1]
  rfl

theorem Sets.starts (sets : Sets c p σ τ) (d : ClassId) : τ.starts d = σ.starts d := by
  rw [Moment.starts, Moment.starts, sets.notes]

theorem Sets.left (sets : Sets c p σ τ) (there : σ.Loaded c) (left : p ≠ .uninitialized)
    (before : σ.phase d ≠ .uninitialized) : τ.phase d ≠ .uninitialized := by
  by_cases same : d = c
  · subst same
    rw [sets.phase_same there]
    exact left
  · rw [sets.phase_other same]
    exact before

theorem Sets.superclassFirst (sets : Sets c p σ τ) (there : σ.Loaded c)
    (left : p ≠ .uninitialized) (first : σ.SuperclassFirst d) : τ.SuperclassFirst d := by
  intro s above
  rw [sets.cls] at above
  exact sets.left there left (first s above)

theorem Sets.ordered (sets : Sets c p σ τ) (ordered : σ.registry.Ordered) : τ.registry.Ordered := by
  rw [sets.registry]
  exact ordered.modifyState c _

theorem finish_left (r : Except Failure Unit) : InitPhase.finish r ≠ .uninitialized := by
  cases r <;> nofun

theorem finish_initialized {r : Except Failure Unit}
    (finished : InitPhase.finish r = .initialized) : r = .ok () := by
  cases r with
  | ok a => rfl
  | error f => cases finished

theorem quiet_phase (quiet : σ.registry.Quiet τ.registry) (here : σ.phase c = p)
    (left : p ≠ .uninitialized) : τ.phase c = p :=
  (quiet.phase c (σ.loaded_of_phase here left)).trans here

theorem quiet_left (quiet : σ.registry.Quiet τ.registry) (left : σ.phase c ≠ .uninitialized) :
    τ.phase c ≠ .uninitialized := by
  rw [quiet_phase quiet rfl left]
  exact left

theorem quiet_superclassFirst (quiet : σ.registry.Quiet τ.registry) (there : σ.Loaded c)
    (first : σ.SuperclassFirst c) : τ.SuperclassFirst c := by
  intro s above
  rw [Moment.cls, quiet.cls c there] at above
  exact quiet_left quiet (first s above)

/-! Sound moments stay sound. -/

theorem Sound.quiet (sound : Sound σ) (quiet : σ.registry.Quiet τ.registry)
    (notes : τ.notes = σ.notes) : Sound τ := by
  have starts (d : ClassId) : τ.starts d = σ.starts d := by rw [Moment.starts, Moment.starts, notes]
  refine ⟨quiet.ordered sound.ordered, ?_, ?_, ?_⟩
  · intro d
    rw [starts]
    exact sound.once d
  · intro d started
    rw [starts] at started
    obtain ⟨left, first⟩ := sound.started d started
    exact ⟨quiet_left quiet left, quiet_superclassFirst quiet (σ.loaded_of_phase rfl left) first⟩
  · intro d ordinary initialized
    by_cases there : σ.Loaded d
    · have same : τ.cls d = σ.cls d := quiet.cls d there
      rw [same] at ordinary ⊢
      rw [Moment.phase, quiet.phase d there] at initialized
      obtain ⟨first, once⟩ := sound.initialized d ordinary initialized
      rw [starts]
      exact ⟨quiet_superclassFirst quiet there first, once⟩
    · -- a class that has been added is not initialised
      have inside := τ.loaded_of_phase initialized nofun
      have phase := quiet.added d (Nat.le_of_not_lt there) inside
      have initial : (ClassState.initial (τ.cls d)).phase = .uninitialized := if_pos ordinary
      cases initialized.symm.trans (phase.trans initial)

theorem Sound.sets (sound : Sound σ) (sets : Sets c p σ τ) (there : σ.Loaded c)
    (left : p ≠ .uninitialized)
    (ready : p = .initialized → σ.SuperclassFirst c ∧
      ((σ.cls c).initializer?.isSome → σ.starts c = 1)) : Sound τ := by
  refine ⟨sets.ordered sound.ordered, ?_, ?_, ?_⟩
  · intro d
    rw [sets.starts]
    exact sound.once d
  · intro d started
    rw [sets.starts] at started
    obtain ⟨before, first⟩ := sound.started d started
    exact ⟨sets.left there left before, sets.superclassFirst there left first⟩
  · intro d ordinary initialized
    have known : σ.SuperclassFirst d ∧ ((σ.cls d).initializer?.isSome → σ.starts d = 1) := by
      by_cases same : d = c
      · subst same
        rw [sets.phase_same there] at initialized
        exact ready initialized
      · rw [sets.cls] at ordinary
        rw [sets.phase_other same] at initialized
        exact sound.initialized d ordinary initialized
    rw [sets.cls, sets.starts]
    exact ⟨sets.superclassFirst there left known.1, known.2⟩

theorem Sound.started_once (sound : Sound σ) (mine : σ.phase c = .inProgress t)
    (none : σ.starts c = 0) (superclass : σ.SuperclassFirst c) :
    Sound (σ.noted t (.starts c)) := by
  refine ⟨sound.ordered, ?_, ?_, ?_⟩
  · intro d
    rw [σ.starts_noted_starts]
    have before := sound.once d
    split
    · subst d
      omega
    · exact before
  · intro d started
    rw [σ.starts_noted_starts] at started
    by_cases same : c = d
    · subst same
      refine ⟨?_, superclass⟩
      rw [show (σ.noted t (.starts c)).phase c = .inProgress t from mine]
      nofun
    · rw [if_neg same] at started
      exact sound.started d started
  · intro d ordinary initialized
    obtain ⟨first, once⟩ := sound.initialized d ordinary initialized
    refine ⟨first, fun declares => ?_⟩
    rw [σ.starts_noted_starts, if_neg, Nat.add_zero]
    · exact once declares
    · rintro rfl
      cases mine.symm.trans initialized

theorem Sound.moves {x : Option ClassId} (sound : Sound σ) (move : Moves t σ x τ) : Sound τ := by
  cases move with
  | quiet quiet notes => exact sound.quiet quiet notes
  | begins loaded first sets => exact sound.sets sets loaded nofun nofun
  | finishes mine ready sets =>
    refine sound.sets sets (σ.loaded_of_phase mine nofun) (finish_left _) fun finished => ?_
    exact ready (finish_initialized finished)
  | asks | answers _ => exact ⟨sound.ordered, sound.once, sound.started, sound.initialized⟩
  | starts mine first superclass => exact sound.started_once mine first superclass

/-! What threads rely on. -/

theorem Keeps.refl (t : ThreadId) (σ : Moment η InitNote) : Keeps t σ σ :=
  ⟨Nat.le_refl _, fun _ _ => rfl, fun _ left => left, fun _ here => here, fun _ mine => ⟨mine, rfl⟩⟩

theorem Keeps.loaded (keeps : Keeps t ρ σ) (there : ρ.Loaded c) : σ.Loaded c :=
  Nat.lt_of_lt_of_le there keeps.size

theorem Keeps.trans (first : Keeps t ρ σ) (second : Keeps t σ τ) : Keeps t ρ τ where
  size := Nat.le_trans first.size second.size
  cls c there := (second.cls c (first.loaded there)).trans (first.cls c there)
  left c left := second.left c (first.left c left)
  initialized c here := second.initialized c (first.initialized c here)
  mine c here := by
    obtain ⟨mine, starts⟩ := first.mine c here
    obtain ⟨still, same⟩ := second.mine c mine
    exact ⟨still, same.trans starts⟩

theorem Keeps.sets (keeps : Keeps t ρ σ) (sets : Sets c p σ τ) (there : σ.Loaded c)
    (left : p ≠ .uninitialized) (notInitialized : σ.phase c ≠ .initialized)
    (foreign : ρ.phase c ≠ .inProgress t) : Keeps t ρ τ where
  size := Nat.le_trans keeps.size (Nat.le_of_eq sets.loaded.symm)
  cls d known := (sets.cls d).trans (keeps.cls d known)
  left d before := sets.left there left (keeps.left d before)
  initialized d here := by
    have before := keeps.initialized d here
    rw [sets.phase_other]
    · exact before
    · rintro rfl
      exact notInitialized before
  mine d here := by
    obtain ⟨mine, starts⟩ := keeps.mine d here
    rw [sets.phase_other, sets.starts]
    · exact ⟨mine, starts⟩
    · rintro rfl
      exact foreign here

/-- A move keeps what a thread relies on unless it takes a class further that was in the hands of
that thread before. -/
theorem Keeps.moves {x : Option ClassId} (keeps : Keeps t ρ σ) (move : Moves u σ x τ)
    (foreign : ∀ c ∈ x, ρ.phase c ≠ .inProgress t) : Keeps t ρ τ := by
  cases move with
  | quiet quiet notes =>
    refine ⟨Nat.le_trans keeps.size quiet.size, fun d there => ?_, fun d before => ?_,
      fun d here => ?_, fun d here => ?_⟩
    · exact (quiet.cls d (keeps.loaded there)).trans (keeps.cls d there)
    · exact quiet_left quiet (keeps.left d before)
    · exact quiet_phase quiet (keeps.initialized d here) nofun
    · obtain ⟨mine, starts⟩ := keeps.mine d here
      refine ⟨quiet_phase quiet mine nofun, ?_⟩
      rw [← starts, Moment.starts, Moment.starts, notes]
  | @begins c _ loaded first sets =>
    refine keeps.sets sets loaded nofun (by rw [first]; nofun) fun here => ?_
    cases (keeps.mine c here).1.symm.trans first
  | finishes mine _ sets =>
    exact keeps.sets sets (σ.loaded_of_phase mine nofun) (finish_left _) (by rw [mine]; nofun)
      (foreign _ rfl)
  | asks | answers _ =>
    exact ⟨keeps.size, keeps.cls, keeps.left, keeps.initialized, keeps.mine⟩
  | @starts c mine _ _ =>
    refine ⟨keeps.size, keeps.cls, keeps.left, keeps.initialized, fun d here => ?_⟩
    obtain ⟨still, starts⟩ := keeps.mine d here
    refine ⟨still, ?_⟩
    rw [σ.starts_noted_starts, if_neg, Nat.add_zero]
    · exact starts
    · rintro rfl
      exact foreign c rfl here

theorem Moves.mine {x : Option ClassId} (move : Moves t σ x τ) :
    ∀ c ∈ x, σ.phase c = .inProgress t := by
  intro c member
  cases move with
  | quiet | begins | asks | answers => cases member
  | finishes mine _ _ | starts mine _ _ =>
    cases member
    exact mine

def meant (t : ThreadId) (σ : Moment η InitNote) : InitNote → Prop
  | .asks c u => u = t ∧ σ.Loaded c
  | _ => True

def discipline : Discipline η InitNote where
  meant := meant
  moves t σ τ := ∃ x, Moves t σ x τ
  sound := Sound
  keeps := Keeps
  keeps_refl := Keeps.refl
  keeps_trans := Keeps.trans
  sound_moves sound := fun ⟨_, move⟩ => sound.moves move
  keeps_others := fun other _ ⟨_, move⟩ =>
    (Keeps.refl _ _).moves move fun c member here => by
      cases (move.mine c member).symm.trans here
      exact other rfl

end Initialization
end ManagedRuntime
