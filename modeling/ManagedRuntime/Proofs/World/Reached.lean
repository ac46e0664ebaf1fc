import ManagedRuntime.Proofs.World.Canonical
import ManagedRuntime.Proofs.World.UniqueMirrors

/-!
The states that a runtime comes to. It has started, and since then its threads have run, whatever the
embedding program has them run, as long as that comes by its classes in order. Main statement: such a
state is equipped, with all classes that the runtime depends on and with mirrors on record that mirror
their classes.
-/
namespace ManagedRuntime
variable {η : Type}

inductive World.Reached (w : World η) : Prop where
  | run {ν : Type} {e : Embedding η} {code : AnnotatedCode η ν}
      {meant : ThreadId → Moment η ν → ν → Prop} {p q : Pool η ν}
      {execute : Method → List Value → Exec η (Option Value)}
      {embedded : Nat → NativeCall → Exec η Nat} (core : code.plain = .withCore execute embedded)
      (bodies : ∀ n m args, m.owner.index < n → Exec.Orderly n (execute m args) fun _ => [])
      (natives : ∀ n i call, Exec.Orderly n (embedded i call) fun _ => [])
      (booted : e.boot = .ok p.moment.world)
      (threads : ∀ t,
        (p.tasks t).plain.Orderly (fun _ => []) p.moment.world.registry.loaded.size)
      (run : Pool.Run code meant p q) (here : q.moment.world = w) : Reached w

/-- The classes that the runtime depends on are there, and mirrors on record mirror their classes. -/
structure World.Equipped (w : World η) : Prop where
  sane : w.Sane
  required : ∀ name ∈ Universe.required, ∃ c, w.registry.find? name none = some c
  mirrors : ∀ c o, (w.registry.state c).mirror = some o → (w.heap.get o).mirrored? = some c

namespace Heap
variable {h g : Heap}

theorem Alike.retains (alike : h.Alike g) : h.Retains g := fun o _ => alike.payload o

theorem Alike.retains_push (alike : h.Alike g) (x : Object) (accounting : Accounting) :
    h.Retains ⟨g.objects.push x, accounting⟩ := by
  intro o there
  rw [get_push, if_neg (by rw [alike.size]; exact Nat.ne_of_lt there)]
  exact alike.payload o

end Heap

theorem Atomic.retains_allocate (w : World η) (x : Object) :
    w.heap.Retains ((allocate x).runOn w).2.heap := by
  have comes := allocate_cases w x
  generalize (allocate x).runOn w = result at comes ⊢
  cases comes with
  | made alike _ => exact alike.retains_push x _
  | exhausted alike _ => exact alike.retains

theorem Atomic.registry_allocate (w : World η) (x : Object) :
    ((allocate x).runOn w).2.registry = w.registry := by
  have comes := allocate_cases w x
  generalize (allocate x).runOn w = result at comes ⊢
  cases comes <;> rfl

namespace World
open Registry
variable {w v : World η}

theorem Equipped.boot {e : Embedding η} (booted : e.boot = .ok w) : w.Equipped := by
  have canonical := Embedding.canonical_boot booted
  exact ⟨Embedding.sane_boot booted, canonical.required, canonical.mirrors⟩

theorem Equipped.of_tame (equipped : w.Equipped) (tame : Tame w v)
    (mirrors : ∀ c o, (v.registry.state c).mirror = some o → (v.heap.get o).mirrored? = some c) :
    v.Equipped := by
  obtain ⟨sane, later⟩ := tame equipped.sane
  refine ⟨sane, fun name required => ?_, mirrors⟩
  obtain ⟨c, found⟩ := equipped.required name required
  exact ⟨c, later.find? sane.built found⟩

theorem Equipped.allocate (equipped : w.Equipped) {x : Object}
    (tame : Tame w ((Atomic.allocate x).runOn w).2) : ((Atomic.allocate x).runOn w).2.Equipped := by
  refine equipped.of_tame tame fun c o mirror => ?_
  rw [Atomic.registry_allocate] at mirror
  exact (Atomic.retains_allocate w x).mirrored? (equipped.mirrors c o mirror)

theorem Equipped.mirror (equipped : w.Equipped) {c : ClassId}
    (there : c.index < w.registry.loaded.size) : ((Atomic.mirror c).runOn w).2.Equipped := by
  have tame := Atomic.tame_mirror (w := w) there
  have comes := Atomic.mirroring w c
  generalize (Atomic.mirror c).runOn w = result at tame comes ⊢
  cases comes with
  | recorded | missing => exact equipped
  | exhausted alike _ =>
    exact equipped.of_tame tame fun d o mirror =>
      alike.retains.mirrored? (equipped.mirrors d o mirror)
  | @made heap accounting x bare alike limit mirrors =>
    refine equipped.of_tame tame fun d o mirror => ?_
    rw [state_modifyState] at mirror
    split at mirror
    · rename_i here
      cases mirror
      rw [Heap.get_push, if_pos alike.size.symm, here.1]
      exact mirrors
    · exact (alike.retains_push x accounting).mirrored? (equipped.mirrors d o mirror)

/-- Every change by the runtime keeps a state equipped. -/
theorem Equipped.change (equipped : w.Equipped) (change : Change w v) : v.Equipped := by
  have tame := change.tame
  have primitives := equipped.sane.built.ordered.primitives
  have grown {r : Registry} (grows : Grows w.registry r) (c : ClassId) (o : ObjectId)
      (mirror : (r.state c).mirror = some o) : (w.heap.get o).mirrored? = some c :=
    equipped.mirrors c o (grows.mirror mirror)
  cases change with
  | arrayClass name loader =>
    exact equipped.of_tame tame (grown (arrayClass_leads primitives name loader).1.grows)
  | arrayOf there => exact equipped.of_tame tame (grown (arrayOf_leads there).1.grows)
  | define d loader => exact equipped.of_tame tame (grown (define_grows d loader primitives))
  | state c same =>
    refine equipped.of_tame tame fun d o mirror => equipped.mirrors d o ?_
    rw [state_modifyState] at mirror
    split at mirror
    · rw [same] at mirror
      exact mirror
    · exact mirror
  | allocate there plain => exact equipped.allocate tame
  | mirror there => exact equipped.mirror there
  | @contents o f cls same =>
    refine equipped.of_tame tame fun d p mirror => ?_
    have mirrors := equipped.mirrors d p mirror
    dsimp only
    rw [Heap.get_modify]
    split
    · rename_i here
      rw [← here.1, same, here.1]
      exact mirrors
    · exact mirrors
  | collection | interned | threads | outside => exact equipped.of_tame tame equipped.mirrors

theorem Equipped.during (equipped : w.Equipped) (refs : List ObjectId) : (w.during refs).Equipped :=
  ⟨equipped.sane.during refs, equipped.required, equipped.mirrors⟩

theorem Equipped.changes (equipped : w.Equipped) (changes : w.Changes v) : v.Equipped := by
  induction changes with
  | refl => exact equipped
  | tail _ change ih => exact ih.change change

theorem Equipped.advance (equipped : w.Equipped) (advances : w.Advances v) : v.Equipped := by
  rcases advances with rfl | ⟨refs, changes | ⟨o, rfl⟩⟩
  · exact equipped
  · exact (equipped.during refs).changes changes
  · have tame := Atomic.tame_copyObject o (w.during refs)
    rw [runOn_copyObject] at tame ⊢
    exact (equipped.during refs).allocate tame

/-- However threads have run since the start. -/
theorem Reached.equipped (reached : w.Reached) : w.Equipped := by
  obtain ⟨core, bodies, natives, booted, threads, run, here⟩ := reached
  subst here
  have codes := Code.orderly_withCore bodies natives
  rw [← core] at codes
  have start : Pool.Orderly _ := ⟨Embedding.sane_boot booted, threads⟩
  induction run with
  | refl => exact .boot booted
  | step before step ih => exact ih.advance ((start.run codes before).step codes step).1

end World
end ManagedRuntime
