import ManagedRuntime.Proofs.Class.ArrayNames
import ManagedRuntime.Proofs.Execution.Within
import ManagedRuntime.Proofs.World.Mirrors

/-!
Tame changes of the shared state: operations on the registry add classes, no class goes or changes,
and objects and mirrors are made of loaded classes alone. Main statement: what lookups of classes do
by themselves is tame, and so is the making of a mirror.
-/
namespace ManagedRuntime
variable {η α β : Type}

namespace Registry
variable {r : Registry}

theorem Built.arrayClass_later (built : r.Built) (name : String) (loader : Reference) :
    (r.arrayClass name loader).2.Built ∧ Later r (r.arrayClass name loader).2 := by
  have widens := (arrayClass_leads built.ordered.primitives name loader).1
  exact ⟨built.arrayClass name loader, (widens.extends built.ordered).later⟩

theorem Built.findBootstrap_later (built : r.Built) (name : String) :
    (r.findBootstrap name).2.Built ∧ Later r (r.findBootstrap name).2 := by
  unfold Registry.findBootstrap findLoaded
  split
  · exact built.arrayClass_later name none
  · exact ⟨built, .refl r⟩

end Registry

/-- Operations on the registry have made the classes, objects are of loaded classes, and mirrors are
mirrors of loaded classes. -/
structure World.Sane (w : World η) : Prop where
  built : w.registry.Built
  objects : ∀ o, (w.heap.get o).cls.index < w.registry.loaded.size
  mirrors : ∀ o c, (w.heap.get o).mirrored? = some c → c.index < w.registry.loaded.size

theorem World.Sane.during {w : World η} (sane : w.Sane) (refs : List ObjectId) :
    (w.during refs).Sane := ⟨sane.built, sane.objects, sane.mirrors⟩

theorem World.Sane.alike {w : World η} {heap : Heap} (sane : w.Sane) (alike : w.heap.Alike heap) :
    World.Sane { w with heap } where
  built := sane.built
  objects o := by
    rw [show (({ w with heap } : World η).heap.get o).cls = _ from alike.cls o]
    exact sane.objects o
  mirrors o c mirrors := by
    rw [show (({ w with heap } : World η).heap.get o).mirrored? = (w.heap.get o).mirrored? by
      rw [Object.mirrored?, alike.payload o]
      rfl] at mirrors
    exact sane.mirrors o c mirrors

def Tame (w v : World η) : Prop := w.Sane → v.Sane ∧ Registry.Later w.registry v.registry

namespace Tame
variable {w v u : World η}

theorem refl (w : World η) : Tame w w := fun sane => ⟨sane, .refl _⟩

theorem trans (first : Tame w v) (second : Tame v u) : Tame w u := by
  intro sane
  obtain ⟨sane, later⟩ := first sane
  obtain ⟨sane, later'⟩ := second sane
  exact ⟨sane, later.trans later'⟩

theorem ofRegistry {r : Registry}
    (grows : w.registry.Built → r.Built ∧ Registry.Later w.registry r) :
    Tame w { w with registry := r } := by
  intro sane
  obtain ⟨built, later⟩ := grows sane.built
  have there {c : ClassId} (inside : c.index < w.registry.loaded.size) :
      c.index < r.loaded.size := Nat.lt_of_lt_of_le inside later.size
  exact ⟨⟨built, fun o => there (sane.objects o), fun o c found => there (sane.mirrors o c found)⟩,
    later⟩

end Tame

namespace Atomic
open Registry
variable {w : World η}

theorem tame_bind {x : Atomic η α} {g : α → Atomic η β} (first : Tame w (x.runOn w).2)
    (rest : ∀ a v, x.runOn w = (.ok a, v) → Tame v ((g a).runOn v).2) :
    Tame w ((x >>= g).runOn w).2 := by
  rw [runOn_bind]
  rcases ran : x.runOn w with ⟨f | a, v⟩
  · rwa [ran] at first
  · rw [ran] at first
    exact first.trans (rest a v ran)

theorem tame_allocate {o : Object} (cls : o.cls.index < w.registry.loaded.size)
    (mirrors : ∀ c, o.mirrored? = some c → c.index < w.registry.loaded.size) :
    Tame w ((allocate o).runOn w).2 := by
  intro sane
  have comes := allocate_cases w o
  generalize (allocate o).runOn w = result at comes ⊢
  cases comes with
  | exhausted alike _ => exact ⟨sane.alike alike, .refl _⟩
  | @made heap accounting alike =>
    have before := sane.alike alike
    refine ⟨⟨sane.built, fun p => ?_, fun p c found => ?_⟩, .refl _⟩
    · dsimp only
      rw [Heap.get_push]
      split
      · exact cls
      · exact before.objects p
    · dsimp only at found
      rw [Heap.get_push] at found
      split at found
      · exact mirrors c found
      · exact before.mirrors p c found

theorem tame_findBootstrap (name : String) : (findBootstrap name : Atomic η _).Within Tame :=
  fun _ => .ofRegistry fun built => built.findBootstrap_later name

theorem tame_arrayClass (name : String) (loader : Reference) :
    (onRegistry (·.arrayClass name loader) : Atomic η _).Within Tame :=
  fun _ => .ofRegistry fun built => built.arrayClass_later name loader

theorem tame_bootClass (name : String) : (bootClass name : Atomic η _).Within Tame := by
  refine .bind Tame.trans (tame_findBootstrap name) fun found => ?_
  cases found <;> exact Tame.refl

theorem bootClass_there {name : String} {k : ClassId} {v : World η} (sane : w.Sane)
    (ran : (bootClass name).runOn w = (.ok k, v)) : k.index < v.registry.loaded.size := by
  obtain ⟨found, u, looked, ended⟩ := runOn_bind_eq_ok.mp ran
  cases found with
  | none => cases ended
  | some c =>
    cases ended
    have leads := findLoaded_leads sane.built.ordered.primitives name none
    have made : (w.registry.findBootstrap name).1 = some k :=
      Except.ok.inj (congrArg Prod.fst looked)
    have registry : (w.registry.findBootstrap name).2 = v.registry :=
      congrArg (fun result => result.2.registry) looked
    rw [← registry]
    exact (leads.2 k made.symm).there

theorem tame_newCarrier {k : ClassId} {payload : Payload} (cls : k.index < w.registry.loaded.size)
    (mirrors : ∀ c, payload = .mirror c → c.index < w.registry.loaded.size) :
    Tame w ((newCarrier k payload).runOn w).2 := by
  unfold newCarrier
  rw [runOn_get_bind]
  refine tame_allocate cls fun c found => mirrors c ?_
  unfold Object.mirrored? at found
  dsimp only [Heap.newCarrier] at found
  split at found
  · cases found
    rfl
  · cases found

theorem tame_newString (s : String) : (newString s : Atomic η _).Within Tame := by
  intro w sane
  refine tame_bind (tame_bootClass _ w) (fun k v ran => ?_) sane
  exact tame_newCarrier (bootClass_there sane ran) nofun

theorem tame_mirror {c : ClassId} (there : c.index < w.registry.loaded.size) :
    Tame w ((mirror c).runOn w).2 := by
  unfold mirror
  rw [runOn_get_bind]
  split
  · exact .refl w
  · intro sane
    refine tame_bind (tame_bootClass _ w) (fun k v ran => ?_) sane
    have later := (tame_bootClass "java/lang/Class" w sane).2
    rw [ran] at later
    have carrier : Tame v ((newCarrier k (.mirror c)).runOn v).2 := by
      refine tame_newCarrier (bootClass_there sane ran) fun d same => ?_
      cases same
      exact Nat.lt_of_lt_of_le there later.size
    refine tame_bind carrier fun o u _ => ?_
    exact .ofRegistry fun built => ⟨built.modifyState _ _, .modifyState _ _⟩

theorem tame_link (m : Method) : (link m : Atomic η _).Within Tame := by
  intro w
  unfold link
  rw [runOn_get_bind]
  split
  · exact .refl w
  · split
    · exact .ofRegistry fun built => ⟨built.modifyState _ _, .modifyState _ _⟩
    · exact .refl w
    · exact .refl w

theorem tame_parseClass (name : Option String) (bytes : ByteArray) :
    (parseClass name bytes : Atomic η _).Within Tame := by
  intro w sane
  rw [parseClass, runOn_ofFunction]
  split <;> exact ⟨⟨sane.built, sane.objects, sane.mirrors⟩, .refl _⟩

theorem tame_defineClass (d : ClassDef) (loader : Reference) :
    (defineClass d loader : Atomic η _).Within Tame := by
  intro w sane
  have comes := defineClass_cases sane.built d loader
  generalize (defineClass d loader).runOn w = result at comes ⊢
  cases comes with
  | refused widens built =>
    exact Tame.ofRegistry (fun old => ⟨built, (widens.extends old.ordered).later⟩) sane
  | defined adds _ => exact Tame.ofRegistry (fun _ => ⟨adds.built, adds.later⟩) sane

end Atomic

theorem Boot.tame_defineExtra {ds : List ClassDef} {w v : World η}
    (defined : defineExtra ds w = .ok v) : Tame w v := by
  induction ds generalizing w with
  | nil =>
    cases defined
    exact .refl _
  | cons d ds ih =>
    have tame := Atomic.tame_defineClass d none w
    rw [defineExtra] at defined
    generalize (Atomic.defineClass d none).runOn w = result at defined tame
    rcases result with ⟨f | c, u⟩
    · cases defined
    · exact tame.trans (ih defined)

theorem Boot.sane_initialWorld (e : Embedding η) {r : Registry} (built : r.Built) (offset : Nat) :
    (initialWorld e r offset).Sane := by
  have nothing (o : ObjectId) : (initialWorld e r offset).heap.get o = default := rfl
  refine ⟨built, fun o => ?_, fun o c mirrors => ?_⟩
  · rw [nothing]
    exact Nat.lt_of_lt_of_le (by decide) built.ordered.primitives
  · rw [nothing] at mirrors
    cases mirrors

/-- A runtime that has started is sane. -/
theorem Embedding.sane_boot {e : Embedding η} {w : World η} (booted : e.boot = .ok w) : w.Sane := by
  obtain ⟨r, offset, core, -, -, extra⟩ := boot_parts booted
  have start := Boot.sane_initialWorld e (Boot.built_defineCore .empty core) offset
  exact (Boot.tame_defineExtra extra start).1

end ManagedRuntime
