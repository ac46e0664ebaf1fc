import ManagedRuntime.Boot.Basic
import ManagedRuntime.Proofs.Loading.Backing

/-!
Answers to lookups after any run. A lookup takes a loader's word for the class that was asked for,
and a class file's. Main statement: all answers bear the names that were asked for and never differ
from one another, if and only if this is so for what loaders have named, set against what they have
defined themselves, and class files have held the classes they are named after.
-/
namespace ManagedRuntime.Lookup
open Registry Noting
variable {η : Type} {σ : Moment η Answer} {name : String} {loader : Reference} {c d : ClassId}

/-- Class `c` has been the answer to a lookup of this name, or would be at once. -/
def Answers (σ : Moment η Answer) (name : String) (loader : Reference) (c : ClassId) : Prop :=
  (∃ source, Answered σ ⟨name, loader, c, source⟩) ∨
    isArrayName name = false ∧ σ.world.registry.find? name loader = some c

def Faithful (σ : Moment η Answer) : Prop :=
  ∀ name loader c, Answers σ name loader c →
    (σ.world.cls c).name = name ∧ ∀ d, Answers σ name loader d → d = c

/-- Loaders have named classes as asked, always the same and their own if they have one; and class
files have held the classes they are named after. -/
structure Steady (σ : Moment η Answer) : Prop where
  named : ∀ name l c, Answered σ ⟨name, some l, c, .told⟩ → (σ.world.cls c).name = name
  once : ∀ name l c d, Answered σ ⟨name, some l, c, .told⟩ →
    Answered σ ⟨name, some l, d, .told⟩ → d = c
  own : ∀ name l c d, Answered σ ⟨name, some l, c, .told⟩ →
    σ.world.registry.find? name (some l) = some d → d = c
  read : ∀ name c, Answered σ ⟨name, none, c, .read⟩ → (σ.world.cls c).name = name

theorem Faithful.steady (sound : Sound σ) (faithful : Faithful σ) : Steady σ where
  named name l c told := (faithful name (some l) c (.inl ⟨_, told⟩)).1
  once name l c d told told' := (faithful name (some l) c (.inl ⟨_, told⟩)).2 d (.inl ⟨_, told'⟩)
  own name l c d told found := by
    cases sound.backed _ told with
    | told plain _ => exact (faithful name (some l) c (.inl ⟨_, told⟩)).2 d (.inr ⟨plain, found⟩)
  read name c read := (faithful name none c (.inl ⟨_, read⟩)).1

def Stands (σ : Moment η Answer) (name : String) (loader : Reference) (c : ClassId) : Prop :=
  σ.world.registry.Known name loader c ∨
    ∃ l, loader = some l ∧ Answered σ ⟨name, some l, c, .told⟩

theorem Steady.stands (steady : Steady σ) (sound : Sound σ) (plain : isArrayName name = false)
    (answers : Answers σ name loader c) : Stands σ name loader c := by
  rcases answers with ⟨source, answered⟩ | ⟨-, found⟩
  · cases sound.backed _ answered with
    | own _ known => exact .inl known
    | told _ _ => exact .inr ⟨_, rfl, answered⟩
    | read _ known => exact .inl (steady.read name c answered ▸ known)
    | primitives array | elements array | delegated array =>
      rw [plain] at array
      cases array
  · exact .inl (find?_known found)

theorem Steady.stands_unique (steady : Steady σ) (keyed : σ.world.registry.Keyed)
    (first : Stands σ name loader c) (second : Stands σ name loader d) : d = c := by
  rcases first with known | ⟨l, rfl, told⟩
  · rcases second with known' | ⟨l, rfl, told⟩
    · exact keyed.unique d c known'.toResolved known.toResolved (known'.name.trans known.name.symm)
        (known'.loader.trans known.loader.symm)
    · exact (steady.own name l d c told (keyed.find?_iff.mpr known)).symm
  · rcases second with known | ⟨l', same, told'⟩
    · exact steady.own name l c d told (keyed.find?_iff.mpr known)
    · cases same
      exact steady.once name l c d told told'

def home (σ : Moment η Answer) (name : String) (loader : Reference) : Reference :=
  match elementName? name with
  | none => none
  | some element => if (σ.world.registry.find? element loader).isSome then loader else none

theorem Steady.made_known (steady : Steady σ) (keyed : σ.world.registry.Keyed)
    (backed : Backed σ ⟨name, loader, c, .made⟩) :
    σ.world.registry.Known name (home σ name loader) c := by
  unfold home
  cases backed with
  | primitives _ named known =>
    rw [named]
    exact known
  | elements _ named component known =>
    simp only [named, keyed.find?_iff.mpr component]
    exact known
  | @delegated _ element l _ e _ named told _ foreign known =>
    cases found : σ.world.registry.find? element (some l) with
    | none =>
      simp only [named, found]
      exact known
    | some d =>
      -- the loader has defined the element since, and then it had named that very class
      cases steady.own element l e d told found
      exact absurd (find?_known found) foreign

theorem Steady.faithful (steady : Steady σ) (sound : Sound σ) : Faithful σ := by
  have keyed := sound.sane.built.keyed
  intro name loader c answers
  cases plain : isArrayName name with
  | false =>
    have stands := steady.stands sound plain answers
    refine ⟨?_, fun d other => steady.stands_unique keyed stands (steady.stands sound plain other)⟩
    rcases stands with known | ⟨l, -, told⟩
    · exact known.name
    · exact steady.named name l c told
  | true =>
    have known {d : ClassId} (answers : Answers σ name loader d) :
        σ.world.registry.Known name (home σ name loader) d := by
      rcases answers with ⟨source, answered⟩ | ⟨plain', -⟩
      · have made : source = .made := by
          cases sound.backed _ answered with
          | own plain' | told plain' | read plain' =>
            rw [plain] at plain'
            cases plain'
          | primitives | elements | delegated => rfl
        subst made
        exact steady.made_known keyed (sound.backed _ answered)
      · rw [plain] at plain'
        cases plain'
    refine ⟨(known answers).name, fun d other => ?_⟩
    exact keyed.unique d c (known other).toResolved (known answers).toResolved
      ((known other).name.trans (known answers).name.symm)
      ((known other).loader.trans (known answers).loader.symm)

/-! Runs. -/

variable {code : AnnotatedCode η Answer} {p q : Pool η Answer}

theorem sound_of_run (guests : code.IsGuest) (sane : p.moment.world.Sane)
    (unnoted : p.moment.notes = [])
    (tasks : ∀ t, Guest (fun _ _ => True) p.moment.world.registry (p.tasks t))
    (run : Pool.Run code (fun _ _ _ => True) p q) : Sound q.moment := by
  have disciplined : code.Obeys discipline := by
    refine ⟨fun _ m args env ρ => ?_, fun _ f call env ρ => ?_⟩
    · exact (obeys_guest (guests.execute m args _ env) (.refl _)).weaken fun _ _ _ done => done.1
    · exact (obeys_guest (guests.native f call _ env) (.refl _)).weaken fun _ _ _ done => done.1
  have none (a : Answer) : ¬ Answered p.moment a := by
    rintro ⟨t, member⟩
    rw [unnoted] at member
    cases member
  have start : p.Kept discipline :=
    ⟨⟨sane, fun a answered => absurd answered (none a)⟩,
      fun t => (obeys_guest (tasks t) (.refl _)).weaken fun _ _ _ _ => trivial⟩
  exact (start.run disciplined run).sound

/-- After any run of guests, in whatever order the threads have moved, the answers are faithful if
and only if what loaders have named and what class files have held was steady. Without its notes a
lookup is the runtime's own program. A call is a guest. -/
theorem faithful_iff_steady (guests : code.IsGuest) (sane : p.moment.world.Sane)
    (unnoted : p.moment.notes = [])
    (tasks : ∀ t, Guest (fun _ _ => True) p.moment.world.registry (p.tasks t))
    (run : Pool.Run code (fun _ _ _ => True) p q) :
    (Faithful q.moment ↔ Steady q.moment) ∧
      (∀ name loader, (findClass name loader : Noting η Answer ClassId).plain =
        Exec.findClass name loader) ∧
      (∀ name initialized loader, (classForName name initialized loader : Noting η Answer _).plain =
        Exec.classForName name initialized loader) ∧
      ∀ m args r, IsGuest r (fun _ _ => True)
        (ofExec (Exec.callMethod m args) : Noting η Answer _) := by
  have sound := sound_of_run guests sane unnoted tasks run
  exact ⟨⟨fun faithful => faithful.steady sound, fun steady => steady.faithful sound⟩,
    plain_findClass, plain_classForName, isGuest_callMethod⟩

/-! A loader that turns to one loader in one thread, and to another loader in all other threads. -/

def twinRegistry : Registry :=
  let root := (Registry.empty.define (ClassDef.named Registry.rootName).root none).2
  let mirrors := (root.define (.named "java/lang/Class") none).2
  let strings := (mirrors.define (.named "java/lang/String") none).2
  let loadClass := (ClassDef.named "Loader").publicMethod "loadClass"
    "(Ljava/lang/String;)Ljava/lang/Class;"
  let loaders := (strings.define loadClass none).2
  let first := (loaders.define (.named "N") (some ⟨0⟩)).2
  (first.define (.named "N") (some ⟨1⟩)).2

def twinWorld : World Unit :=
  { Boot.initialWorld .silent twinRegistry 0 with
    heap := { Heap.empty 0 0 with
      objects := Array.replicate 3 { cls := ⟨12⟩, fields := #[], payload := .plain } } }

theorem sane_twinWorld : twinWorld.Sane := by
  have built : twinRegistry.Built := by
    unfold twinRegistry
    refine Built.define (Built.define ?_ _ _) _ _
    exact (((Built.empty.define _ _).define _ _).define _ _).define _ _
  have size : twinWorld.registry.loaded.size = 15 := by decide +kernel
  have objects (o : ObjectId) :
      (twinWorld.heap.get o).cls.index < 15 ∧ (twinWorld.heap.get o).mirrored? = none := by
    obtain ⟨i⟩ := o
    match i with
    | 0 | 1 | 2 => exact ⟨by decide, rfl⟩
    | i + 3 => exact ⟨Nat.succ_pos _, rfl⟩
  refine ⟨built, fun o => ?_, fun o c mirrors => ?_⟩
  · rw [size]
    exact (objects o).1
  · rw [(objects o).2] at mirrors
    cases mirrors

def parentFor (e : Env) : ObjectId := if e.thread = ⟨0⟩ then ⟨0⟩ else ⟨1⟩

def fickleCode : AnnotatedCode Unit Answer where
  execute _ _ := do
    let e ← get
    let m ← classForName "N" false (some (parentFor e))
    return some (.ref (some m))
  native _ _ := throw .nullReference

theorem isGuest_fickleCode : fickleCode.IsGuest where
  execute _ _ r := by
    have asks : IsGuest r (fun _ _ => True) (get : Noting Unit Answer Env) :=
      fun _ => .done fun _ _ _ _ => trivial
    refine isGuest_bind asks fun e r' _ _ => ?_
    exact isGuest_bind (isGuest_classForName "N" false _ r') fun m _ _ _ =>
      isGuest_pure fun _ _ => trivial
  native _ _ _ := isGuest_throw _

def twinPool : Pool Unit Answer where
  moment := ⟨twinWorld, []⟩
  tasks t := ((findClass (if t = ⟨2⟩ then "M" else "N") (some ⟨2⟩)).runIn (.new t 8)).bind
    fun _ => .done ()

theorem guest_twinPool (t : ThreadId) :
    Guest (fun _ _ => True) twinPool.moment.world.registry (twinPool.tasks t) :=
  .lookup fun _ _ _ _ => .done fun _ _ => trivial

/-- Threads `0` and `1` find different classes under one name, and thread `2` finds a class under a
name that is not its own. -/
theorem told_unsteadily :
    fickleCode.IsGuest ∧ twinPool.moment.world.Sane ∧ ∃ q,
      Pool.Run fickleCode (fun _ _ _ => True) twinPool q ∧
        Answers q.moment "N" (some ⟨2⟩) ⟨13⟩ ∧ Answers q.moment "N" (some ⟨2⟩) ⟨14⟩ ∧
        Answers q.moment "M" (some ⟨2⟩) ⟨14⟩ ∧ (q.moment.world.cls ⟨14⟩).name ≠ "M" := by
  let order : List ThreadId := [0, 1, 2].flatMap fun t => List.replicate 9 ⟨t⟩
  have driven : (twinPool.drive fickleCode (fun _ _ _ => True) order).map (fun q =>
      (q.moment.notes, (q.moment.world.cls ⟨14⟩).name)) =
      some ([(⟨2⟩, ⟨"M", some ⟨2⟩, ⟨14⟩, .told⟩), (⟨2⟩, ⟨"N", some ⟨1⟩, ⟨14⟩, .own⟩),
        (⟨1⟩, ⟨"N", some ⟨2⟩, ⟨14⟩, .told⟩), (⟨1⟩, ⟨"N", some ⟨1⟩, ⟨14⟩, .own⟩),
        (⟨0⟩, ⟨"N", some ⟨2⟩, ⟨13⟩, .told⟩), (⟨0⟩, ⟨"N", some ⟨0⟩, ⟨13⟩, .own⟩)], "N") := by
    decide +kernel
  obtain ⟨q, drove, same⟩ := Option.map_eq_some_iff.mp driven
  obtain ⟨notes, name⟩ := Prod.mk.inj same
  have answered (t : ThreadId) (a : Answer) (member : (t, a) ∈ q.moment.notes) :
      Answers q.moment a.name a.loader a.cls := .inl ⟨a.source, t, member⟩
  refine ⟨isGuest_fickleCode, sane_twinWorld, q, Pool.run_of_drive drove, ?_, ?_, ?_, ?_⟩
  · exact answered ⟨0⟩ ⟨"N", some ⟨2⟩, ⟨13⟩, .told⟩ (by simp [notes])
  · exact answered ⟨1⟩ ⟨"N", some ⟨2⟩, ⟨14⟩, .told⟩ (by simp [notes])
  · exact answered ⟨2⟩ ⟨"M", some ⟨2⟩, ⟨14⟩, .told⟩ (by simp [notes])
  · rw [name]
    decide

/-- As long as threads `0` and `2` wait, the others find the same class. -/
theorem told_steadily :
    ∃ q, Pool.Run fickleCode (fun _ _ _ => True) twinPool q ∧
      Answers q.moment "N" (some ⟨2⟩) ⟨14⟩ ∧ Faithful q.moment := by
  let order : List ThreadId := [1, 3].flatMap fun t => List.replicate 9 ⟨t⟩
  have driven : (twinPool.drive fickleCode (fun _ _ _ => True) order).map (fun q =>
      (q.moment.notes, (q.moment.world.cls ⟨14⟩).name,
        q.moment.world.registry.find? "N" (some ⟨2⟩))) =
      some ([(⟨3⟩, ⟨"N", some ⟨2⟩, ⟨14⟩, .told⟩), (⟨3⟩, ⟨"N", some ⟨1⟩, ⟨14⟩, .own⟩),
        (⟨1⟩, ⟨"N", some ⟨2⟩, ⟨14⟩, .told⟩), (⟨1⟩, ⟨"N", some ⟨1⟩, ⟨14⟩, .own⟩)], "N", none) := by
    decide +kernel
  obtain ⟨q, drove, same⟩ := Option.map_eq_some_iff.mp driven
  simp only [Prod.mk.injEq] at same
  obtain ⟨notes, name, unknown⟩ := same
  have run := Pool.run_of_drive drove
  have only (a : Answer) (answered : Answered q.moment a) :
      a = ⟨"N", some ⟨2⟩, ⟨14⟩, .told⟩ ∨ a = ⟨"N", some ⟨1⟩, ⟨14⟩, .own⟩ := by
    obtain ⟨t, member⟩ := answered
    rw [notes] at member
    simp at member
    rcases member with ⟨-, same⟩ | ⟨-, same⟩ | ⟨-, same⟩ | ⟨-, same⟩ <;> simp [same]
  have told {n : String} {l : ObjectId} {c : ClassId}
      (answered : Answered q.moment ⟨n, some l, c, .told⟩) : n = "N" ∧ l = ⟨2⟩ ∧ c = ⟨14⟩ := by
    rcases only _ answered with same | same
    · cases same
      exact ⟨rfl, rfl, rfl⟩
    · cases same
  have steady : Steady q.moment := by
    refine ⟨fun n l c answered => ?_, fun n l c d answered answered' => ?_,
      fun n l c d answered found => ?_, fun n c answered => ?_⟩
    · obtain ⟨rfl, -, rfl⟩ := told answered
      exact name
    · obtain ⟨-, -, rfl⟩ := told answered
      obtain ⟨-, -, rfl⟩ := told answered'
      rfl
    · obtain ⟨rfl, rfl, -⟩ := told answered
      rw [unknown] at found
      cases found
    · rcases only _ answered with same | same <;> cases same
  refine ⟨q, run, .inl ⟨.told, ⟨1⟩, by simp [notes]⟩, ?_⟩
  exact (faithful_iff_steady isGuest_fickleCode sane_twinWorld rfl guest_twinPool run).1.mpr steady

end ManagedRuntime.Lookup
