import ManagedRuntime.Proofs.Execution.Orderly

/-!
Which objects mirror a class. A class has one mirror on record, made when it is first asked for, and
no change by the runtime makes another. A copy of a mirror is another. Main statement: along a run
from the start of a runtime every class has one mirror throughout, exactly if no step of the run
copies a mirror.
-/
namespace ManagedRuntime
variable {η ν : Type}

namespace World
variable {w v : World η}

/-- At most one live object mirrors a class, and it is the one that is given as the mirror. -/
structure UniqueMirrors (w : World η) : Prop where
  same : ∀ c o p, (w.heap.get o).live = true → (w.heap.get p).live = true →
    (w.heap.get o).mirrored? = some c → (w.heap.get p).mirrored? = some c → o = p
  given : ∀ c o, (w.heap.get o).live = true → (w.heap.get o).mirrored? = some c →
    (Atomic.mirror c).runOn w = (.ok o, w)

/-- Every object that mirrors a class, live or not, is on record as its mirror. -/
def MirrorsRecorded (w : World η) : Prop :=
  ∀ o c, (w.heap.get o).mirrored? = some c → (w.registry.state c).mirror = some o

def CopiesMirror (w v : World η) : Prop :=
  ∃ refs o c m, (w.heap.get o).mirrored? = some c ∧
    (Atomic.copyObject o).runOn (w.during refs) = (.ok m, v)

theorem MirrorsRecorded.unique (recorded : w.MirrorsRecorded) : w.UniqueMirrors where
  same c o p _ _ first second :=
    Option.some.inj ((recorded o c first).symm.trans (recorded p c second))
  given c o _ mirrors := Atomic.runOn_mirror_of_recorded (recorded o c mirrors)

theorem there_of_recorded {c : ClassId} {o : ObjectId}
    (recorded : (w.registry.state c).mirror = some o) : c.index < w.registry.loaded.size := by
  refine Nat.lt_of_not_le fun outside => ?_
  rw [Registry.state, Array.getElem?_eq_none outside] at recorded
  cases recorded

theorem MirrorsRecorded.ofHeap {heap : Heap} (recorded : w.MirrorsRecorded)
    (same : ∀ o, (heap.get o).mirrored? = (w.heap.get o).mirrored?) :
    MirrorsRecorded { w with heap } := by
  intro o c mirrors
  rw [show (({ w with heap } : World η).heap.get o).mirrored? = _ from same o] at mirrors
  exact recorded o c mirrors

theorem MirrorsRecorded.ofAlike {heap : Heap} (recorded : w.MirrorsRecorded)
    (alike : w.heap.Alike heap) : MirrorsRecorded { w with heap } := by
  refine recorded.ofHeap fun o => ?_
  rw [Object.mirrored?, alike.payload o]
  rfl

theorem MirrorsRecorded.ofGrows {r : Registry} (recorded : w.MirrorsRecorded)
    (grows : Registry.Grows w.registry r) : MirrorsRecorded { w with registry := r } := by
  intro o c mirrors
  have old := recorded o c mirrors
  dsimp only
  rw [grows.state (there_of_recorded old)]
  exact old

theorem MirrorsRecorded.push {heap : Heap} {accounting : Accounting} {x : Object}
    (recorded : MirrorsRecorded { w with heap })
    (new : ∀ c, x.mirrored? = some c → (w.registry.state c).mirror = some ⟨heap.objects.size⟩) :
    MirrorsRecorded { w with heap := ⟨heap.objects.push x, accounting⟩ } := by
  intro o c mirrors
  dsimp only at mirrors ⊢
  rw [Heap.get_push] at mirrors
  split at mirrors
  · rename_i last
    obtain rfl : o = ⟨heap.objects.size⟩ := by cases o; cases last; rfl
    exact new c mirrors
  · exact recorded o c mirrors

theorem MirrorsRecorded.allocate {x : Object} (recorded : w.MirrorsRecorded)
    (plain : x.mirrored? = none) : ((Atomic.allocate x).runOn w).2.MirrorsRecorded := by
  have comes := Atomic.allocate_cases w x
  generalize (Atomic.allocate x).runOn w = result at comes ⊢
  cases comes with
  | exhausted alike _ => exact recorded.ofAlike alike
  | made alike _ =>
    refine (recorded.ofAlike alike).push fun c mirrors => ?_
    rw [plain] at mirrors
    cases mirrors

theorem MirrorsRecorded.recordMirror {heap : Heap} {accounting : Accounting} {x : Object}
    {c : ClassId} (recorded : w.MirrorsRecorded) (alike : w.heap.Alike heap)
    (bare : (w.registry.state c).mirror = none) (there : c.index < w.registry.loaded.size)
    (mirrored : x.mirrored? = some c) :
    MirrorsRecorded { w with
      heap := ⟨heap.objects.push x, accounting⟩
      registry := w.registry.modifyState c ({ · with mirror := some ⟨heap.objects.size⟩ }) } := by
  have old := recorded.ofAlike alike
  refine MirrorsRecorded.push (w := { w with
    heap, registry := w.registry.modifyState c ({ · with mirror := some ⟨heap.objects.size⟩ }) })
    (fun o d mirrors => ?_) fun d mirrors => ?_
  · have before := old o d mirrors
    dsimp only at before ⊢
    rw [Registry.state_modifyState, if_neg]
    · exact before
    · rintro ⟨rfl, -⟩
      cases bare.symm.trans before
  · obtain rfl : c = d := Option.some.inj (mirrored.symm.trans mirrors)
    dsimp only
    rw [Registry.state_modifyState, if_pos ⟨rfl, there⟩]

theorem MirrorsRecorded.mirror {c : ClassId} (recorded : w.MirrorsRecorded)
    (there : c.index < w.registry.loaded.size) :
    ((Atomic.mirror c).runOn w).2.MirrorsRecorded := by
  have comes := Atomic.mirroring w c
  generalize (Atomic.mirror c).runOn w = result at comes ⊢
  cases comes with
  | recorded | missing => exact recorded
  | exhausted alike _ => exact recorded.ofAlike alike
  | made bare alike _ mirrors =>
    rw [← alike.size]
    exact recorded.recordMirror alike bare there mirrors

/-- No change by the runtime makes a second mirror. -/
theorem MirrorsRecorded.change (recorded : w.MirrorsRecorded) (sane : w.Sane)
    (change : Change w v) : v.MirrorsRecorded := by
  have primitives := sane.built.ordered.primitives
  cases change with
  | arrayClass name loader =>
    exact recorded.ofGrows (Registry.arrayClass_leads primitives name loader).1.grows
  | arrayOf there => exact recorded.ofGrows (Registry.arrayOf_leads there).1.grows
  | define d loader => exact recorded.ofGrows (Registry.define_grows d loader primitives)
  | state c same =>
    intro o d mirrors
    have old := recorded o d mirrors
    dsimp only
    rw [Registry.state_modifyState]
    split
    · rw [same]
      exact old
    · exact old
  | allocate there plain => exact recorded.allocate plain
  | mirror there => exact recorded.mirror there
  | @contents o f cls same =>
    refine recorded.ofHeap fun p => ?_
    rw [Heap.get_modify]
    split
    · rename_i here
      rw [← here.1, same]
    · rfl
  | collection | interned | threads | outside => exact recorded

theorem MirrorsRecorded.changes (recorded : w.MirrorsRecorded) (sane : w.Sane)
    (changes : w.Changes v) : v.MirrorsRecorded := by
  induction changes with
  | refl => exact recorded
  | tail earlier change ih => exact ih.change (World.Changes.tame earlier sane).1 change

theorem runOn_copyObject (w : World η) (o : ObjectId) :
    (Atomic.copyObject o).runOn w = (Atomic.allocate (w.heap.copyOf o)).runOn w := by
  unfold Atomic.copyObject
  rw [Atomic.runOn_get_bind]

/-- A copy of an object that is no mirror is none, and where memory runs out there is no copy. -/
theorem MirrorsRecorded.advance (recorded : w.MirrorsRecorded) (sane : w.Sane)
    (advances : w.Advances v) (uncopied : ¬ w.CopiesMirror v) : v.MirrorsRecorded := by
  rcases advances with rfl | ⟨refs, changes | ⟨o, rfl⟩⟩
  · exact recorded
  · exact MirrorsRecorded.changes (w := w.during refs) recorded (sane.during refs) changes
  · have during : (w.during refs).MirrorsRecorded := recorded
    rw [runOn_copyObject] at uncopied ⊢
    have comes := Atomic.allocate_cases (w.during refs) ((w.during refs).heap.copyOf o)
    cases mirrors : (w.heap.get o).mirrored? with
    | none => exact during.allocate mirrors
    | some c =>
      cases ran : (Atomic.allocate ((w.during refs).heap.copyOf o)).runOn (w.during refs) with
      | mk r u =>
        rw [ran] at comes uncopied
        cases comes with
        | exhausted alike _ => exact during.ofAlike alike
        | made alike _ => exact absurd ⟨refs, o, c, _, mirrors, ran⟩ uncopied

/-- The copy of a mirror is alive, and is not the one on record. -/
theorem MirrorsRecorded.not_unique (recorded : w.MirrorsRecorded) (copies : w.CopiesMirror v) :
    ¬ v.UniqueMirrors := by
  obtain ⟨refs, o, c, m, mirrors, ran⟩ := copies
  intro unique
  have comes := Atomic.allocate_cases (w.during refs) ((w.during refs).heap.copyOf o)
  rw [← runOn_copyObject, ran] at comes
  cases comes with
  | @made heap accounting alike _ =>
    let copied : World η :=
      { w.during refs with heap := ⟨heap.objects.push ((w.during refs).heap.copyOf o), accounting⟩ }
    have made : copied.heap.get ⟨w.heap.objects.size⟩ = w.heap.copyOf o := by
      rw [Heap.get_push, if_pos (show w.heap.objects.size = heap.objects.size from alike.size.symm)]
      rfl
    have given := unique.given c ⟨w.heap.objects.size⟩ (by rw [made]; rfl)
      (by rw [made]; exact mirrors)
    rw [Atomic.runOn_mirror_of_recorded (w := copied) (recorded o c mirrors)] at given
    -- an object that mirrors a class was there before its copy
    have last : o = ⟨w.heap.objects.size⟩ := Except.ok.inj (Prod.mk.inj given).1
    rw [last, Heap.get, Array.getElem?_eq_none (Nat.le_refl _)] at mirrors
    cases mirrors

theorem MirrorsRecorded.uncopied (recorded : w.MirrorsRecorded) (sane : w.Sane)
    (changes : v = w ∨ ∃ refs, (w.during refs).Changes v) : ¬ w.CopiesMirror v := by
  intro copies
  refine recorded.not_unique copies ?_
  rcases changes with rfl | ⟨refs, changes⟩
  · exact recorded.unique
  · have during : (w.during refs).MirrorsRecorded := recorded
    exact (during.changes (sane.during refs) changes).unique

end World

theorem Embedding.heap_boot {e : Embedding η} {w : World η} (booted : e.boot = .ok w) :
    w.heap = .empty e.options.maxHeapBytes e.options.initialHeapBytes := by
  have extra (ds : List ClassDef) (u : World η) (defined : Boot.defineExtra ds u = .ok w) :
      w.heap = u.heap := by
    induction ds generalizing u with
    | nil =>
      cases defined
      rfl
    | cons d ds ih =>
      have same : ((Atomic.defineClass d none).runOn u).2.heap = u.heap := by
        have ran : (Atomic.addClass d none).runOn u =
          ((u.registry.define d none).1, { u with registry := (u.registry.define d none).2 }) := rfl
        unfold Atomic.defineClass
        rw [Atomic.runOn_bind, ran]
        cases (u.registry.define d none).1 <;> rfl
      rw [Boot.defineExtra] at defined
      generalize (Atomic.defineClass d none).runOn u = result at defined same
      rcases result with ⟨f | c, u'⟩
      · cases defined
      · exact (ih u' defined).trans same
  obtain ⟨r, offset, -, -, -, defined⟩ := boot_parts booted
  exact extra _ _ defined

theorem Embedding.recorded_boot {e : Embedding η} {w : World η} (booted : e.boot = .ok w) :
    w.MirrorsRecorded := by
  intro o c mirrors
  have bare : w.heap.get o = default := by rw [heap_boot booted]; rfl
  rw [bare] at mirrors
  cases mirrors

namespace Pool
open World
variable {code : AnnotatedCode η ν} {meant : ThreadId → Moment η ν → ν → Prop} {p q : Pool η ν}

theorem recorded_of_unique (codes : code.plain.Orderly) (orderly : p.Orderly)
    (recorded : p.moment.world.MirrorsRecorded) (run : Run code meant p q)
    (unique : ∀ r, Run code meant p r → Run code meant r q → r.moment.world.UniqueMirrors) :
    q.moment.world.MirrorsRecorded := by
  induction run with
  | refl => exact recorded
  | @step r s t before step ih =>
    have earlier := ih fun u first second => unique u first (second.step step)
    have orderly' := orderly.run codes before
    refine earlier.advance orderly'.sane (orderly'.step codes step).1 fun copies => ?_
    exact earlier.not_unique copies (unique s (before.step step) .refl)

theorem recorded_of_uncopied (codes : code.plain.Orderly) (orderly : p.Orderly)
    (recorded : p.moment.world.MirrorsRecorded) (run : Run code meant p q)
    (uncopied : ∀ r s t, Run code meant p r → Step code meant t r s → Run code meant s q →
      ¬ r.moment.world.CopiesMirror s.moment.world) : q.moment.world.MirrorsRecorded := by
  induction run with
  | refl => exact recorded
  | @step r s t before step ih =>
    have earlier := ih fun u v t' first middle last => uncopied u v t' first middle (last.step step)
    have orderly' := orderly.run codes before
    have advances := (orderly'.step codes step).1
    exact earlier.advance orderly'.sane advances (uncopied r s t before step .refl)

/-- From the start of a runtime on, with any code of the embedding program that comes by its classes
in order. -/
theorem unique_iff_uncopied {e : Embedding η}
    {execute : Method → List Value → Exec η (Option Value)}
    {embedded : Nat → NativeCall → Exec η Nat} (core : code.plain = .withCore execute embedded)
    (bodies : ∀ n m args, m.owner.index < n → Exec.Orderly n (execute m args) fun _ => [])
    (natives : ∀ n i call, Exec.Orderly n (embedded i call) fun _ => [])
    (booted : e.boot = .ok p.moment.world)
    (threads : ∀ t,
      (p.tasks t).plain.Orderly (fun _ => []) p.moment.world.registry.loaded.size) :
    (∀ r, Run code meant p r → Run code meant r q → r.moment.world.UniqueMirrors) ↔
      ∀ r s t, Run code meant p r → Step code meant t r s → Run code meant s q →
        ¬ r.moment.world.CopiesMirror s.moment.world := by
  have codes : code.plain.Orderly := by
    rw [core]
    exact Code.orderly_withCore bodies natives
  have orderly : p.Orderly := ⟨Embedding.sane_boot booted, threads⟩
  have recorded := Embedding.recorded_boot booted
  constructor
  · intro unique r s t before step after copies
    have onTheWay := recorded_of_unique codes orderly recorded before fun u first second =>
      unique u first ((second.step step).trans after)
    exact onTheWay.not_unique copies (unique s (before.step step) after)
  · intro uncopied r before after
    refine (recorded_of_uncopied codes orderly recorded before ?_).unique
    exact fun u v t first step second => uncopied u v t first step (second.trans after)

/-! The runtime's classes, with no methods but those of objects. -/

def objectsAlone : Embedding Unit :=
  { Embedding.silent with
    classes := Universe.definitions.map fun d =>
      if d.name = "java/lang/VMObject" then d else { d with methods := [] }
    natives := .bootstrap }

def coreCode : AnnotatedCode Unit Unit where
  execute _ _ := throw .nullReference
  native
    | .core f, call => .ofExec (f.run call)
    | .embedded _, _ => throw .nullReference

def alike (w : World Unit) (x : Exec Unit α) : Pool Unit Unit where
  moment := ⟨w, []⟩
  tasks t := .ofTask ((x.runIn (.new t 8)).bind fun _ => .done ())

def mirrorOfRoot : Atomic Unit ObjectId := Atomic.bootClass Registry.rootName >>= Atomic.mirror

def askForMirror : Exec Unit ObjectId := Exec.act mirrorOfRoot

def cloneMirror : Exec Unit (Option Value) := do
  let holder ← Exec.act (Atomic.bootClass "java/lang/VMObject")
  let original ← Exec.act (Atomic.mirror holder)
  let clone ← Exec.act (Atomic.ask
    (·.registry.lookupMethod? holder "clone" "(Ljava/lang/Cloneable;)Ljava/lang/Object;"))
  match clone with
  | none => throw .nullReference
  | some m => Exec.callMethod m [.ref (some original)]

theorem run_objectsAlone (order : List ThreadId) (x : Exec Unit α) (f : World Unit → β) {b : β}
    (driven : (objectsAlone.boot.toOption.bind fun w =>
      ((alike w x).drive coreCode (fun _ _ _ => True) order).map (f ·.moment.world)) = some b) :
    ∃ w q, objectsAlone.boot = .ok w ∧ Run coreCode (fun _ _ _ => True) (alike w x) q ∧
      f q.moment.world = b := by
  obtain ⟨w, booted, driven⟩ := Option.bind_eq_some_iff.mp driven
  obtain ⟨q, drove, same⟩ := Option.map_eq_some_iff.mp driven
  refine ⟨w, q, ?_, run_of_drive drove, same⟩
  cases started : objectsAlone.boot with
  | error _ =>
    rw [started] at booted
    cases booted
  | ok v =>
    rw [started] at booted
    cases booted
    rfl

def AsksForMirror (t : ThreadId) (x : Task Unit Unit) : Prop :=
  x = (askForMirror.runIn (.new t 8)).bind (fun _ => .done ()) ∨ x = .done ()

theorem step_askForMirror (code : Code Unit) (refs : List ObjectId) (w : World Unit)
    (t : ThreadId) :
    ((askForMirror.runIn (.new t 8)).bind fun _ => .done ()).step code refs w =
      .stepped (.done ())
        (mirrorOfRoot.runOn (w.during ((Env.new t 8).references ++ refs))).2 := rfl

theorem changes_askForMirror {r s : Pool Unit Unit} {t : ThreadId} (sane : r.moment.world.Sane)
    (asks : ∀ t, AsksForMirror t (r.tasks t).plain)
    (step : Step coreCode (fun _ _ _ => True) t r s) :
    (s.moment.world = r.moment.world ∨
        ∃ refs, (r.moment.world.during refs).Changes s.moment.world) ∧
      ∀ t, AsksForMirror t (s.tasks t).plain := by
  obtain ⟨others, own⟩ := step.plain
  have rest (own : AsksForMirror t (s.tasks t).plain) (u : ThreadId) :
      AsksForMirror u (s.tasks u).plain := by
    by_cases same : u = t
    · rw [same]
      exact own
    · rw [others u same]
      exact asks u
  rcases own with ⟨same, still⟩ | ⟨refs, stepped⟩
  · refine ⟨.inl still, rest ?_⟩
    rw [same]
    exact asks t
  · rcases asks t with start | finished
    · rw [start, step_askForMirror] at stepped
      obtain ⟨finished, changed⟩ := Progress.stepped.inj stepped
      refine ⟨.inr ⟨(Env.new t 8).references ++ refs, ?_⟩, rest (.inr finished.symm)⟩
      rw [← changed]
      exact (Atomic.orderly_bootMirror _ (sane.during _)).1
    · rw [finished] at stepped
      cases stepped

theorem orderly_alike {w : World Unit} {x : Exec Unit α}
    (orderly : ∀ n, Exec.Orderly n x fun _ => []) (t : ThreadId) :
    ((alike w x).tasks t).plain.Orderly (fun _ => []) w.registry.loaded.size := by
  rw [alike, Annotated.plain_ofTask]
  exact (orderly _ _ _ (Nat.le_refl _) .nil).bind fun _ _ _ _ => .done .nil

theorem plain_coreCode : coreCode.plain =
    .withCore (fun _ _ => throw .nullReference) fun _ _ => throw .nullReference := by
  refine congrArg (Code.mk _) (funext fun f => funext fun call => ?_)
  cases f with
  | core f => exact Noting.plain_ofExec _
  | embedded i => rfl

theorem recorded_askForMirror {w : World Unit} (sane : w.Sane) (recorded : w.MirrorsRecorded)
    {r : Pool Unit Unit} (run : Run coreCode (fun _ _ _ => True) (alike w askForMirror) r) :
    (∀ t, AsksForMirror t (r.tasks t).plain) ∧ r.moment.world.Sane ∧
      r.moment.world.MirrorsRecorded := by
  induction run with
  | refl => exact ⟨fun t => .inl (Annotated.plain_ofTask _), sane, recorded⟩
  | step _ step ih =>
    obtain ⟨asks, sane, recorded⟩ := ih
    obtain ⟨changes, asks⟩ := changes_askForMirror sane asks step
    refine ⟨asks, ?_⟩
    rcases changes with same | ⟨refs, changes⟩
    · rw [same]
      exact ⟨sane, recorded⟩
    · have during := sane.during refs
      refine ⟨(World.Changes.tame changes during).1, ?_⟩
      exact MirrorsRecorded.changes (w := World.during _ refs) recorded during changes

/-- However two threads come to ask for the mirror of the root, it has one. -/
theorem unique_of_race :
    ∃ w q, objectsAlone.boot = .ok w ∧
      Run coreCode (fun _ _ _ => True) (alike w askForMirror) q ∧
      q.moment.world.heap.objects.map (·.mirrored?) = #[some ⟨9⟩] ∧
      ∀ r, Run coreCode (fun _ _ _ => True) (alike w askForMirror) r →
        Run coreCode (fun _ _ _ => True) r q → r.moment.world.UniqueMirrors := by
  obtain ⟨w, q, booted, run, mirrors⟩ := run_objectsAlone [⟨0⟩, ⟨1⟩] askForMirror
    (fun w => w.heap.objects.map (·.mirrored?)) (b := #[some ⟨9⟩]) (by decide +kernel)
  have throws {β : Type} (n : Nat) (f : Failure) :
      Exec.Orderly n (throw f : Exec Unit β) fun _ => [] := Exec.tracks_orderly.throw f
  have asking (n : Nat) : Exec.Orderly n askForMirror fun _ => [] :=
    Exec.tracks_orderly.act fun _ _ => Atomic.orderly_bootMirror _
  refine ⟨w, q, booted, run, mirrors, ?_⟩
  refine (unique_iff_uncopied (e := objectsAlone) plain_coreCode (fun n _ _ _ => throws n _)
    (fun n _ _ => throws n _) booted (orderly_alike asking)).mpr fun r s t before step _ => ?_
  obtain ⟨asks, sane, recorded⟩ := recorded_askForMirror (Embedding.sane_boot booted)
    (Embedding.recorded_boot booted) before
  exact MirrorsRecorded.uncopied recorded sane (changes_askForMirror sane asks step).1

/-- A class with two mirrors that are both alive. -/
theorem mirror_cloned :
    ∃ w q, objectsAlone.boot = .ok w ∧
      Run coreCode (fun _ _ _ => True) (alike w cloneMirror) q ∧
      ∃ o p c, o ≠ p ∧ (q.moment.world.heap.get o).live = true ∧
        (q.moment.world.heap.get p).live = true ∧
        (q.moment.world.heap.get o).mirrored? = some c ∧
        (q.moment.world.heap.get p).mirrored? = some c := by
  obtain ⟨w, q, booted, run, mirrors⟩ := run_objectsAlone (List.replicate 6 ⟨0⟩)
    cloneMirror (fun w => [0, 1].map fun i => ((w.heap.get ⟨i⟩).live, (w.heap.get ⟨i⟩).mirrored?))
    (b := [(true, some ⟨32⟩), (true, some ⟨32⟩)]) (by decide +kernel)
  simp only [List.map_cons, List.map_nil, List.cons.injEq, Prod.mk.injEq] at mirrors
  obtain ⟨⟨live, first⟩, ⟨live', second⟩, -⟩ := mirrors
  exact ⟨w, q, booted, run, ⟨0⟩, ⟨1⟩, ⟨32⟩, by decide, live, live', first, second⟩

end Pool
end ManagedRuntime
