import ManagedRuntime.Boot.Basic
import ManagedRuntime.Proofs.Class.Layout
import ManagedRuntime.Proofs.Heap.Reclaim
import Mathlib.Control.Monad.Basic

/-!
Definitions of classes and their mirrors, as changes of the shared state. A definition adds one
class under a name that its loader had not given away, or none. The mirror of a class has room for a
protection domain in every runtime that has started. Main statements: what a definition and what the
making of a mirror come to, and that a started runtime keeps room for protection domains.
-/
namespace ManagedRuntime

namespace Registry
variable {r r' : Registry} {name : String} {loader : Reference} {c : ClassId}

structure Adds (r : Registry) (name : String) (loader : Reference) (c : ClassId) (r' : Registry) :
    Prop where
  built : r'.Built
  later : Later r r'
  new : r.loaded.size ≤ c.index
  known : r'.Known name loader c
  plain : isArrayName name = false
  unknown : r.find? name loader = none
  others : ∀ n l, isArrayName n = false → (n ≠ name ∨ l ≠ loader) → r'.find? n l = r.find? n l

theorem Adds.modifyState (adds : r.Adds name loader c r') (f : ClassState → ClassState) :
    r.Adds name loader c (r'.modifyState c f) where
  built := adds.built.modifyState c f
  later := adds.later.trans (.modifyState c f)
  new := adds.new
  known := (Later.modifyState c f).known adds.known
  plain := adds.plain
  unknown := adds.unknown
  others n l plain other := by
    rw [find?_modifyState]
    exact adds.others n l plain other

/-- A definition adds its class or is refused, and then only array classes are new. -/
theorem Built.define_cases (built : r.Built) (d : ClassDef) (loader : Reference) :
    (∃ f r', r.define d loader = (.error f, r') ∧ Widens r r' ∧ r'.Built) ∨
      ∃ c r', r.define d loader = (.ok c, r') ∧ r.Adds d.name loader c r' ∧
        (r'.state c).mirror = none := by
  have comes := Registry.define_cases d loader built.ordered.primitives
  have built' := built.define d loader
  generalize r.define d loader = result at comes built' ⊢
  cases comes with
  | @refused f r' widens => exact .inl ⟨f, r', rfl, widens, built'⟩
  | @defined r' superclass interfaces x widens named plain new above beside made =>
    obtain ⟨name, kind, -, -, -, defines, -, -, -⟩ := makes_of_build made
    have last : ((⟨r'.loaded.size⟩ : ClassId)).index = r'.loaded.size := rfl
    refine .inr ⟨_, _, rfl, ⟨built', ?_, widens.size, ⟨⟨?_, ?_⟩, ?_, ?_⟩, plain, new, ?_⟩, ?_⟩
    · exact (widens.extends built.ordered).later.trans (.add x)
    · rw [size_add]
      exact Nat.lt_succ_self _
    · rw [cls_add_last last, Class.isPrimitive, kind]
    · rw [cls_add_last last, name]
    · rw [cls_add_last last, defines]
    · intro n l plain' other
      rw [find?_add, widens.find? plain']
      have apart : (x.name == n && x.loader == l && !x.isPrimitive) = false := by
        rw [name, defines]
        rcases other with other | other
        · simp [Ne.symm other]
        · simp [Ne.symm other]
      simp [apart]
    · rw [state_add, if_pos last]
      rfl

end Registry

namespace Atomic
open Registry
variable {η : Type} {w : World η} {c : ClassId}

inductive DefinesClass (w : World η) (d : ClassDef) (loader : Reference) :
    Except Failure ClassId × World η → Prop
  | refused {f : Failure} {r : Registry} (widens : Widens w.registry r) (built : r.Built) :
      DefinesClass w d loader (.error f, { w with registry := r })
  | defined {c : ClassId} {r : Registry} (adds : w.registry.Adds d.name loader c r)
      (bare : (r.state c).mirror = none) :
      DefinesClass w d loader (.ok c, { w with registry := r })

theorem defineClass_cases (built : w.registry.Built) (d : ClassDef) (loader : Reference) :
    DefinesClass w d loader ((defineClass d loader).runOn w) := by
  have ran : (addClass d loader).runOn w =
      ((w.registry.define d loader).1, { w with registry := (w.registry.define d loader).2 }) := rfl
  unfold defineClass
  rw [runOn_bind, ran]
  rcases built.define_cases d loader with
    ⟨f, r, defined, widens, built'⟩ | ⟨c, r, defined, adds, bare⟩
  · rw [defined]
    exact .refused widens built'
  · rw [defined]
    refine .defined (adds.modifyState _) ?_
    rw [state_modifyState, if_pos ⟨rfl, adds.known.there⟩]
    exact bare

theorem runOn_findBootstrap {name : String} (plain : isArrayName name = false) :
    (findBootstrap name).runOn w = (.ok (w.registry.find? name none), w) := by
  have same : w.registry.findBootstrap name = (w.registry.find? name none, w.registry) := by
    rw [Registry.findBootstrap, findLoaded, if_neg (by simp [plain])]
  rw [show (findBootstrap name).runOn w = (.ok (w.registry.findBootstrap name).1,
    { w with registry := (w.registry.findBootstrap name).2 }) from rfl, same]

theorem runOn_bootClass {name : String} {k : ClassId} (plain : isArrayName name = false)
    (found : w.registry.find? name none = some k) : (bootClass name).runOn w = (.ok k, w) := by
  unfold bootClass
  rw [runOn_bind, runOn_findBootstrap plain, found]
  rfl

inductive Mirrors (w : World η) (c : ClassId) (o : Object) :
    Except Failure ObjectId × World η → Prop
  | made {m : ObjectId} {v : World η}
      (registry : v.registry = w.registry.modifyState c ({ · with mirror := some m }))
      (offset : v.domainOffset = w.domainOffset) (object : v.heap.get m = o) :
      Mirrors w c o (.ok m, v)
  | exhausted {v : World η} (registry : v.registry = w.registry)
      (full : v.heap.accounting.fits o.bytes = false) :
      Mirrors w c o
        (.error (.heapExhausted o.bytes v.heap.accounting.liveBytes v.heap.accounting.maxBytes), v)

theorem runOn_mirror {k : ClassId} (bare : (w.registry.state c).mirror = none)
    (boot : w.registry.find? "java/lang/Class" none = some k) :
    (mirror c).runOn w =
      match (allocate (Heap.newCarrier w.registry k (.mirror c))).runOn w with
      | (.ok m, v) =>
        (.ok m, { v with registry := v.registry.modifyState c ({ · with mirror := some m }) })
      | (.error f, v) => (.error f, v) := by
  have plain : isArrayName "java/lang/Class" = false := by decide +kernel
  unfold mirror
  rw [runOn_get_bind, bare]
  dsimp only
  rw [runOn_bind, runOn_bootClass plain boot]
  dsimp only
  unfold newCarrier
  rw [runOn_bind, runOn_get_bind]
  generalize (allocate (Heap.newCarrier w.registry k (.mirror c))).runOn w = result
  rcases result with ⟨f | m, v⟩ <;> rfl

theorem mirror_cases {k : ClassId} (bare : (w.registry.state c).mirror = none)
    (boot : w.registry.find? "java/lang/Class" none = some k) :
    Mirrors w c (Heap.newCarrier w.registry k (.mirror c)) ((mirror c).runOn w) := by
  rw [runOn_mirror bare boot]
  generalize Heap.newCarrier w.registry k (.mirror c) = o
  have allocates := allocate_cases w o
  generalize (allocate o).runOn w = result at allocates ⊢
  cases allocates with
  | @exhausted heap alike full => exact @Mirrors.exhausted η w c o { w with heap } rfl full
  | made alike =>
    refine .made rfl rfl ?_
    rw [Heap.get, ← alike.size]
    simp

theorem runOn_mirror_of_recorded {o : ObjectId} (recorded : (w.registry.state c).mirror = some o) :
    (mirror c).runOn w = (.ok o, w) := by
  unfold mirror
  rw [runOn_get_bind, recorded]
  rfl

/-- How the mirror of a class is come by: it is on record, or a new one is put on record, or there is
no class of mirrors, or there is no memory for one. -/
inductive Mirroring (w : World η) (c : ClassId) : Except Failure ObjectId × World η → Prop
  | recorded {o : ObjectId} (same : (w.registry.state c).mirror = some o) : Mirroring w c (.ok o, w)
  | made {heap : Heap} {accounting : Accounting} {x : Object}
      (bare : (w.registry.state c).mirror = none) (alike : w.heap.Alike heap)
      (limit : accounting.maxBytes = w.heap.accounting.maxBytes) (mirrors : x.mirrored? = some c) :
      Mirroring w c (.ok ⟨w.heap.objects.size⟩, { w with
        heap := ⟨heap.objects.push x, accounting⟩
        registry := w.registry.modifyState c ({ · with mirror := some ⟨w.heap.objects.size⟩ }) })
  | missing (none : w.registry.find? "java/lang/Class" none = none) :
      Mirroring w c (.error (.missingBootClass "java/lang/Class"), w)
  | exhausted {f : Failure} {heap : Heap} {bytes : Nat} (alike : w.heap.Alike heap)
      (full : heap.accounting.fits bytes = false) : Mirroring w c (.error f, { w with heap })

theorem mirroring (w : World η) (c : ClassId) : Mirroring w c ((mirror c).runOn w) := by
  have plain : isArrayName "java/lang/Class" = false := by decide +kernel
  cases bare : (w.registry.state c).mirror with
  | some o =>
    rw [runOn_mirror_of_recorded bare]
    exact .recorded bare
  | none =>
    cases boot : w.registry.find? "java/lang/Class" none with
    | none =>
      have failed : (mirror c).runOn w = (.error (.missingBootClass "java/lang/Class"), w) := by
        unfold mirror
        rw [runOn_get_bind, bare]
        dsimp only
        unfold bootClass
        rw [bind_assoc, runOn_bind, runOn_findBootstrap plain, boot]
        rfl
      rw [failed]
      exact .missing boot
    | some k =>
      rw [runOn_mirror bare boot]
      have comes := allocate_cases w (Heap.newCarrier w.registry k (.mirror c))
      generalize (allocate (Heap.newCarrier w.registry k (.mirror c))).runOn w = result at comes ⊢
      cases comes with
      | made alike limit => exact .made bare alike limit rfl
      | exhausted alike full => exact .exhausted alike full

end Atomic

theorem Heap.writeField?_ref {h : Heap} {o : ObjectId} {offset : Nat} (target : Reference)
    (inside : offset < (h.get o).fields.size) :
    ∃ h', h.writeField? o offset (.ref target) = some h' ∧
      h'.readField o offset none = some (.ref target) := by
  have there : o.index < h.objects.size := by
    refine Nat.lt_of_not_le fun outside => ?_
    rw [get, Array.getElem?_eq_none outside] at inside
    exact Nat.not_lt_zero _ inside
  let written : Object :=
    { h.get o with fields := (h.get o).fields.set! offset (.ref target) }
  refine ⟨h.modify o fun _ => written, ?_, ?_⟩
  · rw [writeField?, Object.writeField?, Slot.write?]
    simp only [Value.slots, if_pos inside]
    rfl
  · rw [readField, get_modify, if_pos ⟨rfl, there⟩, Object.readField, Slot.readAt]
    simp [written, inside, Value.read]

theorem Atomic.writeField_ref {η : Type} {w : World η} {o : ObjectId} {offset : Nat}
    (target : Reference) (inside : offset < (w.heap.get o).fields.size) :
    ∃ heap, (writeField o offset (.ref target)).runOn w = (.ok true, { w with heap }) ∧
      heap.readField o offset none = some (.ref target) := by
  obtain ⟨heap, wrote, read⟩ := Heap.writeField?_ref target inside
  refine ⟨heap, ?_, read⟩
  unfold writeField
  rw [runOn_get_bind, wrote]
  rfl

/-- Mirrors have room for the protection domains of their classes. -/
structure World.KeepsDomains {η : Type} (w : World η) : Prop where
  built : w.registry.Built
  room : ∃ k, w.registry.find? "java/lang/Class" none = some k ∧
    w.domainOffset < (w.cls k).template.length

namespace World
open Registry
variable {η : Type} {w v : World η}

theorem KeepsDomains.later (keeps : w.KeepsDomains) (built : v.registry.Built)
    (later : Later w.registry v.registry) (offset : v.domainOffset = w.domainOffset) :
    v.KeepsDomains where
  built := built
  room := by
    obtain ⟨k, found, room⟩ := keeps.room
    refine ⟨k, later.find? built found, ?_⟩
    rw [offset, World.cls, later.cls k (find?_known found).there]
    exact room

end World

namespace Boot
open Registry
variable {η : Type} {w v : World η}

theorem built_defineCore {natives : NativeRegistry} {ds : List ClassDef} {r r' : Registry}
    (built : r.Built) (defined : defineCore natives ds r = .ok r') : r'.Built := by
  induction ds generalizing r with
  | nil =>
    cases defined
    exact built
  | cons d ds ih =>
    rw [defineCore] at defined
    have built' := built.define d none
    generalize r.define d none = result at defined built'
    split at defined
    · cases defined
    · split at defined
      · cases defined
      · exact ih (built'.modifyState _ _) defined

theorem domainOffset?_eq_some {r : Registry} {offset : Nat} (built : r.Built)
    (found : domainOffset? r = some offset) :
    ∃ k f, r.find? "java/lang/Class" none = some k ∧
      (r.cls k).declaredField? domainField = some f ∧ f.descriptor = domainDescriptor ∧
      f.isStatic = false ∧ f.offset = offset ∧ offset < (r.cls k).template.length := by
  obtain ⟨k, mirrors, found⟩ := Option.bind_eq_some_iff.mp found
  obtain ⟨f, declared, found⟩ := Option.bind_eq_some_iff.mp found
  split at found
  · rename_i accepted
    cases found
    simp only [Bool.and_eq_true, beq_iff_eq, Bool.not_eq_true'] at accepted
    obtain ⟨type, inside⟩ := built.fields_fit (List.mem_of_find?_eq_some declared)
    have reference : FieldType.parse domainDescriptor =
        .ok (.object "java/security/ProtectionDomain") := by
      decide +kernel
    rw [accepted.1, reference] at type
    have slots : f.type.slotCount = 1 := by
      cases f
      cases type
      rfl
    have bound := inside accepted.2
    rw [slots] at bound
    exact ⟨k, f, mirrors, declared, accepted.1, accepted.2, rfl, bound⟩
  · cases found

theorem keepsDomains_initialWorld (e : Embedding η) {r : Registry} {offset : Nat} (built : r.Built)
    (found : domainOffset? r = some offset) : (initialWorld e r offset).KeepsDomains := by
  obtain ⟨k, f, mirrors, -, -, -, -, room⟩ := domainOffset?_eq_some built found
  exact ⟨built, k, mirrors, room⟩

theorem keepsDomains_defineExtra {ds : List ClassDef} (keeps : w.KeepsDomains)
    (defined : defineExtra ds w = .ok v) : v.KeepsDomains := by
  induction ds generalizing w with
  | nil =>
    cases defined
    exact keeps
  | cons d ds ih =>
    rw [defineExtra] at defined
    have comes := Atomic.defineClass_cases keeps.built d none
    generalize (Atomic.defineClass d none).runOn w = result at defined comes
    cases comes with
    | refused widens built => cases defined
    | defined adds _ =>
      have keeps' : World.KeepsDomains { w with registry := _ } :=
        keeps.later adds.built adds.later rfl
      exact ih keeps' defined

end Boot

/-- A start defines the runtime's classes and then the classes left over. -/
theorem Embedding.boot_parts {η : Type} {e : Embedding η} {w : World η} (booted : e.boot = .ok w) :
    ∃ r offset,
      Boot.defineCore e.natives (Boot.replaceCore Universe.definitions e.classes).1 .empty = .ok r ∧
      Boot.checkRequired r = .ok () ∧ Boot.domainOffset? r = some offset ∧
      Boot.defineExtra (Boot.replaceCore Universe.definitions e.classes).2
        (Boot.initialWorld e r offset) = .ok w := by
  unfold boot at booted
  simp only [bind, Except.bind] at booted
  split at booted
  · cases booted
  rename_i r defined
  split at booted
  · cases booted
  rename_i complete
  split at booted
  · cases booted
  rename_i offset found
  exact ⟨r, offset, defined, complete, found, booted⟩

/-- A runtime that has started has room in mirrors for protection domains. -/
theorem Embedding.keepsDomains_boot {η : Type} {e : Embedding η} {w : World η}
    (booted : e.boot = .ok w) : w.KeepsDomains := by
  obtain ⟨r, offset, core, -, found, extra⟩ := boot_parts booted
  have built := Boot.built_defineCore .empty core
  exact Boot.keepsDomains_defineExtra (Boot.keepsDomains_initialWorld e built found) extra

end ManagedRuntime
