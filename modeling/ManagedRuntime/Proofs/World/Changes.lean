import ManagedRuntime.Natives.Dispatch
import ManagedRuntime.Proofs.Class.Dispatch
import ManagedRuntime.Proofs.World.CoreClasses
import ManagedRuntime.Proofs.World.Tame
import Mathlib.Logic.Relation

/-!
The changes that the runtime makes to the shared state, by kinds. Copies of objects are kept apart:
a copy is whatever its original is. Main statements: changes are tame, and the atomic actions of the
natives make such changes alone and come to loaded classes alone.
-/
namespace ManagedRuntime
variable {η α β : Type}

def Loaded (n : Nat) (cs : List ClassId) : Prop := ∀ c ∈ cs, c.index < n

namespace Loaded
variable {n k : Nat} {c : ClassId} {cs : List ClassId}

theorem nil : Loaded n [] := nofun

theorem one (there : c.index < n) : Loaded n [c] := by
  intro d member
  rwa [List.mem_singleton.mp member]

theorem head (loaded : Loaded n (c :: cs)) : c.index < n := loaded c List.mem_cons_self

theorem cons (there : c.index < n) (loaded : Loaded n cs) : Loaded n (c :: cs) :=
  List.forall_mem_cons.mpr ⟨there, loaded⟩

theorem later (loaded : Loaded n cs) (more : n ≤ k) : Loaded k cs :=
  fun c member => Nat.lt_of_lt_of_le (loaded c member) more

theorem append {ds : List ClassId} : Loaded n (cs ++ ds) ↔ Loaded n cs ∧ Loaded n ds :=
  List.forall_mem_append

theorem exists_enough (n : Nat) (cs : List ClassId) : ∃ k, n ≤ k ∧ Loaded k cs := by
  induction cs with
  | nil => exact ⟨n, Nat.le_refl n, nil⟩
  | cons c cs ih =>
    obtain ⟨k, more, loaded⟩ := ih
    exact ⟨max k (c.index + 1), Nat.le_trans more (Nat.le_max_left ..),
      cons (Nat.le_max_right ..) (loaded.later (Nat.le_max_left ..))⟩

end Loaded

def Class.names (x : Class) : List ClassId := x.links ++ x.methods.map Method.owner

namespace Registry
variable {r : Registry}

theorem Built.owner_there (built : r.Built) {c : ClassId} {m : Method}
    (member : m ∈ (r.cls c).methods) : m.owner.index < r.loaded.size := by
  rw [(built.declared member).1]
  refine Nat.lt_of_not_le fun outside => ?_
  rw [cls_of_unloaded outside] at member
  cases member

theorem Built.names_there (built : r.Built) (c : ClassId) :
    Loaded r.loaded.size (r.cls c).names := by
  refine Loaded.append.mpr ⟨fun d link => ?_, fun d owner => ?_⟩
  · refine Nat.lt_trans (built.ordered.links c d link) (Nat.lt_of_not_le fun outside => ?_)
    rw [cls_of_unloaded outside] at link
    cases link
  · obtain ⟨m, member, rfl⟩ := List.mem_map.mp owner
    exact built.owner_there member

theorem Built.lookupMethod?_there (built : r.Built) {c : ClassId} {name descriptor : String}
    {m : Method} (found : r.lookupMethod? c name descriptor = some m) :
    m.owner.index < r.loaded.size := by
  rw [lookupMethod?_eq] at found
  obtain ⟨d, -, declared⟩ := List.exists_of_findSome?_eq_some found
  exact built.owner_there (List.mem_of_find?_eq_some declared)

theorem Built.virtualTarget_there (built : r.Built) {c : ClassId} {m target : Method}
    (there : m.owner.index < r.loaded.size) (found : r.virtualTarget c m = .ok target) :
    target.owner.index < r.loaded.size := by
  unfold virtualTarget at found
  split at found
  · cases found
    exact there
  · split at found
    · rename_i looked
      split at found
      · cases found
      · cases found
        exact built.lookupMethod?_there looked
    · cases found

end Registry

namespace World
open Registry

inductive Change (w : World η) : World η → Prop where
  | arrayClass (name : String) (loader : Reference) :
      Change w { w with registry := (w.registry.arrayClass name loader).2 }
  | arrayOf {c : ClassId} (there : c.index < w.registry.loaded.size) :
      Change w { w with registry := (w.registry.arrayOf c).2 }
  | define (d : ClassDef) (loader : Reference) :
      Change w { w with registry := (w.registry.define d loader).2 }
  | state (c : ClassId) {f : ClassState → ClassState} (same : ∀ s, (f s).mirror = s.mirror) :
      Change w { w with registry := w.registry.modifyState c f }
  | allocate {x : Object} (there : x.cls.index < w.registry.loaded.size)
      (plain : x.mirrored? = none) : Change w ((Atomic.allocate x).runOn w).2
  | mirror {c : ClassId} (there : c.index < w.registry.loaded.size) :
      Change w ((Atomic.mirror c).runOn w).2
  | contents (o : ObjectId) {f : Object → Object}
      (cls : (f (w.heap.get o)).cls = (w.heap.get o).cls)
      (same : (f (w.heap.get o)).mirrored? = (w.heap.get o).mirrored?) :
      Change w { w with heap := w.heap.modify o f }
  | collection : Change w w.noteCollection
  | interned (s : String) (o : ObjectId) : Change w { w with interned := (s, o) :: w.interned }
  | threads (records : Array ThreadRecord) (threads : ThreadTable) (starting : List ThreadStart)
      (deadlines : List Nat) : Change w { w with records, threads, starting, deadlines }
  | outside (x : η) : Change w { w with outside := x }

abbrev Changes (w v : World η) : Prop := Relation.ReflTransGen Change w v

variable {w v : World η}

theorem Sane.modify {o : ObjectId} {f : Object → Object} (sane : w.Sane)
    (cls : (f (w.heap.get o)).cls = (w.heap.get o).cls)
    (same : (f (w.heap.get o)).mirrored? = (w.heap.get o).mirrored?) :
    World.Sane { w with heap := w.heap.modify o f } where
  built := sane.built
  objects p := by
    dsimp only
    rw [Heap.get_modify]
    split
    · rename_i here
      rw [← here.1, cls]
      exact sane.objects o
    · exact sane.objects p
  mirrors p c found := by
    dsimp only at found
    rw [Heap.get_modify] at found
    split at found
    · rename_i here
      rw [← here.1, same] at found
      exact sane.mirrors o c found
    · exact sane.mirrors p c found

theorem Change.tame (change : Change w v) : Tame w v := by
  cases change with
  | arrayClass name loader => exact .ofRegistry fun built => built.arrayClass_later name loader
  | arrayOf there =>
    refine .ofRegistry fun built => ⟨built.arrayOf there, ?_⟩
    exact ((arrayOf_leads there).1.extends built.ordered).later
  | define d loader =>
    exact .ofRegistry fun built => ⟨built.define d loader, built.define_later d loader⟩
  | state c same => exact .ofRegistry fun built => ⟨built.modifyState c _, .modifyState c _⟩
  | allocate there plain =>
    exact Atomic.tame_allocate there fun c found => nomatch plain.symm.trans found
  | mirror there => exact Atomic.tame_mirror there
  | contents o cls same => exact fun sane => ⟨sane.modify cls same, .refl _⟩
  | collection | interned | threads | outside =>
    exact fun sane => ⟨⟨sane.built, sane.objects, sane.mirrors⟩, .refl _⟩

theorem Changes.tame (changes : Changes w v) : Tame w v := by
  induction changes with
  | refl => exact .refl w
  | tail _ change ih => exact ih.trans change.tame

end World

/-! Atomic actions. -/

namespace Atomic
open Registry World
variable {w v : World η} {names : α → List ClassId} {names' : β → List ClassId}

/-- From a sane state the action makes changes alone, and the classes that its result names are
loaded then. -/
def Orderly (x : Atomic η α) (names : α → List ClassId) (w : World η) : Prop :=
  w.Sane → Changes w (x.runOn w).2 ∧
    ∀ a, (x.runOn w).1 = .ok a → Loaded (x.runOn w).2.registry.loaded.size (names a)

theorem orderly_of_ran {x : Atomic η α} {r : Except Failure α} (ran : x.runOn w = (r, v))
    (changes : Changes w v)
    (loaded : v.Sane → ∀ a, r = .ok a → Loaded v.registry.loaded.size (names a)) :
    Orderly x names w := by
  intro sane
  rw [ran]
  exact ⟨changes, loaded (changes.tame sane).1⟩

theorem orderly_of_change {x : Atomic η α} (change : Change w (x.runOn w).2) :
    Orderly x (fun _ => []) w := fun _ => ⟨.single change, fun _ _ => .nil⟩

theorem orderly_pure {a : α} (loaded : w.Sane → Loaded w.registry.loaded.size (names a)) :
    Orderly (pure a) names w := by
  intro sane
  refine ⟨.refl, fun b same => ?_⟩
  cases same
  exact loaded sane

theorem orderly_throw (f : Failure) : Orderly (throw f) names w := fun _ => ⟨.refl, nofun⟩

theorem orderly_ask {f : World η → α}
    (loaded : w.Sane → Loaded w.registry.loaded.size (names (f w))) :
    Orderly (ask f) names w := orderly_pure loaded

theorem orderly_get_bind {g : World η → Atomic η β} (rest : Orderly (g w) names' w) :
    Orderly (get >>= g) names' w := rest

theorem orderly_ask_bind {f : World η → α} {g : α → Atomic η β}
    (rest : Orderly (g (f w)) names' w) : Orderly (ask f >>= g) names' w := rest

theorem orderly_bind {x : Atomic η α} {g : α → Atomic η β} (first : Orderly x names w)
    (rest : ∀ a v, w.registry.loaded.size ≤ v.registry.loaded.size →
      Loaded v.registry.loaded.size (names a) → Orderly (g a) names' v) :
    Orderly (x >>= g) names' w := by
  intro sane
  have before := first sane
  rw [runOn_bind]
  generalize x.runOn w = result at before ⊢
  rcases result with ⟨f | a, v⟩
  · exact ⟨before.1, nofun⟩
  · obtain ⟨sane', later⟩ := before.1.tame sane
    have after := rest a v later.size (before.2 a rfl) sane'
    exact ⟨before.1.trans after.1, after.2⟩

theorem orderly_map {x : Atomic η α} {f : α → β} (first : Orderly x names w)
    (same : ∀ a k, Loaded k (names a) → Loaded k (names' (f a))) :
    Orderly (f <$> x) names' w := by
  rw [← bind_pure_comp]
  exact orderly_bind first fun a _ _ loaded => orderly_pure fun _ => same a _ loaded

theorem orderly_mapM {f : α → Atomic η β} {as : List α}
    (each : ∀ a ∈ as, ∀ v : World η, w.registry.loaded.size ≤ v.registry.loaded.size →
      Orderly (f a) (fun _ => []) v) : Orderly (as.mapM f) (fun _ => []) w := by
  induction as generalizing w with
  | nil =>
    rw [List.mapM_nil]
    exact orderly_pure fun _ => .nil
  | cons a as ih =>
    rw [List.mapM_cons]
    refine orderly_bind (each a List.mem_cons_self w (Nat.le_refl _)) fun b v more _ => ?_
    refine orderly_bind (ih fun a member u further => ?_) fun bs u _ _ => orderly_pure fun _ => .nil
    exact each a (List.mem_cons_of_mem _ member) u (Nat.le_trans more further)

/-! Classes. -/

theorem orderly_findBootstrap (name : String) :
    Orderly (findBootstrap name) Option.toList w := by
  intro sane
  have leads := findLoaded_leads sane.built.ordered.primitives name none
  have loaded (c : Option ClassId) (found : (w.registry.findBootstrap name).1 = c) :
      Loaded (w.registry.findBootstrap name).2.loaded.size c.toList := by
    cases c with
    | none => exact .nil
    | some c => exact .one (leads.2 c found.symm).there
  have ran : (findBootstrap name).runOn w = (.ok (w.registry.findBootstrap name).1,
      { w with registry := (w.registry.findBootstrap name).2 }) := rfl
  rw [ran]
  refine ⟨?_, fun c same => loaded c (Except.ok.inj same)⟩
  unfold Registry.findBootstrap findLoaded
  split
  · exact .single (.arrayClass name none)
  · exact .refl

theorem orderly_bootClass (name : String) : Orderly (bootClass name) ([·]) w := by
  refine orderly_bind (orderly_findBootstrap name) fun found v _ loaded => ?_
  cases found with
  | none => exact orderly_throw _
  | some c => exact orderly_pure fun _ => loaded

theorem orderly_arrayOf {c : ClassId} (there : c.index < w.registry.loaded.size) :
    Orderly (arrayOf c) ([·]) w := by
  intro sane
  have ran : (arrayOf c).runOn w = (.ok (w.registry.arrayOf c).1,
    { w with registry := (w.registry.arrayOf c).2 }) := rfl
  rw [ran]
  refine ⟨.single (.arrayOf there), fun d same => .one ?_⟩
  obtain rfl := Except.ok.inj same
  exact ((arrayOf_leads there).2 _ rfl).there

theorem orderly_arrayClass (name : String) (loader : Reference) :
    Orderly (onRegistry (·.arrayClass name loader)) Option.toList w := by
  intro sane
  have leads := arrayClass_leads sane.built.ordered.primitives name loader
  have ran : (onRegistry (·.arrayClass name loader)).runOn w =
    (.ok (w.registry.arrayClass name loader).1,
    { w with registry := (w.registry.arrayClass name loader).2 }) := rfl
  rw [ran]
  refine ⟨.single (.arrayClass name loader), fun c same => ?_⟩
  obtain rfl := Except.ok.inj same
  cases found : (w.registry.arrayClass name loader).1 with
  | none => exact .nil
  | some c => exact .one (leads.2 c found.symm).there

theorem orderly_defineClass (d : ClassDef) (loader : Reference) :
    Orderly (defineClass d loader) ([·]) w := by
  have added : Orderly (addClass d loader) ([·]) w := by
    intro sane
    have comes := sane.built.define_cases d loader
    have change := Change.define (w := w) d loader
    have ran : (addClass d loader).runOn w =
      ((w.registry.define d loader).1, { w with registry := (w.registry.define d loader).2 }) := rfl
    rw [ran]
    refine ⟨.single change, fun c same => .one ?_⟩
    rcases comes with ⟨f, r, defined, -, -⟩ | ⟨k, r, defined, adds, -⟩
    · rw [defined] at same
      cases same
    · rw [defined] at same ⊢
      cases same
      exact adds.known.there
  refine orderly_bind added fun c v _ loaded => ?_
  refine orderly_bind (orderly_of_change (.state c fun _ => rfl)) fun _ u more _ => ?_
  exact orderly_pure fun _ => loaded.later more

theorem orderly_link (m : Method) : Orderly (link m) (fun _ => []) w := by
  unfold link
  refine orderly_get_bind ?_
  split
  · exact orderly_pure fun _ => .nil
  · split
    · exact orderly_of_change (.state m.owner fun _ => rfl)
    · exact orderly_throw _
    · exact orderly_throw _

/-! Objects. -/

theorem orderly_allocate {x : Object} (there : x.cls.index < w.registry.loaded.size)
    (plain : x.mirrored? = none) : Orderly (allocate x) (fun _ => []) w :=
  orderly_of_change (.allocate there plain)

theorem orderly_newInstance {c : ClassId} (there : c.index < w.registry.loaded.size) :
    Orderly (newInstance c) (fun _ => []) w := by
  unfold newInstance
  refine orderly_get_bind ?_
  cases made : Heap.newInstance w.registry c with
  | error f => exact orderly_throw f
  | ok x =>
    unfold Heap.newInstance at made
    dsimp only at made
    split at made
    · cases made
    · cases made
      exact orderly_allocate there rfl

theorem orderly_newCarrier {c : ClassId} {payload : Payload}
    (there : c.index < w.registry.loaded.size)
    (plain : ∀ d, payload ≠ .mirror d) : Orderly (newCarrier c payload) (fun _ => []) w := by
  unfold newCarrier
  refine orderly_get_bind (orderly_allocate there ?_)
  rw [Object.mirrored?]
  cases payload with
  | mirror d => exact absurd rfl (plain d)
  | _ => rfl

theorem orderly_newString (s : String) : Orderly (newString s) (fun _ => []) w :=
  orderly_bind (orderly_bootClass _) fun _ _ _ loaded => orderly_newCarrier loaded.head nofun

theorem orderly_referenceArray {c : ClassId} (refs : List Reference)
    (there : c.index < w.registry.loaded.size) : Orderly (referenceArray c refs) (fun _ => []) w :=
  orderly_bind (orderly_arrayOf there) fun _ _ _ loaded => orderly_allocate loaded.head rfl

theorem orderly_mirror {c : ClassId} (there : c.index < w.registry.loaded.size) :
    Orderly (mirror c) (fun _ => []) w := orderly_of_change (.mirror there)

theorem orderly_bootMirror (name : String) :
    Orderly (bootClass name >>= mirror) (fun _ => []) w :=
  orderly_bind (orderly_bootClass name) fun _ _ _ loaded => orderly_mirror loaded.head

theorem orderly_mirrorArray {cs : List ClassId} (loaded : Loaded w.registry.loaded.size cs) :
    Orderly (mirrorArray cs) (fun _ => []) w := by
  refine orderly_bind (orderly_mapM fun c member v more => ?_) fun _ _ _ _ =>
    orderly_bind (orderly_bootClass _) fun _ _ _ loaded => orderly_referenceArray _ loaded.head
  refine orderly_map (orderly_mirror ?_) fun _ _ _ => .nil
  exact Nat.lt_of_lt_of_le (loaded c member) more

theorem orderly_mirror? {c : Option ClassId} (loaded : Loaded w.registry.loaded.size c.toList) :
    Orderly (mirror? c) (fun _ => []) w := by
  cases c with
  | none => exact orderly_pure fun _ => .nil
  | some c => exact orderly_map (orderly_mirror loaded.head) fun _ _ _ => .nil

theorem orderly_mirroredClass (o : ObjectId) : Orderly (mirroredClass o) ([·]) w := by
  unfold mirroredClass
  refine orderly_get_bind ?_
  split
  · rename_i c found
    exact orderly_pure fun sane => .one (sane.mirrors o c found)
  · exact orderly_throw _

theorem orderly_contents (o : ObjectId) : Orderly (contents o) (fun _ => []) w := by
  unfold contents
  refine orderly_get_bind ?_
  split
  · exact orderly_pure fun _ => .nil
  · exact orderly_throw _

/-! Fields. -/

theorem orderly_fieldOffset (c : ClassId) (name : String) :
    Orderly (fieldOffset c name) (fun _ => []) w := by
  unfold fieldOffset
  refine orderly_get_bind ?_
  split
  · exact orderly_pure fun _ => .nil
  · exact orderly_throw _

theorem orderly_readNamed (o : ObjectId) (name : String) (type : Option Primitive) :
    Orderly (readNamed o name type) (fun _ => []) w := by
  unfold readNamed
  refine orderly_get_bind (orderly_bind (orderly_fieldOffset _ _) fun offset _ _ _ => ?_)
  split
  · exact orderly_pure fun _ => .nil
  · exact orderly_throw _

theorem orderly_writeField (o : ObjectId) (offset : Nat) (v : Value) :
    Orderly (writeField o offset v) (fun _ => []) w := by
  cases wrote : w.heap.writeField? o offset v with
  | none =>
    have ran : (writeField o offset v).runOn w = (.ok false, w) := by rw [runOn_writeField, wrote]
    exact orderly_of_ran ran .refl fun _ _ _ => .nil
  | some heap =>
    have ran : (writeField o offset v).runOn w = (.ok true, { w with heap }) := by
      rw [runOn_writeField, wrote]
    obtain ⟨x, written, rfl⟩ := Option.map_eq_some_iff.mp wrote
    obtain ⟨fields, -, rfl⟩ := Option.map_eq_some_iff.mp written
    exact orderly_of_ran ran (.single (.contents o rfl rfl)) fun _ _ _ => .nil

theorem orderly_writeNamed (o : ObjectId) (name : String) (v : Value) :
    Orderly (writeNamed o name v) (fun _ => []) w := by
  unfold writeNamed
  refine orderly_get_bind (orderly_bind (orderly_fieldOffset _ _) fun offset _ _ _ => ?_)
  refine orderly_bind (orderly_writeField o offset v) fun written _ _ _ => ?_
  cases written
  · exact orderly_throw _
  · exact orderly_pure fun _ => .nil

theorem orderly_writeStatic (c : ClassId) (offset : Nat) (v : Value) :
    Orderly (writeStatic c offset v) (fun _ => []) w := by
  cases wrote : w.registry.writeStatic? c offset v with
  | none =>
    have ran : (writeStatic c offset v).runOn w = (.ok false, w) := by rw [runOn_writeStatic, wrote]
    exact orderly_of_ran ran .refl fun _ _ _ => .nil
  | some registry =>
    have ran : (writeStatic c offset v).runOn w = (.ok true, { w with registry }) := by
      rw [runOn_writeStatic, wrote]
    obtain ⟨statics, -, rfl⟩ := Option.map_eq_some_iff.mp wrote
    exact orderly_of_ran ran (.single (.state c fun _ => rfl)) fun _ _ _ => .nil

theorem orderly_readPlace (p : Exec.FieldPlace) : Orderly (Exec.readPlace p) (fun _ => []) w := by
  unfold Exec.readPlace
  refine orderly_get_bind ?_
  dsimp only
  split
  · exact orderly_pure fun _ => .nil
  · exact orderly_throw _

theorem orderly_writePlace (p : Exec.FieldPlace) (v : Value) :
    Orderly (Exec.writePlace p v) (fun _ => []) w := by
  have check (written : Bool) (u : World η) :
      Orderly (unless written do throw (.unwritableField p.field.name)) (fun _ => []) u := by
    cases written
    · exact orderly_throw _
    · exact orderly_pure fun _ => .nil
  unfold Exec.writePlace
  cases p.holder with
  | none => exact orderly_bind (orderly_writeStatic _ _ _) fun written u _ _ => check written u
  | some o => exact orderly_bind (orderly_writeField _ _ _) fun written u _ _ => check written u

theorem orderly_declaredOffset (c : ClassId) (name : String) :
    Orderly (Exec.declaredOffset c name) (fun _ => []) w := by
  unfold Exec.declaredOffset
  refine orderly_ask_bind ?_
  split
  · exact orderly_pure fun _ => .nil
  · exact orderly_throw _

/-! Reflection. -/

theorem orderly_receiverOf (c : ClassId) (receiver : Reference) :
    Orderly (Exec.receiverOf c receiver) (fun _ => []) w := by
  unfold Exec.receiverOf
  cases receiver with
  | none => exact orderly_throw _
  | some o =>
    refine orderly_get_bind ?_
    split
    · exact orderly_pure fun _ => .nil
    · exact orderly_throw _

theorem orderly_methodAt (c : ClassId) (slot : Nat) :
    Orderly (Exec.methodAt c slot) (fun m => [m.owner]) w := by
  unfold Exec.methodAt
  refine orderly_ask_bind ?_
  cases found : (w.cls c).method? slot with
  | none => exact orderly_throw _
  | some m =>
    exact orderly_pure fun sane => .one (sane.built.owner_there (List.mem_of_getElem? found))

theorem orderly_argumentRefs (args : Reference) :
    Orderly (Exec.argumentRefs args) (fun _ => []) w := by
  unfold Exec.argumentRefs
  cases args with
  | none => exact orderly_pure fun _ => .nil
  | some o =>
    refine orderly_get_bind ?_
    split
    · exact orderly_pure fun _ => .nil
    · exact orderly_throw _

theorem orderly_box (v : Value) : Orderly (box v) (fun _ => []) w := by
  unfold box
  split
  · exact orderly_pure fun _ => .nil
  · refine orderly_bind (orderly_bootClass _) fun c _ _ loaded => ?_
    refine orderly_ask_bind ?_
    split
    · exact orderly_throw _
    · refine orderly_bind (orderly_newInstance loaded.head) fun o _ _ _ => ?_
      refine orderly_bind (orderly_writeField _ _ _) fun written _ _ _ => ?_
      cases written
      · exact orderly_throw _
      · exact orderly_pure fun _ => .nil

theorem orderly_classInScope (name : String) (loader : Reference) :
    Orderly (classInScope name loader) (fun _ => []) w := by
  have ran (f : Registry → Option ClassId × Registry) :
      ((onRegistry f : Atomic η _).runOn w).2 = { w with registry := (f w.registry).2 } := rfl
  refine fun sane => ⟨?_, fun _ _ => .nil⟩
  rw [classInScope, ran]
  split
  · exact .single (.arrayClass name loader)
  · split
    · exact .refl
    · exact (orderly_findBootstrap name sane).1

theorem orderly_isOfType (o : ObjectId) (name : String) (given : Option ClassId)
    (loader : Reference) : Orderly (isOfType o name given loader) (fun _ => []) w := by
  unfold isOfType
  refine orderly_get_bind ?_
  split
  · exact orderly_ask fun _ => .nil
  · exact orderly_bind (orderly_classInScope _ _) fun _ _ _ _ => orderly_ask fun _ => .nil

theorem orderly_convert (arg : Reference) (target : FieldType) (given : Option ClassId)
    (loader : Reference) (mismatch : Failure) :
    Orderly (convert arg target given loader mismatch) (fun _ => []) w := by
  unfold convert
  split
  · refine orderly_get_bind ?_
    split
    · exact orderly_pure fun _ => .nil
    · exact orderly_throw _
  · cases arg with
    | none => exact orderly_pure fun _ => .nil
    | some o =>
      refine orderly_bind (orderly_isOfType _ _ _ _) fun fits _ _ _ => ?_
      cases fits
      · exact orderly_throw _
      · exact orderly_pure fun _ => .nil

theorem orderly_convertArguments (m : Method) (loader args : Reference) :
    Orderly (Exec.convertArguments m loader args) (fun _ => []) w := by
  refine orderly_bind (orderly_argumentRefs args) fun refs v _ _ => ?_
  dsimp only
  split
  · exact orderly_throw _
  · exact orderly_mapM fun a _ u _ => orderly_convert _ _ _ _ _

/-! Arrays, interned strings, and what lies outside. -/

theorem orderly_arrayCopy (src : Reference) (srcPos : Int32) (dest : Reference)
    (destPos length : Int32) :
    Orderly (onHeap fun r h => h.arrayCopy r src srcPos dest destPos length) (fun _ => []) w := by
  -- the destination is an array before and after, and nothing else is written to
  have writes (d : ObjectId) (old e : Elements) (array : (w.heap.get d).elements? = some old) :
      Changes w { w with heap := w.heap.setElements d e } := by
    refine .single (.contents d rfl ?_)
    unfold Object.elements? at array
    unfold Object.mirrored?
    split at array
    · rename_i payload
      rw [payload]
    · cases array
  have ran : (onHeap fun r h => h.arrayCopy r src srcPos dest destPos length).runOn w =
      ((w.heap.arrayCopy w.registry src srcPos dest destPos length).1,
        { w with heap := (w.heap.arrayCopy w.registry src srcPos dest destPos length).2 }) := rfl
  refine orderly_of_ran ran ?_ fun _ _ _ => .nil
  unfold Heap.arrayCopy
  split
  · dsimp only
    split
    · rename_i array _
      split
      · exact .refl
      · split
        · exact .refl
        · split
          · unfold Heap.copyBlock
            split
            · exact .refl
            · split
              · exact writes _ _ _ array
              · exact .refl
          · split
            · exact .refl
            · unfold Heap.copyChecked
              split
              · exact writes _ _ _ array
              · exact .refl
    · exact .refl
  · exact .refl

theorem orderly_internAs (s : String) (o : ObjectId) : Orderly (internAs s o) (fun _ => []) w := by
  unfold internAs
  refine orderly_ask_bind ?_
  cases w.interned.lookup s with
  | some e => exact orderly_pure fun _ => .nil
  | none => exact orderly_of_change (.interned s o)

theorem orderly_parseClass (name : Option String) (bytes : ByteArray) :
    Orderly (parseClass name bytes) (fun _ => []) w := by
  cases parser : w.parser with
  | none =>
    have ran : (parseClass name bytes).runOn w = (.error .noParser, w) := by
      rw [parseClass, runOn_ofFunction, parser]
    refine orderly_of_ran ran .refl fun _ _ same => ?_
    cases same
  | some parse =>
    have ran : (parseClass name bytes).runOn w = ((parse name bytes w.outside).1,
        { w with outside := (parse name bytes w.outside).2 }) := by
      rw [parseClass, runOn_ofFunction, parser]
    exact orderly_of_ran ran (.single (.outside _)) fun _ _ _ => .nil

theorem orderly_hostExit (status : Int32) : Orderly (hostExit status) (fun _ => []) w :=
  orderly_of_change (.outside _)

theorem orderly_hostLoad (path : String) : Orderly (hostLoad path) (fun _ => []) w :=
  orderly_of_change (.outside _)

theorem orderly_collection : Orderly (modify World.noteCollection) (fun _ => []) w :=
  orderly_of_change .collection

end Atomic

/-! Threads and monitors. -/

namespace World
variable (w : World η) (t : ThreadId) (o : ObjectId)

theorem changes_setMonitor (m : Monitor) : Changes w (w.setMonitor o m) :=
  .single (.contents o rfl rfl)

theorem changes_modifyRecord (f : ThreadRecord → ThreadRecord) : Changes w (w.modifyRecord t f) :=
  .single (.threads _ w.threads w.starting w.deadlines)

theorem changes_addDeadline (delay : Nat) : Changes w (w.addDeadline delay).2 :=
  .single (.threads w.records w.threads w.starting _)

theorem changes_addDeadline? (limit : Option Nat) : Changes w (w.addDeadline? limit).2 := by
  cases limit with
  | none => exact .refl
  | some delay => exact w.changes_addDeadline delay

theorem changes_settleWaiter (m : Monitor) (s : Exec.Waiting) (reason : WakeReason) :
    Changes w (Exec.settleWaiter w t o m s reason).2 := by
  unfold Exec.settleWaiter
  dsimp only
  split <;> exact changes_setMonitor _ _ _

theorem changes_beginWait (limit : Option Nat) : Changes w (Exec.beginWait o limit t w).2 := by
  have timed : Changes w ((w.noteWaiting t (some o)).addDeadline? limit).2 :=
    (w.changes_modifyRecord t _).trans (changes_addDeadline? _ limit)
  unfold Exec.beginWait
  split
  · exact .refl
  · split
    · exact w.changes_modifyRecord t _
    · dsimp only
      split
      · exact timed.trans (changes_settleWaiter _ _ _ _ _ _)
      · exact timed.trans (changes_setMonitor _ _ _)

end World
end ManagedRuntime
