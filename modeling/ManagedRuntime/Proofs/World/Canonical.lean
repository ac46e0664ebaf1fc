import ManagedRuntime.Execution.Interning
import ManagedRuntime.Proofs.Execution.Calls
import ManagedRuntime.Proofs.World.CoreClasses
import Mathlib.Data.List.Forall2

/-!
Mirrors and interned strings. A shared state is canonical if mirrors of classes mirror them and
interned objects have the text for which they are interned. Main statements: a runtime starts in a
canonical state, and what makes arrays of mirrors and of interned strings keeps it so and makes what
it is asked for, unless memory runs out.
-/
namespace ManagedRuntime
variable {η α β : Type}

theorem Registry.Grows.mirror {r r' : Registry} (grows : Grows r r') {c : ClassId} {o : ObjectId}
    (mirror : (r'.state c).mirror = some o) : (r.state c).mirror = some o := by
  induction grows with
  | refl => exact mirror
  | array _ _ _ ih | ordinary _ _ _ _ ih =>
    rw [state_add] at mirror
    split at mirror
    · cases mirror
    · exact ih mirror

theorem Registry.Built.define_unmirrored {r : Registry} (built : r.Built)
    (bare : ∀ c, (r.state c).mirror = none) (d : ClassDef) (loader : Reference) (c : ClassId) :
    ((r.define d loader).2.state c).mirror = none := by
  have grows := define_grows d loader built.ordered.primitives
  apply Option.eq_none_iff_forall_ne_some.mpr
  intro o mirror
  exact nomatch (bare c).symm.trans (grows.mirror mirror)

theorem Registry.unmirrored_empty (c : ClassId) : (Registry.empty.state c).mirror = none := by
  simp only [Registry.empty, Registry.state, List.getElem?_toArray, List.getElem?_map]
  cases Primitive.all[c.index]? <;> rfl

structure World.Canonical (w : World η) : Prop where
  built : w.registry.Built
  mirrors : ∀ c o, (w.registry.state c).mirror = some o → (w.heap.get o).mirrored? = some c
  texts : ∀ s o, w.interned.lookup s = some o → (w.heap.get o).string? = some s
  required : ∀ name ∈ Universe.required, ∃ c, w.registry.find? name none = some c

/-- The state is still canonical. No class goes, mirrors and strings stay what they are, and objects
from number `n` on have the contents that they had. -/
structure World.Keeps (n : Nat) (w u : World η) : Prop where
  canonical : u.Canonical
  later : Registry.Later w.registry u.registry
  size : w.heap.objects.size ≤ u.heap.objects.size
  limit : u.heap.accounting.maxBytes = w.heap.accounting.maxBytes
  mirrors : ∀ o c, (w.heap.get o).mirrored? = some c → (u.heap.get o).mirrored? = some c
  texts : ∀ o s, (w.heap.get o).string? = some s → (u.heap.get o).string? = some s
  since : ∀ o : ObjectId, n ≤ o.index → o.index < w.heap.objects.size →
    (u.heap.get o).payload = (w.heap.get o).payload

theorem Heap.there_of_payload {h : Heap} {o : ObjectId} (contents : (h.get o).payload ≠ .plain) :
    o.index < h.objects.size := by
  apply Nat.lt_of_not_le
  intro outside
  rw [get, Array.getElem?_eq_none outside] at contents
  exact contents rfl

def Heap.Retains (h g : Heap) : Prop :=
  ∀ o : ObjectId, o.index < h.objects.size → (g.get o).payload = (h.get o).payload

namespace Heap.Retains
variable {h g : Heap} (retains : h.Retains g) {o : ObjectId}
include retains

theorem payload (contents : (h.get o).payload ≠ .plain) :
    (g.get o).payload = (h.get o).payload := retains o (there_of_payload contents)

theorem mirrored? {c : ClassId} (mirrors : (h.get o).mirrored? = some c) :
    (g.get o).mirrored? = some c := by
  have same := retains.payload (o := o) fun plain => by simp [Object.mirrored?, plain] at mirrors
  rw [Object.mirrored?, same]
  exact mirrors

theorem string? {s : String} (text : (h.get o).string? = some s) : (g.get o).string? = some s := by
  have same := retains.payload (o := o) fun plain => by simp [Object.string?, plain] at text
  rw [Object.string?, same]
  exact text

end Heap.Retains

namespace World
variable {n : Nat} {w v u : World η}

theorem Canonical.keeps (canonical : w.Canonical) (n : Nat) : w.Keeps n w :=
  ⟨canonical, .refl _, Nat.le_refl _, rfl, fun _ _ => id, fun _ _ => id, fun _ _ _ => rfl⟩

theorem Keeps.trans (first : w.Keeps n v) (second : v.Keeps n u) : w.Keeps n u where
  canonical := second.canonical
  later := first.later.trans second.later
  size := Nat.le_trans first.size second.size
  limit := second.limit.trans first.limit
  mirrors o c mirrors := second.mirrors o c (first.mirrors o c mirrors)
  texts o s text := second.texts o s (first.texts o s text)
  since o fresh there :=
    (second.since o fresh (Nat.lt_of_lt_of_le there first.size)).trans (first.since o fresh there)

theorem Canonical.during (canonical : w.Canonical) (refs : List ObjectId) :
    w.Keeps n (w.during refs) :=
  ⟨⟨canonical.built, canonical.mirrors, canonical.texts, canonical.required⟩, .refl _,
    Nat.le_refl _, rfl, fun _ _ => id, fun _ _ => id, fun _ _ _ => rfl⟩

theorem Canonical.ofHeap (canonical : w.Canonical) {heap : Heap}
    (size : w.heap.objects.size ≤ heap.objects.size)
    (limit : heap.accounting.maxBytes = w.heap.accounting.maxBytes)
    (retains : w.heap.Retains heap) : w.Keeps n { w with heap } :=
  ⟨⟨canonical.built, fun c o mirror => retains.mirrored? (canonical.mirrors c o mirror),
    fun s o text => retains.string? (canonical.texts s o text), canonical.required⟩, .refl _, size,
    limit, fun _ _ => retains.mirrored?, fun _ _ => retains.string?, fun o _ => retains o⟩

theorem Canonical.ofRegistry (canonical : w.Canonical) {r : Registry} (built : r.Built)
    (later : Registry.Later w.registry r)
    (mirrors : ∀ c o, (r.state c).mirror = some o → (w.heap.get o).mirrored? = some c) :
    w.Keeps n { w with registry := r } := by
  refine ⟨⟨built, mirrors, canonical.texts, fun name required => ?_⟩, later, Nat.le_refl _, rfl,
    fun _ _ => id, fun _ _ => id, fun _ _ _ => rfl⟩
  obtain ⟨c, found⟩ := canonical.required name required
  exact ⟨c, later.find? built found⟩

theorem Canonical.ofInterned (canonical : w.Canonical) {s : String} {o : ObjectId}
    (text : (w.heap.get o).string? = some s) :
    w.Keeps n { w with interned := (s, o) :: w.interned } := by
  refine ⟨⟨canonical.built, canonical.mirrors, fun t p found => ?_, canonical.required⟩, .refl _,
    Nat.le_refl _, rfl, fun _ _ => id, fun _ _ => id, fun _ _ _ => rfl⟩
  rw [List.lookup_cons] at found
  split at found
  · rename_i same
    cases found
    rw [beq_iff_eq.mp same]
    exact text
  · exact canonical.texts t p found

def Stable (n : Nat) (H : World η → Prop) : Prop :=
  ∀ w u, w.Keeps n u → H w → H u

theorem stable_true : Stable n fun _ : World η => True := fun _ _ _ => id

theorem Stable.and {F H : World η → Prop} (first : Stable n F) (second : Stable n H) :
    Stable n fun w => F w ∧ H w :=
  fun w u keeps holds => ⟨first w u keeps holds.1, second w u keeps holds.2⟩

def IsMirror (w : World η) (c : ClassId) (r : Reference) : Prop :=
  ∃ o, r = some o ∧ (w.heap.get o).mirrored? = some c

def IsText (w : World η) (s : String) (r : Reference) : Prop :=
  ∃ o, r = some o ∧ (w.heap.get o).string? = some s

def Made (w : World η) (n : Nat) (o : ObjectId) (payload : Payload) : Prop :=
  n ≤ o.index ∧ (w.heap.get o).payload = payload

def HoldsRefs (w : World η) (n : Nat) (o : ObjectId) (refs : List Reference) : Prop :=
  w.Made n o (.array (.references refs))

def HoldsMirrors (w : World η) (n : Nat) (cs : List ClassId) (o : ObjectId) : Prop :=
  ∃ refs, w.HoldsRefs n o refs ∧ List.Forall₂ w.IsMirror cs refs

theorem stable_there (c : ClassId) : Stable n fun w : World η => c.index < w.registry.loaded.size :=
  fun _ _ keeps there => Nat.lt_of_lt_of_le there keeps.later.size

theorem stable_mirrored (o : ObjectId) (c : ClassId) :
    Stable n fun w : World η => (w.heap.get o).mirrored? = some c := fun _ _ keeps => keeps.mirrors o c

theorem stable_string (o : ObjectId) (s : String) :
    Stable n fun w : World η => (w.heap.get o).string? = some s := fun _ _ keeps => keeps.texts o s

theorem stable_mirror (c : ClassId) (r : Reference) :
    Stable n fun w : World η => w.IsMirror c r := by
  rintro w u keeps ⟨o, same, mirrored⟩
  exact ⟨o, same, keeps.mirrors o c mirrored⟩

theorem stable_text (s : String) (r : Reference) : Stable n fun w : World η => w.IsText s r := by
  rintro w u keeps ⟨o, same, string⟩
  exact ⟨o, same, keeps.texts o s string⟩

theorem stable_each {R : α → β → World η → Prop} (lasting : ∀ a b, Stable n (R a b)) (as : List α)
    (bs : List β) : Stable n fun w => List.Forall₂ (fun a b => R a b w) as bs :=
  fun w u keeps each => each.imp fun a b => lasting a b w u keeps

theorem stable_made {payload : Payload} (contents : payload ≠ .plain) (o : ObjectId) :
    Stable n fun w : World η => w.Made n o payload := by
  rintro w u keeps ⟨fresh, same⟩
  have there := Heap.there_of_payload (same ▸ contents)
  exact ⟨fresh, (keeps.since o fresh there).trans same⟩

theorem stable_holdsRefs (refs : List Reference) (o : ObjectId) :
    Stable n fun w : World η => w.HoldsRefs n o refs := by
  have contents : Payload.array (.references refs) ≠ .plain := nofun
  exact stable_made contents o

theorem stable_holdsMirrors (cs : List ClassId) (o : ObjectId) :
    Stable n fun w : World η => w.HoldsMirrors n cs o := by
  rintro w u keeps ⟨refs, holds, each⟩
  exact ⟨refs, stable_holdsRefs refs o w u keeps holds, stable_each stable_mirror cs refs w u keeps each⟩

inductive Yield (n : Nat) (w : World η) (P : α → World η → Prop) :
    Except Failure α × World η → Prop where
  | ok {a : α} {u : World η} (keeps : w.Keeps n u) (holds : P a u) : Yield n w P (.ok a, u)
  | exhausted {u : World η} {bytes live limit : Nat} (keeps : w.Keeps n u)
      (limited : w.heap.accounting.maxBytes ≠ 0) :
      Yield n w P (.error (.heapExhausted bytes live limit), u)

theorem Yield.after {P : α → World η → Prop} {q : Except Failure α × World η} (comes : Yield n v P q)
    (keeps : w.Keeps n v) : Yield n w P q := by
  cases comes with
  | exhausted keeps' limited => exact .exhausted (keeps.trans keeps') (keeps.limit ▸ limited)
  | ok keeps' holds => exact .ok (keeps.trans keeps') holds

structure Judges {M : Type → Type*} [Monad M] (n : Nat)
    (Y : {α : Type} → (World η → Prop) → M α → (α → World η → Prop) → Prop) : Prop where
  pure {α : Type} {H : World η → Prop} {P : α → World η → Prop} (stable : Stable n H) (a : α)
    (holds : ∀ w, H w → P a w) : Y H (pure a) P
  bind {α β : Type} {H : World η → Prop} {P : α → World η → Prop} {Q : β → World η → Prop} {x : M α}
    {g : α → M β} (stable : Stable n H) (lasting : ∀ a, Stable n (P a)) (first : Y H x P)
    (rest : ∀ a, Y (fun w => H w ∧ P a w) (g a) Q) : Y H (x >>= g) Q

namespace Judges
variable {M : Type → Type*} [Monad M] [LawfulMonad M]
  {Y : {α : Type} → (World η → Prop) → M α → (α → World η → Prop) → Prop} (judges : Judges n Y)
  {H : World η → Prop}
include judges

theorem map {P : α → World η → Prop} {Q : β → World η → Prop} {x : M α} (f : α → β)
    (stable : Stable n H) (lasting : ∀ a, Stable n (P a)) (first : Y H x P)
    (holds : ∀ a w, H w → P a w → Q (f a) w) : Y H (f <$> x) Q := by
  rw [← bind_pure_comp]
  refine judges.bind stable lasting first fun a => ?_
  exact judges.pure (stable.and (lasting a)) (f a) fun w here => holds a w here.1 here.2

theorem mapM {f : α → M β} {R : α → β → World η → Prop}
    (lasting : ∀ a b, Stable n (R a b)) (each : ∀ H a, Stable n H → Y H (f a) (R a))
    (stable : Stable n H) (as : List α) :
    Y H (as.mapM f) fun bs w => List.Forall₂ (fun a b => R a b w) as bs := by
  induction as generalizing H with
  | nil =>
    rw [List.mapM_nil]
    exact judges.pure stable [] fun _ _ => .nil
  | cons a as ih =>
    rw [List.mapM_cons]
    refine judges.bind stable (lasting a) (each H a stable) fun b => ?_
    have made := stable.and (lasting a b)
    refine judges.bind made (stable_each lasting as) (ih made) fun bs => ?_
    exact judges.pure (made.and (stable_each lasting as bs)) (b :: bs) fun w here =>
      .cons here.1.2 here.2

end Judges
end World

namespace Atomic
open World
variable {n : Nat} {F H : World η → Prop} {P : α → World η → Prop} {Q : β → World η → Prop}

/-- In a canonical state with `H` the action comes to `P`, unless memory runs out. -/
def Yields (n : Nat) (H : World η → Prop) (x : Atomic η α) (P : α → World η → Prop) : Prop :=
  ∀ w, w.Canonical → n ≤ w.heap.objects.size → H w → Yield n w P (x.runOn w)

theorem Yields.weaken {x : Atomic η α} (yields : Yields n F x P) (implies : ∀ w, H w → F w) :
    Yields n H x P := fun w canonical size holds => yields w canonical size (implies w holds)

theorem Yields.strengthen {R : α → World η → Prop} {x : Atomic η α} (yields : Yields n H x P)
    (implies : ∀ a w, P a w → R a w) : Yields n H x R := by
  intro w canonical size here
  have comes := yields w canonical size here
  generalize x.runOn w = result at comes ⊢
  cases comes with
  | exhausted keeps limited => exact .exhausted keeps limited
  | ok keeps holds => exact .ok keeps (implies _ _ holds)

theorem Yields.retain {x : Atomic η α} (yields : Yields n F x P) (stable : Stable n H)
    (implies : ∀ w, H w → F w) : Yields n H x fun a w => H w ∧ P a w := by
  intro w canonical size here
  have comes := yields w canonical size (implies w here)
  generalize x.runOn w = result at comes ⊢
  cases comes with
  | exhausted keeps limited => exact .exhausted keeps limited
  | @ok a u keeps holds => exact .ok keeps ⟨stable w u keeps here, holds⟩

theorem yields_pure (a : α) (holds : ∀ w, H w → P a w) : Yields n H (pure a : Atomic η α) P :=
  fun w canonical _ here => .ok (canonical.keeps n) (holds w here)

theorem yields_bind {x : Atomic η α} {g : α → Atomic η β} (stable : Stable n H)
    (first : Yields n H x P) (rest : ∀ a, Yields n (fun w => H w ∧ P a w) (g a) Q) :
    Yields n H (x >>= g) Q := by
  intro w canonical size here
  have comes := first w canonical size here
  rw [runOn_bind]
  generalize x.runOn w = result at comes ⊢
  cases comes with
  | exhausted keeps limited => exact .exhausted keeps limited
  | @ok a v keeps holds =>
    have later : n ≤ v.heap.objects.size := Nat.le_trans size keeps.size
    exact (rest a v keeps.canonical later ⟨stable w v keeps here, holds⟩).after keeps

theorem judges_yields : Judges n fun {α} H (x : Atomic η α) P => Yields n H x P where
  pure _ a holds := yields_pure a holds
  bind stable _ first rest := yields_bind stable first rest

theorem yields_ask (f : World η → α) : Yields n H (ask f) fun _ _ => True :=
  fun _ canonical _ _ => .ok (canonical.keeps n) trivial

theorem yields_allocate (x : Object) :
    Yields n H (allocate x : Atomic η ObjectId) fun o u => n ≤ o.index ∧ u.heap.get o = x := by
  intro w canonical size _
  have comes := allocate_cases w x
  generalize (allocate x).runOn w = result at comes ⊢
  cases comes with
  | exhausted alike full =>
    refine .exhausted (canonical.ofHeap (Nat.le_of_eq alike.size.symm) alike.limit
      fun o _ => alike.payload o) fun unlimited => ?_
    rw [Accounting.fits, alike.limit, unlimited] at full
    cases full
  | @made heap accounting alike limit =>
    have pushed : w.heap.objects.size ≤ (heap.objects.push x).size := by
      rw [Array.size_push, alike.size]
      exact Nat.le_succ _
    refine .ok (canonical.ofHeap pushed limit fun o there => ?_) ⟨size, ?_⟩
    · rw [Heap.get_push, if_neg (by rw [alike.size]; exact Nat.ne_of_lt there), alike.payload]
    · rw [Heap.get_push, if_pos alike.size.symm]

theorem yields_bootClass {name : String} (required : name ∈ Universe.required) :
    Yields n H (bootClass name : Atomic η ClassId) fun c u => c.index < u.registry.loaded.size := by
  intro w canonical _ _
  have plain : ∀ name ∈ Universe.required, Registry.isArrayName name = false := by decide +kernel
  obtain ⟨c, found⟩ := canonical.required name required
  rw [runOn_bootClass (plain name required) found]
  exact .ok (canonical.keeps n) (Registry.find?_known found).there

theorem yields_arrayOf (c : ClassId) :
    Yields n (fun w => c.index < w.registry.loaded.size) (arrayOf c : Atomic η ClassId)
      fun d u => d.index < u.registry.loaded.size := by
  intro w canonical _ there
  have built := canonical.built
  obtain ⟨widens, made⟩ := Registry.arrayOf_leads there
  refine .ok (canonical.ofRegistry (built.arrayOf there) (widens.extends built.ordered).later ?_)
    (made _ rfl).there
  exact fun d o mirror => canonical.mirrors d o (widens.grows.mirror mirror)

theorem payload_newCarrier {w u : World η} {c : ClassId} {payload : Payload} {o : ObjectId}
    (ran : (newCarrier c payload).runOn w = (.ok o, u)) : (u.heap.get o).payload = payload := by
  unfold newCarrier at ran
  rw [runOn_get_bind] at ran
  have comes := allocate_cases w (Heap.newCarrier w.registry c payload)
  rw [ran] at comes
  cases comes with
  | made alike _ =>
    rw [Heap.get_push, if_pos alike.size.symm]
    rfl

theorem yields_newCarrier (c : ClassId) (payload : Payload) :
    Yields n H (newCarrier c payload : Atomic η ObjectId) fun o u =>
      u.Made n o payload := by
  intro w canonical size _
  unfold newCarrier
  rw [runOn_get_bind]
  have comes := yields_allocate (H := fun _ => True) (Heap.newCarrier w.registry c payload) w
    canonical size trivial
  generalize (allocate (Heap.newCarrier w.registry c payload)).runOn w = result at comes ⊢
  cases comes with
  | exhausted keeps limited => exact .exhausted keeps limited
  | ok keeps holds => exact .ok keeps ⟨holds.1, by rw [holds.2]; rfl⟩

theorem yields_newString (s : String) :
    Yields n H (newString s : Atomic η ObjectId) fun o u => (u.heap.get o).string? = some s := by
  refine (yields_bind stable_true (yields_bootClass (by decide)) fun c => ?_).weaken fun _ _ => trivial
  refine (yields_newCarrier c (.string s)).strengthen fun o u made => ?_
  rw [Object.string?, made.2]

theorem yields_mirror (c : ClassId) :
    Yields n H (mirror c : Atomic η ObjectId) fun o u => (u.heap.get o).mirrored? = some c := by
  intro w canonical size here
  unfold mirror
  rw [runOn_get_bind]
  cases found : (w.registry.state c).mirror with
  | some o => exact .ok (canonical.keeps n) (canonical.mirrors c o found)
  | none =>
    refine yields_bind stable_true (yields_bootClass (by decide)) (fun k => ?_) w canonical size
      trivial
    refine yields_bind (stable_true.and (stable_there k)) (yields_newCarrier k (.mirror c)) fun o => ?_
    intro v canonical _ made
    have mirrored : (v.heap.get o).mirrored? = some c := by rw [Object.mirrored?, made.2.2]
    refine .ok (canonical.ofRegistry (canonical.built.modifyState _ _) (.modifyState _ _) ?_) mirrored
    intro d p mirror
    rw [Registry.state_modifyState] at mirror
    split at mirror
    · rename_i this
      cases mirror
      rw [this.1]
      exact mirrored
    · exact canonical.mirrors d p mirror

theorem yields_referenceArray (c : ClassId) (refs : List Reference) :
    Yields n (fun w => c.index < w.registry.loaded.size)
      (referenceArray c refs : Atomic η ObjectId) fun o u => u.HoldsRefs n o refs := by
  refine yields_bind (stable_there c) (yields_arrayOf c) fun d => ?_
  refine (yields_allocate (Heap.newArrayOf d (.references refs))).strengthen fun o u made => ?_
  exact ⟨made.1, by rw [made.2]; rfl⟩

theorem yields_mirrorArray (cs : List ClassId) :
    Yields n H (mirrorArray cs : Atomic η ObjectId) fun o u => u.HoldsMirrors n cs o := by
  have each (H : World η → Prop) (c : ClassId) (stable : Stable n H) :
      Yields n H (some <$> mirror c) fun r u => u.IsMirror c r :=
    judges_yields.map some stable (fun o => stable_mirrored o c) (yields_mirror c)
      fun o u _ mirrored => ⟨o, rfl, mirrored⟩
  have all := judges_yields.mapM stable_mirror each stable_true cs
  refine (yields_bind stable_true all fun refs => ?_).weaken fun _ _ => trivial
  have made : Stable n fun w : World η => True ∧ List.Forall₂ w.IsMirror cs refs :=
    stable_true.and (stable_each stable_mirror cs refs)
  refine yields_bind made (yields_bootClass (by decide)) fun k => ?_
  have array := (yields_referenceArray k refs).retain (made.and (stable_there k)) fun _ here => here.2
  exact array.strengthen fun o u both => ⟨refs, both.2, both.1.1.2⟩

theorem yields_contents (o : ObjectId) (s : String) :
    Yields n (fun w => (w.heap.get o).string? = some s) (contents o : Atomic η String)
      fun t _ => t = s := by
  intro w canonical _ text
  unfold contents
  rw [runOn_get_bind, text]
  exact .ok (canonical.keeps n) rfl

theorem yields_interned (s : String) :
    Yields n H (interned? s : Atomic η _) fun found u =>
      ∀ o, found = some o → (u.heap.get o).string? = some s :=
  fun _ canonical _ _ => .ok (canonical.keeps n) fun o found => canonical.texts s o found

theorem yields_internAs (s : String) (o : ObjectId) :
    Yields n (fun w => (w.heap.get o).string? = some s) (internAs s o : Atomic η ObjectId)
      fun p u => (u.heap.get p).string? = some s := by
  refine yields_bind (stable_string o s) (yields_interned s) fun found => ?_
  intro w canonical _ here
  cases found with
  | some e => exact .ok (canonical.keeps n) (here.2 e rfl)
  | none => exact .ok (canonical.ofInterned here.1) here.1

theorem keeps_defineClass {w : World η} (canonical : w.Canonical) (d : ClassDef) (loader : Reference) :
    w.Keeps n ((defineClass d loader).runOn w).2 := by
  have built := canonical.built
  have grows := Registry.define_grows d loader built.ordered.primitives
  have added : w.Keeps n { w with registry := (w.registry.define d loader).2 } :=
    canonical.ofRegistry (built.define d loader) (built.define_later d loader)
      fun c o mirror => canonical.mirrors c o (grows.mirror mirror)
  have ran : (addClass d loader).runOn w =
      ((w.registry.define d loader).1, { w with registry := (w.registry.define d loader).2 }) := rfl
  unfold defineClass
  rw [runOn_bind, ran]
  generalize w.registry.define d loader = result at added ⊢
  obtain ⟨f | c, r⟩ := result
  · exact added
  have start := added.canonical
  refine added.trans (start.ofRegistry (start.built.modifyState c _) (.modifyState c _) ?_)
  intro k o mirror
  rw [Registry.state_modifyState] at mirror
  split at mirror <;> exact start.mirrors k o mirror

end Atomic

namespace Boot

theorem unmirrored_defineCore {natives : NativeRegistry} {ds : List ClassDef} {r r' : Registry}
    (built : r.Built) (bare : ∀ c, (r.state c).mirror = none)
    (defined : defineCore natives ds r = .ok r') : ∀ c, (r'.state c).mirror = none := by
  induction ds generalizing r with
  | nil =>
    cases defined
    exact bare
  | cons d ds ih =>
    rw [defineCore] at defined
    have built' := built.define d none
    have bare' := built.define_unmirrored bare d none
    generalize r.define d none = result at defined built' bare'
    obtain ⟨f | c, k⟩ := result
    · cases defined
    dsimp only at defined
    split at defined
    · cases defined
    · refine ih (built'.modifyState _ _) (fun e => ?_) defined
      rw [Registry.state_modifyState]
      split <;> exact bare' e

theorem keeps_defineExtra {η : Type} {n : Nat} {ds : List ClassDef} {w v : World η}
    (canonical : w.Canonical) (defined : defineExtra ds w = .ok v) : w.Keeps n v := by
  induction ds generalizing w with
  | nil =>
    cases defined
    exact canonical.keeps n
  | cons d ds ih =>
    have keeps := Atomic.keeps_defineClass (n := n) canonical d none
    rw [defineExtra] at defined
    generalize (Atomic.defineClass d none).runOn w = result at defined keeps
    rcases result with ⟨f | c, u⟩
    · cases defined
    · exact keeps.trans (ih keeps.canonical defined)

end Boot

/-- A runtime that has started is in a canonical state. -/
theorem Embedding.canonical_boot {η : Type} {e : Embedding η} {w : World η} (booted : e.boot = .ok w) :
    w.Canonical := by
  obtain ⟨r, offset, core, complete, -, extra⟩ := boot_parts booted
  have bare := Boot.unmirrored_defineCore .empty Registry.unmirrored_empty core
  have start : (Boot.initialWorld e r offset).Canonical := by
    refine ⟨Boot.built_defineCore .empty core, fun c o mirror => ?_, nofun,
      fun _ => Boot.found_of_checkRequired complete⟩
    exact nomatch (bare c).symm.trans mirror
  exact (Boot.keeps_defineExtra (n := 0) start extra).canonical

end ManagedRuntime
