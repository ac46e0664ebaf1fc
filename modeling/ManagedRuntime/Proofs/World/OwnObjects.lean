import ManagedRuntime.Proofs.Execution.Arguments
import ManagedRuntime.Proofs.Execution.Sheltered
import ManagedRuntime.Proofs.Heap.Stock
import ManagedRuntime.Proofs.World.Reached

/-!
Objects that a thread makes and has yet to give away. Other threads may do what they like, as long as
the state stays canonical, mirrors on record stay there, objects stay of their classes, and the fields
of the thread's own plain objects are left alone. Main statement: with memory without a limit, mirrors,
interned strings, instances and arrays of references can be made.
-/
namespace ManagedRuntime
variable {η α β : Type}

namespace World
variable {w v u : World η} {own kept : List ObjectId} {k : ClassId} {o : ObjectId} {fields : Array Slot}

structure Steady (w u : World η) : Prop where
  canonical : w.Canonical → u.Canonical
  later : Registry.Later w.registry u.registry
  limit : u.heap.accounting.maxBytes = w.heap.accounting.maxBytes
  size : w.heap.objects.size ≤ u.heap.objects.size
  classes : ∀ o : ObjectId, o.index < w.heap.objects.size → u.classOf o = w.classOf o
  records : ∀ c o, (w.registry.state c).mirror = some o → (u.registry.state c).mirror = some o
  mirrors : ∀ o c, (w.heap.get o).mirrored? = some c → (u.heap.get o).mirrored? = some c
  texts : ∀ o s, (w.heap.get o).string? = some s → (u.heap.get o).string? = some s

/-- Besides, the plain objects among these stay plain and keep what is in their fields. -/
structure SparesOwn (own : List ObjectId) (w u : World η) : Prop extends Steady w u where
  fields : ∀ o ∈ own, o.index < w.heap.objects.size → (w.heap.get o).payload = .plain →
    (u.heap.get o).payload = .plain ∧ (u.heap.get o).fields = (w.heap.get o).fields

theorem Steady.refl (w : World η) : w.Steady w :=
  ⟨id, .refl _, rfl, Nat.le_refl _, fun _ _ => rfl, fun _ _ => id, fun _ _ => id, fun _ _ => id⟩

theorem Steady.trans (first : w.Steady v) (second : v.Steady u) : w.Steady u where
  canonical := second.canonical ∘ first.canonical
  later := first.later.trans second.later
  limit := second.limit.trans first.limit
  size := Nat.le_trans first.size second.size
  classes o there :=
    (second.classes o (Nat.lt_of_lt_of_le there first.size)).trans (first.classes o there)
  records c o record := second.records c o (first.records c o record)
  mirrors o c mirrors := second.mirrors o c (first.mirrors o c mirrors)
  texts o s text := second.texts o s (first.texts o s text)

theorem SparesOwn.refl (w : World η) : w.SparesOwn own w := ⟨.refl w, fun _ _ _ plain => ⟨plain, rfl⟩⟩

theorem SparesOwn.trans (first : w.SparesOwn own v) (second : v.SparesOwn own u) :
    w.SparesOwn own u where
  toSteady := first.toSteady.trans second.toSteady
  fields o mine there plain := by
    obtain ⟨plain', same⟩ := first.fields o mine there plain
    obtain ⟨plain'', same'⟩ := second.fields o mine (Nat.lt_of_lt_of_le there first.size) plain'
    exact ⟨plain'', same'.trans same⟩

theorem SparesOwn.fewer (spares : w.SparesOwn own u) (included : kept ⊆ own) : w.SparesOwn kept u :=
  ⟨spares.toSteady, fun o mine => spares.fields o (included mine)⟩

theorem Canonical.during_spares (canonical : w.Canonical) (refs : List ObjectId) :
    w.SparesOwn own (w.during refs) :=
  ⟨⟨fun _ => (canonical.during (n := 0) refs).canonical, .refl _, rfl, Nat.le_refl _,
    fun _ _ => rfl, fun _ _ => id, fun _ _ => id, fun _ _ => id⟩, fun _ _ _ plain => ⟨plain, rfl⟩⟩

theorem Keeps.spares {n : Nat} (keeps : w.Keeps n u)
    (records : ∀ c o, (w.registry.state c).mirror = some o → (u.registry.state c).mirror = some o)
    (same : ∀ o : ObjectId, o.index < w.heap.objects.size → u.classOf o = w.classOf o ∧
      (u.heap.get o).payload = (w.heap.get o).payload ∧
      (u.heap.get o).fields = (w.heap.get o).fields) : w.SparesOwn own u where
  canonical _ := keeps.canonical
  later := keeps.later
  limit := keeps.limit
  size := keeps.size
  classes o there := (same o there).1
  records := records
  mirrors := keeps.mirrors
  texts := keeps.texts
  fields o _ there plain := ⟨(same o there).2.1.trans plain, (same o there).2.2⟩

structure Shows (w : World η) (k : ClassId) (fields : Array Slot) (o : ObjectId) : Prop where
  there : o.index < w.heap.objects.size
  ofClass : w.classOf o = k
  plain : (w.heap.get o).payload = .plain
  fields : (w.heap.get o).fields = fields

theorem Shows.spared (shows : w.Shows k fields o) (mine : o ∈ own) (spares : w.SparesOwn own u) :
    u.Shows k fields o := by
  obtain ⟨plain, same⟩ := spares.fields o mine shows.there shows.plain
  exact ⟨Nat.lt_of_lt_of_le shows.there spares.size,
    (spares.classes o shows.there).trans shows.ofClass, plain, same.trans shows.fields⟩

end World

/-! Actions. -/

namespace Atomic
open World Registry
variable {w : World η} (own : List ObjectId) {c k : ClassId} {o : ObjectId} {s : String}

theorem allocate_spares (canonical : w.Canonical) (unlimited : w.heap.accounting.maxBytes = 0)
    (x : Object) : ∃ u, (allocate x).runOn w = (.ok ⟨w.heap.objects.size⟩, u) ∧
      w.SparesOwn own u ∧ u.heap.objects.size = w.heap.objects.size + 1 ∧
      u.heap.get ⟨w.heap.objects.size⟩ = x ∧ u.registry = w.registry := by
  obtain ⟨heap, accounting, alike, limit, allocated⟩ := allocate_unlimited unlimited x
  have size : (heap.objects.push x).size = w.heap.objects.size + 1 := by
    rw [Array.size_push, alike.size]
  have keeps : w.Keeps 0 { w with heap := ⟨heap.objects.push x, accounting⟩ } :=
    canonical.ofHeap (by rw [size]; exact Nat.le_succ _) limit (alike.retains_push x accounting)
  refine ⟨_, allocated, keeps.spares (fun _ _ => id) fun p there => ?_, size, ?_, rfl⟩
  · have older : p.index ≠ heap.objects.size := by
      rw [alike.size]
      exact Nat.ne_of_lt there
    dsimp only [World.classOf, Heap.classOf]
    rw [Heap.get_push, if_neg older]
    exact ⟨alike.cls p, alike.payload p, alike.fields p⟩
  · rw [Heap.get_push, if_pos alike.size.symm]

theorem newInstance_spares (canonical : w.Canonical) (unlimited : w.heap.accounting.maxBytes = 0)
    (ordinary : (w.cls k).kind = .ordinary) :
    ∃ u, (newInstance k).runOn w = (.ok ⟨w.heap.objects.size⟩, u) ∧ w.SparesOwn own u ∧
      u.heap.objects.size = w.heap.objects.size + 1 ∧
      u.Shows k (w.cls k).template.toArray ⟨w.heap.objects.size⟩ := by
  let x : Object := { cls := k, fields := (w.cls k).template.toArray, payload := .plain }
  have new : Heap.newInstance w.registry k = .ok x := by
    unfold World.cls at ordinary
    simp [Heap.newInstance, x, World.cls, Class.isArray, Class.isPrimitive, ordinary]
  obtain ⟨u, allocated, spares, size, made, -⟩ := allocate_spares own canonical unlimited x
  have ran : (newInstance k).runOn w = (allocate x).runOn w := by
    unfold newInstance
    rw [runOn_get_bind, new]
    rfl
  refine ⟨u, ran.trans allocated, spares, size, ?_, ?_, ?_, ?_⟩
  · rw [size]
    exact Nat.lt_succ_self _
  · rw [World.classOf, Heap.classOf, made]
  · rw [made]
  · rw [made]

theorem newString_spares (canonical : w.Canonical) (unlimited : w.heap.accounting.maxBytes = 0)
    (s : String) : ∃ o u, (newString s).runOn w = (.ok o, u) ∧ w.SparesOwn own u ∧
      (u.heap.get o).string? = some s := by
  have plain : isArrayName "java/lang/String" = false := by decide +kernel
  obtain ⟨k, boot⟩ := canonical.required "java/lang/String" (by decide)
  obtain ⟨u, allocated, spares, -, made, -⟩ := allocate_spares own canonical unlimited
    (Heap.newCarrier w.registry k (.string s))
  have ran : (newString s).runOn w = (allocate (Heap.newCarrier w.registry k (.string s))).runOn w := by
    rw [newString, runOn_bind, runOn_bootClass plain boot]
    rfl
  exact ⟨_, u, ran.trans allocated, spares, by rw [made]; rfl⟩

theorem mirror_spares (canonical : w.Canonical) (unlimited : w.heap.accounting.maxBytes = 0)
    (there : c.index < w.registry.loaded.size) :
    ∃ o u, (mirror c).runOn w = (.ok o, u) ∧ w.SparesOwn own u ∧
      (u.registry.state c).mirror = some o := by
  obtain ⟨k, boot⟩ := canonical.required "java/lang/Class" (by decide)
  cases bare : (w.registry.state c).mirror with
  | some o => exact ⟨o, w, runOn_mirror_of_recorded bare, .refl w, bare⟩
  | none =>
    obtain ⟨v, allocated, spares, -, made, registry⟩ := allocate_spares own canonical
      unlimited (Heap.newCarrier w.registry k (.mirror c))
    have ran := runOn_mirror bare boot
    rw [allocated] at ran
    refine ⟨_, _, ran, spares.trans ?_, ?_⟩
    · have start := spares.canonical canonical
      have mirrors : ∀ d p, ((v.registry.modifyState c
          ({ · with mirror := some ⟨w.heap.objects.size⟩ })).state d).mirror = some p →
          (v.heap.get p).mirrored? = some d := by
        intro d p mirror
        rw [state_modifyState] at mirror
        split at mirror
        · rename_i here
          cases mirror
          rw [made, here.1]
          rfl
        · exact start.mirrors d p mirror
      have keeps : v.Keeps 0 _ :=
        start.ofRegistry (start.built.modifyState c _) (.modifyState c _) mirrors
      refine keeps.spares (fun d p record => ?_) fun p _ => ⟨rfl, rfl, rfl⟩
      rw [state_modifyState, if_neg]
      · exact record
      · rintro ⟨rfl, -⟩
        rw [registry, bare] at record
        cases record
    · dsimp only
      rw [registry, state_modifyState, if_pos ⟨rfl, there⟩]

theorem internAs_spares (canonical : w.Canonical) (text : (w.heap.get o).string? = some s) :
    ∃ p u, (internAs s o).runOn w = (.ok p, u) ∧ w.SparesOwn own u ∧
      (u.heap.get p).string? = some s := by
  unfold internAs interned?
  rw [runOn_ask_bind]
  cases found : w.interned.lookup s with
  | some p => exact ⟨p, w, rfl, .refl w, canonical.texts s p found⟩
  | none =>
    have keeps : w.Keeps 0 { w with interned := (s, o) :: w.interned } := canonical.ofInterned text
    exact ⟨o, _, rfl, keeps.spares (fun _ _ => id) fun _ _ => ⟨rfl, rfl, rfl⟩, text⟩

theorem referenceArray_spares (canonical : w.Canonical)
    (unlimited : w.heap.accounting.maxBytes = 0) (there : k.index < w.registry.loaded.size)
    (refs : List Reference) :
    ∃ o u, (referenceArray k refs).runOn w = (.ok o, u) ∧ w.SparesOwn own u ∧
      u.HoldsRefs w.heap.objects.size o refs := by
  have built := canonical.built
  obtain ⟨widens, -⟩ := arrayOf_leads there
  let v : World η := { w with registry := (w.registry.arrayOf k).2 }
  have keeps : w.Keeps 0 v :=
    canonical.ofRegistry (built.arrayOf there) (widens.extends built.ordered).later
      fun d p mirror => canonical.mirrors d p (widens.grows.mirror mirror)
  have first : w.SparesOwn own v := by
    refine keeps.spares (fun d p record => ?_) fun _ _ => ⟨rfl, rfl, rfl⟩
    rw [show v.registry.state d = w.registry.state d from widens.grows.state (there_of_recorded record)]
    exact record
  obtain ⟨u, allocated, second, -, made, -⟩ := allocate_spares own
    (first.canonical canonical) unlimited (Heap.newArrayOf (w.registry.arrayOf k).1 (.references refs))
  have ran : (referenceArray k refs).runOn w =
      (allocate (Heap.newArrayOf (w.registry.arrayOf k).1 (.references refs))).runOn v := rfl
  refine ⟨_, u, ran.trans allocated, first.trans second, Nat.le_refl _, ?_⟩
  rw [show u.heap.get ⟨w.heap.objects.size⟩ = _ from made]
  rfl

theorem writeField_spares (canonical : w.Canonical) {fields : Array Slot} {offset : Nat}
    (shows : w.Shows k fields o) {x : Value} (inside : offset + x.slots.length ≤ fields.size) :
    ∃ fields' u, (writeField o offset x).runOn w = (.ok true, u) ∧ u.Shows k fields' o ∧
      Slot.Writes fields offset x fields' ∧ (o ∉ own → w.SparesOwn own u) := by
  rw [← shows.fields] at inside
  obtain ⟨slots, fitted⟩ := Slot.write?_isSome inside
  let new : Object := { w.heap.get o with fields := slots }
  have wrote : w.heap.writeField? o offset x = some (w.heap.modify o fun _ => new) := by
    rw [Heap.writeField?, Object.writeField?, fitted]
    rfl
  have here : (w.heap.modify o fun _ => new).get o = new := by
    rw [Heap.get_modify, if_pos ⟨rfl, shows.there⟩]
  have other (p : ObjectId) (apart : o ≠ p) :
      (w.heap.modify o fun _ => new).get p = w.heap.get p := by
    rw [Heap.get_modify, if_neg fun both => apart both.1]
  have size : (w.heap.modify o fun _ => new).objects.size = w.heap.objects.size := Array.size_modify
  have retains (p : ObjectId) : ((w.heap.modify o fun _ => new).get p).payload =
      (w.heap.get p).payload ∧ ((w.heap.modify o fun _ => new).get p).cls = (w.heap.get p).cls := by
    by_cases same : o = p
    · subst same
      rw [here]
      exact ⟨rfl, rfl⟩
    · rw [other p same]
      exact ⟨rfl, rfl⟩
  have keeps : w.Keeps 0 { w with heap := w.heap.modify o fun _ => new } :=
    canonical.ofHeap (Nat.le_of_eq size.symm) rfl fun p _ => (retains p).1
  refine ⟨slots, { w with heap := w.heap.modify o fun _ => new }, ?_, ⟨?_, ?_, ?_, ?_⟩, ?_, ?_⟩
  · rw [writeField, runOn_get_bind, wrote]
    rfl
  · exact size.symm ▸ shows.there
  · exact (retains o).2.trans shows.ofClass
  · exact (retains o).1.trans shows.plain
  · rw [here]
  · rw [← shows.fields]
    exact Slot.write?_eq_some fitted
  · intro apart
    refine ⟨⟨fun _ => keeps.canonical, keeps.later, keeps.limit, keeps.size,
      fun p _ => (retains p).2, fun _ _ => id, keeps.mirrors, keeps.texts⟩, fun p mine _ plain => ?_⟩
    rw [other p fun same => apart (same ▸ mine)]
    exact ⟨plain, rfl⟩

end Atomic

/-! Programs. -/

namespace Exec
open World
-- only the rules are used from here on; unfolded, the judgement goes through the task step by step
attribute [local irreducible] Sheltered
variable {w v : World η} {env : Env} {own kept : List ObjectId} {P : α → List ObjectId → World η → Prop}
  {Q : β → List ObjectId → World η → Prop} {c : ClassId} {s : String}

/-- While others spare its own objects, the program comes to a result with `P`. It has nothing run,
leaves the operand stack as it is, and spares the objects that are to be kept. -/
def Furnishes (kept own : List ObjectId) (w : World η) (env : Env) (x : Exec η α)
    (P : α → List ObjectId → World η → Prop) : Prop :=
  Sheltered SparesOwn own w env x fun r mine d u =>
    ∃ a, r = .ok a ∧ d.stack = env.stack ∧ own ⊆ mine ∧ w.SparesOwn kept u ∧ P a mine u

theorem Furnishes.next {x : Exec η α} {g : α → Exec η β}
    {T : Except Failure β → List ObjectId → Env → World η → Prop}
    (first : Furnishes kept own w env x P)
    (rest : ∀ a mine d v, d.stack = env.stack → own ⊆ mine → w.SparesOwn kept v → P a mine v →
      Sheltered SparesOwn mine v d (g a) T) : Sheltered SparesOwn own w env (x >>= g) T := by
  refine sheltered_bind (first.weaken fun r mine d v comes => ?_)
  obtain ⟨a, rfl, stack, more, spares, holds⟩ := comes
  exact rest a mine d v stack more spares holds

theorem Furnishes.bind {x : Exec η α} {g : α → Exec η β} (first : Furnishes kept own w env x P)
    (rest : ∀ a mine d v, d.stack = env.stack → own ⊆ mine → w.SparesOwn kept v → P a mine v →
      Furnishes kept mine v d (g a) Q) : Furnishes kept own w env (x >>= g) Q := by
  refine first.next fun a mine d v stack more spares holds => ?_
  refine (rest a mine d v stack more spares holds).weaken fun r mine' e u comes => ?_
  obtain ⟨b, rfl, stack', more', spares', holds'⟩ := comes
  exact ⟨b, rfl, stack'.trans stack, List.Subset.trans more more', spares.trans spares', holds'⟩

theorem furnishes_pure {a : α} (holds : P a own w) : Furnishes kept own w env (pure a) P :=
  sheltered_pure ⟨a, rfl, rfl, List.Subset.refl own, .refl w, holds⟩

theorem Furnishes.discard {x : Exec η α} (furnishes : Furnishes kept own w env x P) :
    Furnishes kept own w env (discard x) fun _ mine u => ∃ a, P a mine u := by
  refine sheltered_discard (furnishes.weaken fun r mine d u comes => ?_)
  obtain ⟨a, rfl, stack, more, spares, holds⟩ := comes
  exact ⟨(), rfl, stack, more, spares, a, holds⟩

theorem Furnishes.keepMore {kept' : List ObjectId} {x : Exec η α} (included : kept ⊆ kept')
    (furnishes : Furnishes kept' own w env x P) :
    Furnishes kept own w env x fun a mine u => w.SparesOwn kept' u ∧ P a mine u := by
  refine furnishes.weaken fun r mine d u comes => ?_
  obtain ⟨a, rfl, stack, more, spares, holds⟩ := comes
  exact ⟨a, rfl, stack, more, spares.fewer included, spares, holds⟩

theorem furnishes_act {x : Atomic η α} (canonical : w.Canonical) (included : kept ⊆ own)
    (acts : ∀ y, w.SparesOwn own y → y.Canonical → ∃ a u, x.runOn y = (.ok a, u) ∧ y.SparesOwn kept u ∧
      P a (u.madeSince y.heap.objects.size ++ own) u) : Furnishes kept own w env (act x) P := by
  refine sheltered_act fun y refs change => ?_
  have during := change.trans ((change.canonical canonical).during_spares refs)
  obtain ⟨a, u, ran, spares, holds⟩ := acts _ during (during.canonical canonical)
  exact ⟨.ok a, u, ran, a, rfl, rfl, List.subset_append_right _ _,
    (during.fewer included).trans spares, holds⟩

theorem Unaided.furnishes {x : Exec η α} {R : α → World η → Prop}
    (unaided : Unaided (SparesOwn own) (fun _ _ => True) w env x fun r d u =>
      ∃ a, r = .ok a ∧ d.stack = env.stack ∧ w.SparesOwn own u ∧ R a u) :
    Furnishes own own w env x fun a _ u => R a u := by
  refine (unaided.sheltered fun mine y z more change => change.fewer more).weaken
    fun r mine d u ⟨more, comes⟩ => ?_
  obtain ⟨a, rfl, stack, spares, holds⟩ := comes
  exact ⟨a, rfl, stack, more, spares, holds⟩

theorem furnishes_classArg {call : NativeCall} {index : Nat} {o : ObjectId} (canonical : w.Canonical)
    (given : call.argument? env.stack index = some (.ref (some o)))
    (mirrors : (w.heap.get o).mirrored? = some c) :
    Furnishes own own w env (classArg call index) fun d _ _ => d = c := by
  refine Unaided.furnishes (unaided_classArg given (fun x change => change.mirrors _ _ mirrors) ?_)
  exact fun x refs change =>
    ⟨trivial, c, rfl, rfl, change.trans ((change.canonical canonical).during_spares refs), rfl⟩

theorem furnishes_booleanArg {call : NativeCall} {index : Nat} {b : Bool}
    (given : call.argument? env.stack index = some (.boolean b)) :
    Furnishes own own w env (booleanArg call index) fun b' _ _ => b' = b :=
  Unaided.furnishes (unaided_booleanArg given ⟨b, rfl, rfl, .refl w, rfl⟩)

theorem furnishes_ask (canonical : w.Canonical) (included : kept ⊆ own) (f : World η → α)
    (holds : ∀ y, w.SparesOwn own y → y.Canonical → P (f y) own y) :
    Furnishes kept own w env (act (Atomic.ask f)) P := by
  refine furnishes_act canonical included fun y spares canonical' => ⟨f y, y, rfl, .refl y, ?_⟩
  rw [World.madeSince, Nat.sub_self]
  exact holds y spares canonical'

theorem furnishes_intern {o : ObjectId} (canonical : w.Canonical) (included : kept ⊆ own)
    (text : (w.heap.get o).string? = some s) :
    Furnishes kept own w env (intern o) fun p _ u => (u.heap.get p).string? = some s := by
  unfold intern
  refine (furnishes_act (P := fun t _ u => t = s ∧ (u.heap.get o).string? = some s) canonical included
    fun y spares _ => ?_).bind fun t mine d v _ more spares same => ?_
  · have text' := spares.texts o s text
    refine ⟨s, y, ?_, .refl y, rfl, text'⟩
    rw [Atomic.contents, Atomic.runOn_get_bind, text']
    rfl
  obtain ⟨rfl, text⟩ := same
  have included := List.Subset.trans included more
  have canonical := spares.canonical canonical
  refine (furnishes_ask (P := fun found _ u => (u.heap.get o).string? = some t ∧
    ∀ p, found = some p → (u.heap.get p).string? = some t) canonical included _
    fun y spares canonical => ⟨spares.texts o t text, fun p found => canonical.texts t p found⟩).bind
    fun found mine d v _ more spares texts => ?_
  cases found with
  | some p => exact furnishes_pure (texts.2 p rfl)
  | none =>
    exact furnishes_act (spares.canonical canonical) (List.Subset.trans included more)
      fun y spares canonical => Atomic.internAs_spares _ canonical (spares.texts o t texts.1)

theorem furnishes_internText (canonical : w.Canonical) (unlimited : w.heap.accounting.maxBytes = 0)
    (included : kept ⊆ own) (s : String) :
    Furnishes kept own w env (internText s) fun o _ u => (u.heap.get o).string? = some s := by
  unfold internText
  refine (furnishes_ask (P := fun found _ u => ∀ o, found = some o →
    (u.heap.get o).string? = some s) canonical included _ fun y _ canonical o found => ?_).bind
    fun found mine d v _ more spares texts => ?_
  · exact canonical.texts s o found
  cases found with
  | some o => exact furnishes_pure (texts o rfl)
  | none =>
    have included := List.Subset.trans included more
    have canonical := spares.canonical canonical
    refine (furnishes_act (P := fun o _ u => (u.heap.get o).string? = some s) canonical included
      fun y spares' canonical => ?_).bind fun o mine d v _ more spares text => ?_
    · exact Atomic.newString_spares _ canonical ((spares'.limit.trans spares.limit).trans unlimited) s
    exact furnishes_intern (spares.canonical canonical) (List.Subset.trans included more) text

end Exec
end ManagedRuntime
