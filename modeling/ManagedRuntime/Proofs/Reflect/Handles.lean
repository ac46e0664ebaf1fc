import ManagedRuntime.Natives.Classes
import ManagedRuntime.Proofs.Loading.RoundTrip
import ManagedRuntime.Proofs.Thread.ObjectFields
import ManagedRuntime.Proofs.World.OwnObjects

/-!
Handles of members. With the runtime's own classes for them, a handle has three fields of one slot
each, behind those that it inherits. Main statement: in a runtime without a limit on memory the natives
that list members return an array of as many different handles as there are members, in the same order,
and each handle has the mirror of the class, the position of its member, and the name.
-/
namespace ManagedRuntime
variable {η : Type}

def Class.HasField (x : Class) (name : String) (offset : Nat) : Prop :=
  ∃ f, x.declaredField? name = some f ∧ f.isStatic = false ∧ f.offset = offset

namespace Registry
variable {r r' : Registry} {kind : MemberKind} {k : ClassId} {start : Nat}

structure MemberLayout (r : Registry) (kind : MemberKind) (k : ClassId) (start : Nat) : Prop where
  known : r.Known kind.className none k
  ordinary : (r.cls k).kind = .ordinary
  declaringClass : (r.cls k).HasField "declaringClass" start
  name : (r.cls k).HasField "name" (start + 1)
  slot : (r.cls k).HasField "slot" (start + 2)
  room : start + 3 ≤ (r.cls k).template.length

theorem MemberLayout.later (layout : r.MemberLayout kind k start) (later : Later r r') :
    r'.MemberLayout kind k start := by
  have same := later.cls k layout.known.there
  refine ⟨later.known layout.known, ?_, ?_, ?_, ?_, ?_⟩ <;> rw [same]
  · exact layout.ordinary
  · exact layout.declaringClass
  · exact layout.name
  · exact layout.slot
  · exact layout.room

def BuiltIn (r : Registry) (kind : MemberKind) : Prop :=
  ∃ d ∈ Universe.definitions, d.name = kind.className ∧ ∃ k, r.MadeFrom d k

def memberFields (start : Nat) : List Field :=
  [⟨"declaringClass", Universe.classType, .object "java/lang/Class", .isPrivate, start⟩,
   ⟨"name", Universe.stringType, .object "java/lang/String", .isPrivate, start + 1⟩,
   ⟨"slot", "I", .primitive .int, .isPrivate, start + 2⟩]

theorem layFields_member (name className : String) (start : Nat) :
    layFields className start 0 (Universe.member name).fields = .ok (memberFields start) := by
  have mirror : FieldType.parse Universe.classType = .ok (.object "java/lang/Class") := by
    decide +kernel
  have text : FieldType.parse Universe.stringType = .ok (.object "java/lang/String") := by
    decide +kernel
  have number : FieldType.parse "I" = .ok (.primitive .int) := by decide +kernel
  have own : AccessFlags.isPrivate.contains .isStatic = false := by decide
  rw [show (Universe.member name).fields = [⟨"declaringClass", Universe.classType, .isPrivate⟩,
    ⟨"name", Universe.stringType, .isPrivate⟩, ⟨"slot", "I", .isPrivate⟩] from rfl]
  simp only [layFields, mirror, text, number, own, Bool.false_eq_true, if_false, Except.map]
  rfl

theorem BuiltIn.layout (builtIn : r.BuiltIn kind) : ∃ k start, r.MemberLayout kind k start := by
  have listed : ∀ d ∈ Universe.definitions, ∀ kind ∈ [MemberKind.field, .method, .constructor],
      d.name = kind.className → d.fields = (Universe.member kind.className).fields := by
    decide +kernel
  obtain ⟨d, member, named, k, known, r₀, superclass, interfaces, makes⟩ := builtIn
  have laid := makes.fields
  rw [listed d member kind (by cases kind <;> decide) named, layFields_member] at laid
  have fields := (Except.ok.inj laid).symm
  let start := (r₀.inheritedTemplate (r.cls k)).length
  have declared : (r.cls k).fields = memberFields start := fields
  have own : AccessFlags.isPrivate.contains .isStatic = false := by decide
  have has (name : String) (f : Field)
      (found : (memberFields start).find? (·.name == name) = some f) (own : f.isStatic = false) :
      (r.cls k).HasField name f.offset :=
    ⟨f, by rw [Class.declaredField?, declared, found], own, rfl⟩
  refine ⟨k, start, named ▸ known, makes.kind, has "declaringClass" _ rfl own,
    has "name" _ rfl own, has "slot" _ rfl own, ?_⟩
  have instances : (memberFields start).filter (!·.isStatic) = memberFields start := by
    simp [memberFields, Field.isStatic, own]
  rw [makes.template, List.length_append, Class.ownTemplate, declared, instances]
  exact Nat.le_refl _

end Registry

namespace World
variable {w u : World η} {kind : MemberKind} {k : ClassId} {start slot : Nat} {mirror o : ObjectId}
  {name : String} {own : List ObjectId}

structure Ready (w : World η) (kind : MemberKind) (k : ClassId) (start : Nat) : Prop where
  canonical : w.Canonical
  unlimited : w.heap.accounting.maxBytes = 0
  layout : w.registry.MemberLayout kind k start

theorem Ready.steady (ready : w.Ready kind k start) (steady : w.Steady u) : u.Ready kind k start :=
  ⟨steady.canonical ready.canonical, steady.limit.trans ready.unlimited,
    ready.layout.later steady.later⟩

structure Handle (w : World η) (kind : MemberKind) (mirror : ObjectId) (slot : Nat) (name : String)
    (o : ObjectId) : Prop where
  ofClass : w.registry.find? kind.className none = some (w.classOf o)
  declaringClass :
    (Atomic.readNamed o "declaringClass" none).runOn w = (.ok (.ref (some mirror)), w)
  name : ∃ text, (Atomic.readNamed o "name" none).runOn w = (.ok (.ref (some text)), w) ∧
    (w.heap.get text).string? = some name
  slot : (Atomic.readNamed o "slot" (some .int)).runOn w = (.ok (.int (.ofNat slot)), w)

structure Filled (w : World η) (k : ClassId) (start : Nat) (mirror : ObjectId) (slot : Nat)
    (name : String) (text : ObjectId) (slots : Array Slot) (o : ObjectId) : Prop
    extends Shows w k slots o where
  spelled : (w.heap.get text).string? = some name
  declaringClass : Slot.readAt slots start none = some (.ref (some mirror))
  name : Slot.readAt slots (start + 1) none = some (.ref (some text))
  slot : Slot.readAt slots (start + 2) (some .int) = some (.int (.ofNat slot))

def Handed (w : World η) (k : ClassId) (start : Nat) (mirror : ObjectId) (m : Nat × String)
    (o : ObjectId) : Prop :=
  ∃ text fields, w.Filled k start mirror m.1 m.2 text fields o

theorem Handed.spared {m : Nat × String} (handed : w.Handed k start mirror m o) (mine : o ∈ own)
    (spares : w.SparesOwn own u) : u.Handed k start mirror m o := by
  obtain ⟨text, fields, filled⟩ := handed
  exact ⟨text, fields, filled.toShows.spared mine spares, spares.texts _ _ filled.spelled,
    filled.declaringClass, filled.name, filled.slot⟩

theorem Handed.all_spared {ms : List (Nat × String)} {os : List ObjectId}
    (each : List.Forall₂ (w.Handed k start mirror) ms os) (mine : os ⊆ own)
    (spares : w.SparesOwn own u) :
    List.Forall₂ (u.Handed k start mirror) ms os := by
  induction each with
  | nil => exact .nil
  | cons handed _ ih =>
    obtain ⟨first, rest⟩ := List.cons_subset.mp mine
    exact .cons (handed.spared first spares) (ih rest)

theorem Shows.readNamed {fields : Array Slot} {offset : Nat} {type : Option Primitive} {v : Value}
    {fieldName : String} (shows : w.Shows k fields o) (ordered : w.registry.Ordered)
    (declared : (w.registry.cls k).HasField fieldName offset)
    (read : Slot.readAt fields offset type = some v) :
    (Atomic.readNamed o fieldName type).runOn w = (.ok v, w) := by
  obtain ⟨f, declared, own, rfl⟩ := declared
  have meant := Registry.instanceFieldOffset?_here ordered declared own
  have found : w.heap.readField o f.offset type = some v := by
    rw [Heap.readField, Object.readField, shows.fields, read]
  unfold Atomic.readNamed Atomic.fieldOffset
  rw [Atomic.runOn_get_bind, Atomic.runOn_bind, Atomic.runOn_get_bind, shows.ofClass, meant]
  have ran : (pure f.offset : Atomic η Nat).runOn w = (.ok f.offset, w) := rfl
  dsimp only
  rw [ran]
  dsimp only
  rw [found]
  rfl

theorem Handed.handle {m : Nat × String} (handed : w.Handed k start mirror m o)
    (ready : w.Ready kind k start) : w.Handle kind mirror m.1 m.2 o := by
  obtain ⟨canonical, -, layout⟩ := ready
  obtain ⟨text, fields, filled⟩ := handed
  have shows := filled.toShows
  have ordered := canonical.built.ordered
  refine ⟨?_, ?_, ⟨text, ?_, filled.spelled⟩, ?_⟩
  · rw [shows.ofClass]
    exact canonical.built.keyed.find?_iff.mpr layout.known
  · exact shows.readNamed ordered layout.declaringClass filled.declaringClass
  · exact shows.readNamed ordered layout.name filled.name
  · exact shows.readNamed ordered layout.slot filled.slot

end World

def MemberKind.lister : MemberKind → ClassNative
  | field => .getDeclaredFields
  | method => .getDeclaredMethods
  | constructor => .getDeclaredConstructors

theorem run_lister (kind : MemberKind) (call : NativeCall) :
    (kind.lister.run call : Exec η Nat) = memberArray call kind := by cases kind <;> rfl

namespace Exec
open World
-- only the rules are used here; unfolded, the judgement goes through the task step by step
attribute [local irreducible] Sheltered
variable {w : World η} {env : Env} {own kept : List ObjectId} {kind : MemberKind} {c k : ClassId}
  {start offset : Nat} {fields : Array Slot} {o mirror : ObjectId} {publicOnly : Bool}

theorem furnishes_write (canonical : w.Canonical) (included : kept ⊆ own) (mine : o ∈ own)
    (other : o ∉ kept) (shows : w.Shows k fields o) (offset : Nat) (x : Value)
    (inside : offset + x.slots.length ≤ fields.size) :
    Furnishes kept own w env (discard (act (Atomic.writeField o offset x))) fun _ _ u =>
      ∃ fields', u.Shows k fields' o ∧ Slot.Writes fields offset x fields' := by
  refine (furnishes_act (P := fun _ _ u => ∃ fields', u.Shows k fields' o ∧
    Slot.Writes fields offset x fields') canonical included fun y spares canonical => ?_).discard.weaken
    fun r mine d u comes => ?_
  · obtain ⟨fields', u, ran, shows', writes, spares'⟩ := Atomic.writeField_spares kept
      canonical (shows.spared mine spares) inside
    exact ⟨true, u, ran, spares' other, fields', shows', writes⟩
  · obtain ⟨a, rfl, stack, more, spares, _, holds⟩ := comes
    exact ⟨a, rfl, stack, more, spares, holds⟩

theorem furnishes_newMember (ready : w.Ready kind k start) (included : kept ⊆ own)
    (within : ∀ p ∈ kept, p.index < w.heap.objects.size) (mirror : ObjectId) (m : Nat × String) :
    Furnishes kept own w env (newMember k start (start + 1) (start + 2) mirror m.1 m.2)
      fun o mine u => o ∈ mine ∧ o ∉ kept ∧ u.Handed k start mirror m o := by
  unfold newMember
  refine (furnishes_act (P := fun o mine u => (o ∈ mine ∧ o ∉ kept) ∧
    ∃ fields, u.Shows k fields o ∧ start + 3 ≤ fields.size) ready.canonical included
    fun y spares canonical => ?_).bind fun o mine d v _ more spares made => ?_
  · obtain ⟨-, unlimited, layout⟩ := ready.steady spares.toSteady
    obtain ⟨u, ran, spares', size, shows⟩ :=
      Atomic.newInstance_spares kept canonical unlimited layout.ordinary
    refine ⟨_, u, ran, spares', ⟨?_, fun old => ?_⟩, _, shows, ?_⟩
    · simp [World.madeSince, size]
    · exact absurd (within _ old) (Nat.not_lt_of_le spares.size)
    · exact Nat.le_trans layout.room (Nat.le_of_eq List.size_toArray.symm)
  obtain ⟨⟨own₀, other⟩, fields₀, shows₀, room⟩ := made
  have ready := ready.steady spares.toSteady
  have included := List.Subset.trans included more
  clear spares within
  refine (furnishes_write ready.canonical included own₀ other shows₀ start
    (.ref (some mirror)) (Nat.le_trans (Nat.le_add_right _ 2) room)).bind
    fun _ mine₁ d v₁ _ more spares written => ?_
  obtain ⟨fields₁, shows₁, writes₁⟩ := written
  have own₁ := more own₀
  have ready := ready.steady spares.toSteady
  have included := List.Subset.trans included more
  have both : o :: kept ⊆ mine₁ := List.cons_subset.mpr ⟨own₁, included⟩
  refine ((furnishes_internText ready.canonical ready.unlimited both m.2).keepMore
    (List.subset_cons_self o kept)).bind fun text mine₂ d v₂ _ more _ interned => ?_
  obtain ⟨spares, spelled⟩ := interned
  have shows₂ := shows₁.spared List.mem_cons_self spares
  have own₂ := more own₁
  have ready := ready.steady spares.toSteady
  have included := List.Subset.trans included more
  refine (furnishes_write ready.canonical included own₂ other shows₂ (start + 1)
    (.ref (some text)) ?_).bind fun _ mine₃ d v₃ _ more spares written => ?_
  · rw [writes₁.size]
    exact Nat.le_trans (Nat.le_succ _) room
  obtain ⟨fields₃, shows₃, writes₃⟩ := written
  have own₃ := more own₂
  have spelled := spares.texts text m.2 spelled
  refine (furnishes_write (spares.canonical ready.canonical) (List.Subset.trans included more) own₃
    other shows₃ (start + 2) (.int (.ofNat m.1)) ?_).bind
    fun _ mine₄ d v₄ _ more spares written => ?_
  · rw [writes₃.size, writes₁.size]
    exact room
  obtain ⟨fields₄, shows₄, writes₄⟩ := written
  have reads {fields fields' : Array Slot} {x : Value} {i j : Nat}
      (writes : Slot.Writes fields j x fields') (before : i < j) :
      Slot.readAt fields' i none = Slot.readAt fields i none :=
    writes.read_other (t := .object "") (.inl before)
  refine furnishes_pure ⟨more own₃, other, text, fields₄, shows₄, spares.texts text m.2 spelled,
    ?_, ?_, writes₄.read⟩
  · rw [reads writes₄ (Nat.lt_add_of_pos_right Nat.two_pos), reads writes₃ (Nat.lt_succ_self _)]
    exact writes₁.read
  · rw [reads writes₄ (Nat.lt_succ_self _)]
    exact writes₃.read

theorem furnishes_newMembers (ready : w.Ready kind k start) (included : kept ⊆ own)
    (within : ∀ p ∈ kept, p.index < w.heap.objects.size) (mirror : ObjectId)
    (members : List (Nat × String)) :
    Furnishes kept own w env
      (members.mapM fun m => some <$> newMember k start (start + 1) (start + 2) mirror m.1 m.2)
      fun refs mine u => ∃ os, refs = os.map some ∧ os ⊆ mine ∧ (∀ o ∈ os, o ∉ kept) ∧ os.Nodup ∧
        List.Forall₂ (u.Handed k start mirror) members os := by
  induction members generalizing kept own w env with
  | nil => exact furnishes_pure ⟨[], rfl, List.nil_subset _, nofun, List.nodup_nil, .nil⟩
  | cons m members ih =>
    rw [List.mapM_cons, map_eq_pure_bind, bind_assoc]
    refine (furnishes_newMember ready included within mirror m).bind
      fun o mine d v _ more spares made => ?_
    obtain ⟨own₀, other, handed⟩ := made
    have both : o :: kept ⊆ mine := List.cons_subset.mpr ⟨own₀, List.Subset.trans included more⟩
    have there : o.index < v.heap.objects.size := by
      obtain ⟨_, _, filled⟩ := handed
      exact filled.there
    have within' : ∀ p ∈ o :: kept, p.index < v.heap.objects.size :=
      List.forall_mem_cons.mpr ⟨there, fun p old => Nat.lt_of_lt_of_le (within p old) spares.size⟩
    rw [pure_bind]
    refine ((ih (ready.steady spares.toSteady) both within').keepMore
      (List.subset_cons_self o kept)).bind fun refs mine' d v' _ more' _ made => ?_
    obtain ⟨spares', os, rfl, owned, others, distinct, each⟩ := made
    refine furnishes_pure ⟨o :: os, rfl, List.cons_subset.mpr ⟨more' own₀, owned⟩, ?_, ?_, ?_⟩
    · exact List.forall_mem_cons.mpr ⟨other, fun p new old =>
        others p new (List.mem_cons_of_mem _ old)⟩
    · exact List.nodup_cons.mpr ⟨fun again => others o again List.mem_cons_self, distinct⟩
    · exact .cons (handed.spared List.mem_cons_self spares') each

theorem furnishes_declaredOffset (canonical : w.Canonical) {name : String}
    (there : k.index < w.registry.loaded.size) (declared : (w.registry.cls k).HasField name offset) :
    Furnishes [] own w env (act (declaredOffset k name)) fun n _ _ => n = offset := by
  obtain ⟨f, declared, -, rfl⟩ := declared
  refine furnishes_act canonical (List.nil_subset _) fun y spares _ => ⟨f.offset, y, ?_, .refl y, rfl⟩
  unfold declaredOffset
  rw [Atomic.runOn_ask_bind, World.cls, spares.later.cls k there, declared]
  rfl

theorem furnishes_declaredMembers (ready : w.Ready kind k start)
    (there : c.index < w.registry.loaded.size) (publicOnly : Bool) :
    Furnishes [] own w env (declaredMembers c kind publicOnly) fun array _ u =>
      ∃ mirror os, (u.registry.state c).mirror = some mirror ∧ os.Nodup ∧
        u.HoldsRefs w.heap.objects.size array (os.map some) ∧
        List.Forall₂ (u.Handed k start mirror) ((w.cls c).members kind publicOnly) os := by
  have plain : Registry.isArrayName kind.className = false := by cases kind <;> decide +kernel
  unfold declaredMembers
  refine (furnishes_ask (P := fun ms _ _ => ms = (w.cls c).members kind publicOnly) ready.canonical
    (List.nil_subset _) _ fun y spares _ => ?_).bind fun ms _ d w₁ _ _ spares₁ same => ?_
  · rw [World.cls, spares.later.cls c there]
    rfl
  subst same
  have ready₁ := ready.steady spares₁.toSteady
  refine (furnishes_act (P := fun k' _ _ => k' = k) ready₁.canonical (List.nil_subset _)
    fun y spares canonical => ?_).bind fun k' _ d w₂ _ _ spares₂ same => ?_
  · have found := canonical.built.keyed.find?_iff.mpr (spares.later.known ready₁.layout.known)
    exact ⟨k, y, Atomic.runOn_bootClass plain found, .refl y, rfl⟩
  subst same
  have ready₂ := ready₁.steady spares₂.toSteady
  refine (furnishes_declaredOffset ready₂.canonical ready₂.layout.known.there
    ready₂.layout.declaringClass).bind fun n _ d w₃ _ _ spares₃ same => ?_
  subst same
  have ready₃ := ready₂.steady spares₃.toSteady
  refine (furnishes_declaredOffset ready₃.canonical ready₃.layout.known.there
    ready₃.layout.name).bind fun n' _ d w₄ _ _ spares₄ same => ?_
  subst same
  have ready₄ := ready₃.steady spares₄.toSteady
  refine (furnishes_declaredOffset ready₄.canonical ready₄.layout.known.there
    ready₄.layout.slot).bind fun n' _ d w₅ _ _ spares₅ same => ?_
  subst same
  have ready₅ := ready₄.steady spares₅.toSteady
  have spares := (((spares₁.trans spares₂).trans spares₃).trans spares₄).trans spares₅
  refine (furnishes_act (P := fun m _ u => (u.registry.state c).mirror = some m) ready₅.canonical
    (List.nil_subset _) fun y spares' canonical => ?_).bind fun m _ d w₆ _ _ spares₆ record => ?_
  · exact Atomic.mirror_spares _ canonical (ready₅.steady spares'.toSteady).unlimited
      (Nat.lt_of_lt_of_le there (spares.later.trans spares'.later).size)
  have ready₆ := ready₅.steady spares₆.toSteady
  refine (furnishes_newMembers ready₆ (List.nil_subset _)
    (fun _ member => absurd member List.not_mem_nil) m _).bind
    fun refs _ d w₇ _ _ spares₇ made => ?_
  obtain ⟨os, rfl, owned, -, distinct, each⟩ := made
  have whole := (spares.trans spares₆).trans spares₇
  have ready₇ := ready₆.steady spares₇.toSteady
  refine ((furnishes_act (P := fun array _ u =>
    u.HoldsRefs w.heap.objects.size array (os.map some)) ready₇.canonical owned
    fun y spares' canonical => ?_).keepMore (List.nil_subset os)).weaken fun r mine e u comes => ?_
  · have ready := ready₇.steady spares'.toSteady
    obtain ⟨array, u, ran, kept, fresh, refs⟩ := Atomic.referenceArray_spares os canonical
      ready.unlimited ready.layout.known.there (os.map some)
    exact ⟨array, u, ran, kept, Nat.le_trans (Nat.le_trans whole.size spares'.size) fresh, refs⟩
  · obtain ⟨array, rfl, stack, more, spares', kept, holds⟩ := comes
    refine ⟨array, rfl, stack, more, spares', m, os, ?_, distinct, holds, ?_⟩
    · exact spares'.records c m (spares₇.records c m record)
    · exact Handed.all_spared each (List.Subset.refl os) kept

end Exec
end ManagedRuntime
