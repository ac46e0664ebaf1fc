import ManagedRuntime.Proofs.Heap.Stock
import ManagedRuntime.Proofs.Reflect.Boxes

/-!
What a start establishes. Definitions of the embedding program may take the place of the runtime's
own, each definition is entered in turn, and the natives of the runtime's classes are bound as they
are entered; nothing that comes later undoes any of it. Main statement: a start fails, or all classes
of the runtime and of the embedding program are there, the former with all their natives, every mirror
has room for a protection domain, and there are wrapper classes unless they have been replaced.
-/
namespace ManagedRuntime

namespace Registry
variable {r r' : Registry} {c : ClassId} {natives : NativeRegistry}

def NativesBound (natives : NativeRegistry) (r : Registry) (c : ClassId) : Prop :=
  ∀ m ∈ (r.cls c).methods, m.isNative = true → ∃ f,
    natives.lookup (r.cls c).name m.name m.descriptor = .found f ∧
      (r.state c).boundTo? m.slot = some f

theorem NativesBound.later (bound : NativesBound natives r c) (cls : r'.cls c = r.cls c)
    (state : r'.state c = r.state c) : NativesBound natives r' c := by
  intro m member native
  rw [cls] at member ⊢
  rw [state]
  exact bound m member native

theorem Built.slots_nodup (built : r.Built) (c : ClassId) :
    ((r.cls c).methods.map Method.slot).Nodup := by
  have range : (r.cls c).methods.map Method.slot = List.range (r.cls c).methods.length := by
    refine List.ext_getElem (by simp) fun i here _ => ?_
    rw [List.getElem_map, List.getElem_range]
    rw [List.length_map] at here
    exact (built.numbered (List.getElem?_eq_getElem here)).1
  rw [range]
  exact List.nodup_range

end Registry

namespace Boot
open Registry
variable {natives : NativeRegistry}

theorem bound_of_bindAll {className : String} {ms : List Method}
    {bound : List (Nat × NativeFunction)} (all : bindAll natives className ms = .ok bound)
    (distinct : (ms.map Method.slot).Nodup) {m : Method} (member : m ∈ ms)
    (native : m.isNative = true) :
    ∃ f, natives.lookup className m.name m.descriptor = .found f ∧ bound.lookup m.slot = some f := by
  induction ms generalizing bound with
  | nil => cases member
  | cons k ms ih =>
    rw [List.map_cons, List.nodup_cons] at distinct
    rw [bindAll] at all
    by_cases first : k.isNative = true
    · rw [if_pos first] at all
      split at all
      · rename_i f found
        cases rest : bindAll natives className ms with
        | error e =>
          rw [rest] at all
          cases all
        | ok later =>
          rw [rest] at all
          cases all
          rcases List.mem_cons.mp member with rfl | tail
          · exact ⟨f, found, List.lookup_cons_self⟩
          · have other : (m.slot == k.slot) = false :=
              beq_eq_false_iff_ne.mpr fun same => distinct.1 (List.mem_map.mpr ⟨m, tail, same⟩)
            obtain ⟨g, found', there⟩ := ih rest distinct.2 tail
            refine ⟨g, found', ?_⟩
            rw [List.lookup_cons, other]
            exact there
      · cases all
      · cases all
    · rw [if_neg first] at all
      rcases List.mem_cons.mp member with rfl | tail
      · exact absurd native first
      · exact ih all distinct.2 tail

/-- Each class of the runtime gets its natives, and those that follow leave them alone. -/
theorem bound_of_defineCore {ds : List ClassDef} {r r' : Registry} (built : r.Built)
    (defined : defineCore natives ds r = .ok r') {d : ClassDef} (member : d ∈ ds) :
    ∃ c, r'.MadeFrom d c ∧ NativesBound natives r' c := by
  induction ds generalizing r with
  | nil => cases member
  | cons e ds ih =>
    rw [defineCore] at defined
    split at defined
    · cases defined
    rename_i c r₁ one
    split at defined
    · cases defined
    rename_i bound all
    have first := built.defined_one one ({ · with bound })
    rcases List.mem_cons.mp member with rfl | tail
    · have made := (built.define_made one).later (.modifyState c ({ · with bound }))
      have rest := defined_defineCore first.built defined
      have here : NativesBound natives (r₁.modifyState c ({ · with bound })) c := by
        intro m method native
        rw [cls_modifyState] at method ⊢
        rw [state_modifyState, if_pos ⟨rfl, (built.define_made one).known.there⟩]
        have slots := first.built.slots_nodup c
        rw [cls_modifyState] at slots
        exact bound_of_bindAll all slots method native
      exact ⟨c, made.later rest.later,
        here.later (rest.later.cls c made.known.there) (rest.state c made.known.there)⟩
    · exact ih first.built defined tail

theorem defineClass_eq_ok {η : Type} {w v : World η} {d : ClassDef} {loader : Reference}
    {c : ClassId} (ran : (Atomic.defineClass d loader).runOn w = (.ok c, v)) :
    ∃ r f, w.registry.define d loader = (.ok c, r) ∧
      v = { w with registry := r.modifyState c f } := by
  obtain ⟨k, u, added, ran⟩ := Atomic.runOn_bind_eq_ok.mp ran
  cases ran
  rw [Atomic.addClass, Atomic.runOn_ofFunction] at added
  rcases defined : w.registry.define d loader with ⟨q, r⟩
  rw [defined] at added
  cases added
  exact ⟨r, _, rfl, rfl⟩

theorem defined_defineExtra {η : Type} {ds : List ClassDef} {w v : World η}
    (built : w.registry.Built) (defined : defineExtra ds w = .ok v) :
    w.registry.Defined ds v.registry ∧ v.domainOffset = w.domainOffset := by
  induction ds generalizing w with
  | nil =>
    cases defined
    exact ⟨built.defined_nil, rfl⟩
  | cons d ds ih =>
    rw [defineExtra] at defined
    split at defined
    · cases defined
    · rename_i c u ran
      obtain ⟨r, f, one, rfl⟩ := defineClass_eq_ok ran
      have first := built.defined_one one f
      obtain ⟨rest, offset⟩ := ih first.built defined
      exact ⟨first.append rest, offset⟩

end Boot

open Registry

structure DomainField (r : Registry) (k : ClassId) (f : Field) (place : Nat) : Prop where
  mirrors : r.find? "java/lang/Class" none = some k
  declared : (r.cls k).declaredField? Boot.domainField = some f
  descriptor : f.descriptor = Boot.domainDescriptor
  onInstance : f.isStatic = false
  offset : f.offset = place
  /-- Wherever a mirror is in a heap that operations have made, a reference is written there. -/
  writable : ∀ r' h, Heap.Stocked r' h → Later r r' → ∀ o c, h.classOf o = k →
    (h.get o).mirrored? = some c → ∀ domain : Reference,
      ∃ h', h.writeField? o place (.ref domain) = some h' ∧
        h'.readField o place none = some (.ref domain)

structure Embedding.Established {η : Type} (e : Embedding η) (w : World η) : Prop where
  core : ∀ d ∈ Universe.definitions, ∃ c,
    w.registry.find? d.name none = some c ∧
      w.registry.MadeFrom (Boot.replacement e.classes d) c ∧ NativesBound e.natives w.registry c
  required : ∀ name ∈ Universe.required, ∃ c, w.registry.find? name none = some c
  domain : ∃ k f, DomainField w.registry k f w.domainOffset
  given : ∀ d ∈ e.classes, ∃ c,
    w.registry.find? d.name none = some c ∧ w.registry.MadeFrom d c
  distinct : (e.classes.map ClassDef.name).Nodup
  domains : w.KeepsDomains
  wrappers : (∀ p : Primitive, p ≠ .void → e.classes.find? (·.name == p.wrapper) = none) →
    w.registry.HasWrappers

namespace Boot
variable {r : Registry} {offset : Nat}

theorem domainField_of_domainOffset (built : r.Built) (found : domainOffset? r = some offset) :
    ∃ k f, DomainField r k f offset := by
  obtain ⟨k, f, mirrors, declared, descriptor, onInstance, place, room⟩ :=
    domainOffset?_eq_some built found
  refine ⟨k, f, mirrors, declared, descriptor, onInstance, place, ?_⟩
  rintro r' h stocked later o c rfl mirrored domain
  have bare : (h.get o).elements? = none := by
    unfold Object.mirrored? at mirrored
    unfold Object.elements?
    split at mirrored
    · rename_i payload
      rw [payload]
    · cases mirrored
  have size := (stocked.room o).filled bare
  rw [show (h.get o).cls = h.classOf o from rfl, later.cls _ (find?_known mirrors).there] at size
  exact Heap.writeField?_ref domain (by rw [size]; exact room)

theorem replacement_name (extra : List ClassDef) (d : ClassDef) :
    (replacement extra d).name = d.name := by
  unfold replacement
  cases found : extra.find? (·.name == d.name) with
  | none => rfl
  | some e => exact beq_iff_eq.mp (List.find?_some (p := fun x : ClassDef => x.name == d.name) found)

end Boot

theorem DomainField.later {r r' : Registry} {k : ClassId} {f : Field} {place : Nat}
    (field : DomainField r k f place) (built : r'.Built) (later : Later r r') :
    DomainField r' k f place where
  mirrors := later.find? built field.mirrors
  declared := by
    rw [later.cls k (find?_known field.mirrors).there]
    exact field.declared
  descriptor := field.descriptor
  onInstance := field.onInstance
  offset := field.offset
  writable r'' h stocked further := field.writable r'' h stocked (later.trans further)

/-- A start fails, or it establishes what the rest of the runtime relies on. -/
theorem Embedding.boot_establishes {η : Type} (e : Embedding η) :
    (∃ f, e.boot = .error f) ∨ ∃ w, e.boot = .ok w ∧ e.Established w := by
  cases booted : e.boot with
  | error f => exact .inl ⟨f, rfl⟩
  | ok w =>
  refine .inr ⟨w, rfl, ?_⟩
  obtain ⟨r, offset, core, complete, found, extra⟩ := boot_parts booted
  have first := Boot.defined_defineCore .empty core
  obtain ⟨rest, place⟩ := Boot.defined_defineExtra (w := Boot.initialWorld e r offset) first.built
    extra
  have all := first.append rest
  obtain ⟨kept, perm⟩ := Boot.replaceCore_perm Universe.definitions e.classes
  constructor
  · intro d member
    have put := Boot.replacement_mem member definitions_distinct e.classes
    obtain ⟨c, made, bound⟩ := Boot.bound_of_defineCore .empty core put
    have there := made.known.there
    have found := (made.later rest.later).find? rest.built
    rw [Boot.replacement_name] at found
    exact ⟨c, found, made.later rest.later,
      bound.later (rest.later.cls c there) (rest.state c there)⟩
  · intro name required
    obtain ⟨c, found⟩ := Boot.found_of_checkRequired complete required
    exact ⟨c, rest.later.find? rest.built found⟩
  · obtain ⟨k, f, field⟩ := Boot.domainField_of_domainOffset first.built found
    rw [place]
    exact ⟨k, f, field.later rest.built rest.later⟩
  · intro d member
    obtain ⟨c, made⟩ := all.made d (perm.mem_iff.mpr (List.mem_append_right _ member))
    exact ⟨c, made.find? all.built, made⟩
  · have distinct := (perm.map ClassDef.name).nodup_iff.mp all.distinct
    rw [List.map_append] at distinct
    exact (List.nodup_append.mp distinct).2.1
  · exact keepsDomains_boot booted
  · exact hasWrappers_boot booted

/-- An embedding program with a class of its own, which replaces the classes of the runtime by ones
without methods, but for one that keeps its natives. -/
def Embedding.stripped : Embedding Unit :=
  { Embedding.silent with
    classes := ClassDef.named "app/Main" :: Universe.definitions.map fun d =>
      if d.name = "java/lang/VMObject" then d else { d with methods := [] }
    natives := .bootstrap }

theorem Embedding.stripped_established :
    ∃ w, stripped.boot = .ok w ∧ stripped.Established w := by
  rcases boot_establishes stripped with ⟨f, failed⟩ | established
  · have started : stripped.boot.toOption.isSome = true := by decide +kernel
    rw [failed] at started
    cases started
  · exact established

end ManagedRuntime
