import ManagedRuntime.Proofs.Array.Copying
import ManagedRuntime.Proofs.Class.Subtyping

/-!
Types of array elements. A copy stores only what was in the destination, what an array of a class
below that of the destination held, and what has been checked against the components of the
destination. Main statement: no copy, complete or not, leaves an element in an array that is not
assignable to its components.
-/
namespace ManagedRuntime
open Transfer

/-- Arrays hold elements of their kind, and references that are assignable to their components. -/
structure Heap.Typed (r : Registry) (h : Heap) : Prop where
  fit : h.ElementsFit r
  elements : ∀ o e, referenceComponent? r (h.classOf o) = some e →
    ∀ v ∈ h.contents o, fits r h e v = true

namespace Transfer
variable {r : Registry} {h : Heap}

theorem toList_extract_add {α : Type} (xs : Array α) (start n : Nat) :
    (xs.extract start (start + n)).toList = (xs.toList.drop start).take n := by
  rw [Array.toList_extract, List.extract_eq_take_drop, Nat.add_sub_cancel_left]

theorem mem_splice {α : Type} {source dest : Array α} {srcAt destAt n : Nat} {x : α}
    (member : x ∈ (Elements.splice source srcAt dest destAt n).toList) :
    x ∈ (source.extract srcAt (srcAt + n)).toList ∨ x ∈ dest.toList := by
  have part {start stop : Nat} (among : x ∈ (dest.extract start stop).toList) : x ∈ dest.toList := by
    rw [Array.toList_extract] at among
    exact List.mem_of_mem_drop (List.mem_of_mem_take among)
  simp only [Elements.splice, Array.toList_append, List.mem_append] at member
  rcases member with (before | copied) | behind
  · exact .inr (part before)
  · exact .inl copied
  · exact .inr (part behind)

/-- Elements that may take the place of those of `d`, by where their values come from. -/
structure Replaces (r : Registry) (h : Heap) (d : ObjectId) (e : Elements) : Prop where
  kind : ∃ target, (h.get d).elements? = some target ∧ e.kind = target.kind
  origin : ∀ v ∈ e.toValues,
    v ∈ h.contents d ∨
      (∃ s, r.assignable (h.classOf s) (h.classOf d) = true ∧ v ∈ h.contents s) ∨
      ∃ c, (r.cls (h.classOf d)).component? = some c ∧ fits r h c v = true

theorem overwrite?_origin {source target e : Elements} {srcAt destAt n : Nat}
    (written : source.overwrite? srcAt target destAt n = some e) :
    e.kind = target.kind ∧ ∀ v ∈ e.toValues, v ∈ source.toValues ∨ v ∈ target.toValues := by
  obtain ⟨kind, items⟩ := source
  obtain ⟨_, old⟩ := target
  unfold Elements.overwrite? at written
  split at written
  · rename_i same
    cases same
    cases written
    refine ⟨rfl, fun v member => ?_⟩
    obtain ⟨x, among, rfl⟩ := List.mem_map.mp member
    rcases mem_splice among with copied | kept
    · rw [toList_extract_add] at copied
      exact .inl (List.mem_map_of_mem (List.mem_of_mem_drop (List.mem_of_mem_take copied)))
    · exact .inr (List.mem_map_of_mem kept)
  · cases written

theorem copyBlock_cases {s d : ObjectId} {source target : Elements} {srcAt destAt n : Nat}
    (sourceHeld : (h.get s).elements? = some source)
    (targetHeld : (h.get d).elements? = some target)
    (assignable : r.assignable (h.classOf s) (h.classOf d) = true) :
    let after := (h.copyBlock s srcAt d destAt n source target).2
    after = h ∨ ∃ e, Replaces r h d e ∧ after = h.setElements d e := by
  have aliased : (if s = d then source else target) = target := by
    split
    · subst s
      exact Option.some.inj (sourceHeld.symm.trans targetHeld)
    · rfl
  unfold Heap.copyBlock
  rw [aliased]
  split
  · exact .inl rfl
  · split
    · rename_i e written
      obtain ⟨kind, origin⟩ := overwrite?_origin written
      refine .inr ⟨e, ⟨⟨target, targetHeld, kind⟩, fun v member => ?_⟩, rfl⟩
      rcases origin v member with copied | kept
      · exact .inr (.inl ⟨s, assignable, by rwa [contents_of_elements sourceHeld]⟩)
      · exact .inl (by rwa [contents_of_elements targetHeld])
    · exact .inl rfl

theorem references?_toValues {e : Elements} {refs : Array Reference}
    (held : e.references? = some refs) :
    e.kind = .reference ∧ e.toValues = refs.toList.map Value.ref := by
  unfold Elements.references? at held
  split at held
  · cases held
    exact ⟨rfl, rfl⟩
  · cases held

theorem copyChecked_cases {d : ObjectId} {c : ClassId} {source target : Elements}
    {srcAt destAt n : Nat} (targetHeld : (h.get d).elements? = some target)
    (component : (r.cls (h.classOf d)).component? = some c) :
    let after := (h.copyChecked r srcAt d destAt n c source target).2
    after = h ∨ ∃ e, Replaces r h d e ∧ after = h.setElements d e := by
  unfold Heap.copyChecked
  split
  · rename_i refs old _ isOld
    obtain ⟨kind, values⟩ := references?_toValues isOld
    let stored := (refs.extract srcAt (srcAt + n)).toList.takeWhile (h.storable r c)
    refine .inr ⟨_, ⟨⟨target, targetHeld, kind.symm⟩, fun v member => ?_⟩, rfl⟩
    obtain ⟨x, among, rfl⟩ := List.mem_map.mp member
    rcases mem_splice among with copied | kept
    · -- the prefix of the good length is what the loop had accepted
      have front : stored <+: refs.toList.drop srcAt := by
        refine (List.takeWhile_prefix _).trans ?_
        rw [toList_extract_add]
        exact List.take_prefix _ _
      have accepted : x ∈ stored := by
        rw [List.prefix_iff_eq_take.mp front]
        rw [← toList_extract_add]
        exact copied
      have storable := List.all_eq_true.mp List.all_takeWhile x accepted
      refine .inr (.inr ⟨c, component, ?_⟩)
      cases x <;> exact storable
    · refine .inl ?_
      rw [contents_of_elements targetHeld, values]
      exact List.mem_map_of_mem kept
  · exact .inl rfl

theorem arrayCopy_cases (src dest : Reference) (srcPos destPos length : Int32) :
    let after := (h.arrayCopy r src srcPos dest destPos length).2
    after = h ∨ ∃ d e, Replaces r h d e ∧ after = h.setElements d e := by
  rcases src with _ | s
  · exact .inl rfl
  rcases dest with _ | d
  · exact .inl rfl
  simp only [Heap.arrayCopy]
  split
  · rename_i source target c sourceHeld targetHeld component
    split
    · exact .inl rfl
    split
    · exact .inl rfl
    split
    · rename_i assignable
      rcases copyBlock_cases sourceHeld targetHeld assignable with same | ⟨e, changed⟩
      · exact .inl same
      · exact .inr ⟨d, e, changed⟩
    split
    · exact .inl rfl
    · rcases copyChecked_cases targetHeld component with same | ⟨e, changed⟩
      · exact .inl same
      · exact .inr ⟨d, e, changed⟩
  · exact .inl rfl

theorem classOf_setElements (d o : ObjectId) (e : Elements) :
    (h.setElements d e).classOf o = h.classOf o := by
  unfold Heap.classOf
  by_cases same : d = o
  · subst same
    simp only [Heap.get, Heap.setElements, Heap.modify, Array.getElem?_modify, if_true]
    cases h.objects[d.index]? <;> rfl
  · rw [get_setElements_of_ne h e same]

theorem fits_setElements (d : ObjectId) (e : Elements) (c : ClassId) (v : Value) :
    fits r (h.setElements d e) c v = fits r h c v := by
  unfold fits
  cases v.object? with
  | none => rfl
  | some o => simp only [classOf_setElements]

theorem fits_trans {root : ClassId} (built : r.Built) (rooted : r.Rooted root) {c d : ClassId}
    {v : Value} (fit : fits r h c v = true) (assignable : r.assignable c d = true) :
    fits r h d v = true := by
  unfold fits at fit ⊢
  cases object : v.object? with
  | none => rfl
  | some o =>
    rw [object] at fit
    exact rooted.assignable_trans built fit assignable

end Transfer

theorem Heap.Typed.replace {r : Registry} {h : Heap} {root : ClassId} (built : r.Built)
    (rooted : r.Rooted root) (typed : h.Typed r) {d : ObjectId} {e : Elements}
    (replaces : Replaces r h d e) : (h.setElements d e).Typed r := by
  obtain ⟨⟨target, held, kind⟩, origin⟩ := replaces
  have inHeap := inHeap_of_elements held
  refine ⟨fun o c component => ?_, fun o c component v member => ?_⟩
  · rw [classOf_setElements] at component
    obtain ⟨old, oldHeld, oldKind⟩ := typed.fit o c component
    by_cases same : d = o
    · subst same
      cases held.symm.trans oldHeld
      exact ⟨e, elements?_setElements e inHeap, kind.trans oldKind⟩
    · rw [get_setElements_of_ne h e same]
      exact ⟨old, oldHeld, oldKind⟩
  · rw [classOf_setElements] at component
    rw [contents_setElements e inHeap] at member
    rw [fits_setElements]
    by_cases same : d = o
    · subst same
      rw [Function.update_self] at member
      obtain ⟨array, reference⟩ := referenceComponent?_eq_some component
      rcases origin v member with kept | ⟨s, assignable, copied⟩ | ⟨f, here, stored⟩
      · exact typed.elements d c component v kept
      · rcases (Registry.assignable_array_iff built.ordered array).mp assignable with
          classes | ⟨f, sourceArray, sourceReference, -, below⟩
        · exact typed.elements s c (classes ▸ component) v copied
        · have source : referenceComponent? r (h.classOf s) = some f := by
            simp [referenceComponent?, sourceArray, sourceReference]
          exact fits_trans built rooted (typed.elements s f source v copied) below
      · cases array.symm.trans here
        exact stored
    · rw [Function.update_of_ne (Ne.symm same)] at member
      exact typed.elements o c component v member

/-- Nothing is asked of the copy: the arrays may be one, and it may fail after a part. -/
theorem Heap.typed_arrayCopy {r : Registry} {h : Heap} {root : ClassId} (built : r.Built)
    (rooted : r.Rooted root) (typed : h.Typed r) (src dest : Reference)
    (srcPos destPos length : Int32) :
    (h.arrayCopy r src srcPos dest destPos length).2.Typed r := by
  rcases arrayCopy_cases (r := r) (h := h) src dest srcPos destPos length with
    same | ⟨d, e, replaces, changed⟩
  · rw [same]
    exact typed
  · rw [changed]
    exact typed.replace built rooted replaces

/-! A copy into an array of parts. -/

namespace Transfer

def rootedClasses : Registry :=
  let root := (Registry.empty.define (ClassDef.named Registry.rootName).root none).2
  let cloneable := (root.define (ClassDef.interfaceNamed Registry.cloneableName) none).2
  let serializable := (cloneable.define (ClassDef.interfaceNamed Registry.serializableName) none).2
  let part := (serializable.define (.named "test/Part") none).2
  ((part.arrayOf ⟨9⟩).2.arrayOf ⟨12⟩).2

theorem built_rootedClasses : rootedClasses.Built := by
  unfold rootedClasses
  refine (((((Registry.Built.empty.define _ _).define _ _).define _ _).define _ _).arrayOf
    ?_).arrayOf ?_
  · decide +kernel
  · decide +kernel

theorem rooted_rootedClasses : rootedClasses.Rooted ⟨9⟩ :=
  Registry.rooted_of_each (by decide +kernel) (by decide +kernel)

def partsHeap : Heap :=
  { Heap.empty 0 0 with
    objects := #[
      Heap.newArrayOf ⟨13⟩ (.references [some ⟨2⟩, some ⟨3⟩, none]),
      Heap.newArrayOf ⟨14⟩ (.references [none, some ⟨2⟩, none]),
      { cls := ⟨12⟩, fields := #[], payload := .plain },
      { cls := ⟨9⟩, fields := #[], payload := .plain }] }

theorem typed_partsHeap : partsHeap.Typed rootedClasses := by
  refine ⟨elementsFit_of_forall (by decide +kernel) (by decide +kernel), ?_⟩
  intro o c component v member
  by_cases inHeap : o.index < 4
  · have each : ∀ i < 4, ∀ c ∈ referenceComponent? rootedClasses (partsHeap.classOf ⟨i⟩),
        ∀ v ∈ partsHeap.contents ⟨i⟩, fits rootedClasses partsHeap c v = true := by
      decide +kernel
    exact each o.index inHeap c component v member
  · have outside : partsHeap.get o = default := by
      have absent : partsHeap.objects[o.index]? = none :=
        Array.getElem?_eq_none (Nat.le_of_not_lt inHeap)
      rw [Heap.get, absent, Option.getD_none]
    rw [Heap.contents, outside] at member
    cases member

/-- The copy stores the part and fails at the plain object. -/
theorem typed_after_misfit :
    let after := partsHeap.arrayCopy rootedClasses (some ⟨0⟩) 0 (some ⟨1⟩) 0 3
    rootedClasses.Built ∧ rootedClasses.Rooted ⟨9⟩ ∧ partsHeap.Typed rootedClasses ∧
      after.1 = .error .arrayStore ∧
      after.2.contents ⟨1⟩ = [.ref (some ⟨2⟩), .ref (some ⟨2⟩), .null] ∧
      after.2.Typed rootedClasses := by
  refine ⟨built_rootedClasses, rooted_rootedClasses, typed_partsHeap, by decide +kernel,
    by decide +kernel, ?_⟩
  exact Heap.typed_arrayCopy built_rootedClasses rooted_rootedClasses typed_partsHeap _ _ _ _ _

end Transfer
end ManagedRuntime
