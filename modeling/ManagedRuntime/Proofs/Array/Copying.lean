import ManagedRuntime.Array.Transfer
import Mathlib.Control.Monad.Basic

/-!
Copying between arrays against the documented transfer. The documented transfer is a function on
lists of values: a block whose elements are all read before any is written, or a loop that stores
one reference after the other and ends at the first that does not fit. Main statement: on a heap
whose arrays hold elements of their component's kind, `Heap.arrayCopy` gives the documented result
and leaves the documented contents behind, and no other object changes.
-/
namespace ManagedRuntime

namespace Heap

def contents (h : Heap) (o : ObjectId) : List Value :=
  ((h.get o).elements?.map Elements.toValues).getD []

def ElementsFit (r : Registry) (h : Heap) : Prop :=
  ∀ o e, (r.cls (h.classOf o)).component? = some e →
    ∃ x, (h.get o).elements? = some x ∧ x.kind = .ofPrimitive (r.cls e).primitive?

end Heap

namespace Transfer

/-- Position `destAt + i` gets what position `srcAt + i` of the source holds, for all `i < n`. -/
def overlay (source : List Value) (srcAt : Nat) (dest : List Value) (destAt n : Nat) : List Value :=
  dest.mapIdx fun j v =>
    if destAt ≤ j ∧ j < destAt + n then source.getD (srcAt + (j - destAt)) v else v

def storeEach (fits : Value → Bool) (source : List Value) :
    Nat → Nat → Nat → List Value → Except Failure Unit × List Value
  | 0, _, _, dest => (.ok (), dest)
  | n + 1, srcAt, destAt, dest =>
    match source[srcAt]? with
    | none => (.error .arrayStore, dest)
    | some v =>
      if fits v then storeEach fits source n (srcAt + 1) (destAt + 1) (dest.set destAt v)
      else (.error .arrayStore, dest)

variable (r : Registry) (h : Heap)

def fits (c : ClassId) (v : Value) : Bool :=
  match v.object? with
  | none => true
  | some o => r.assignable (h.classOf o) c

def referenceComponent? (c : ClassId) : Option ClassId :=
  (r.cls c).component?.filter fun e => !(r.cls e).isPrimitive

/-- The documented transfer: its result, and what every array holds afterwards. -/
def documented (src : Reference) (srcPos : Int) (dest : Reference) (destPos length : Int) :
    Except Failure Unit × (ObjectId → List Value) :=
  match src, dest with
  | some s, some d =>
    let old := h.contents
    let sc := h.classOf s
    let dc := h.classOf d
    if !(r.cls sc).isArray || !(r.cls dc).isArray then (.error .arrayStore, old)
    else if srcPos < 0 ∨ destPos < 0 ∨ length < 0 ∨ srcPos + length > (old s).length
        ∨ destPos + length > (old d).length then
      (.error .arrayIndexOutOfBounds, old)
    else if r.assignable sc dc then
      (.ok (), Function.update old d
        (overlay (old s) srcPos.toNat (old d) destPos.toNat length.toNat))
    else
      match referenceComponent? r sc, referenceComponent? r dc with
      | some _, some c =>
        if (r.cls sc).dimensions ≤ (r.cls dc).dimensions then
          let stored :=
            storeEach (fits r h c) (old s) length.toNat srcPos.toNat destPos.toNat (old d)
          (stored.1, Function.update old d stored.2)
        else (.error .arrayStore, old)
      | _, _ => (.error .arrayStore, old)
  | _, _ => (.error .nullReference, h.contents)

/-! The block. -/

theorem getElem?_splice {α : Type} {source dest : Array α} {srcAt destAt n : Nat}
    (inSource : srcAt + n ≤ source.size) (inDest : destAt + n ≤ dest.size) (k : Nat) :
    (Elements.splice source srcAt dest destAt n)[k]? =
      if destAt ≤ k ∧ k < destAt + n then source[srcAt + (k - destAt)]? else dest[k]? := by
  have first : (dest.extract 0 destAt).size = destAt := by simp; omega
  have middle : (source.extract srcAt (srcAt + n)).size = n := by simp; omega
  unfold Elements.splice
  by_cases before : k < destAt
  · rw [Array.getElem?_append_left (by rw [Array.size_append]; omega),
      Array.getElem?_append_left (by omega), Array.getElem?_extract, if_pos (by omega),
      if_neg (by omega), Nat.zero_add]
  · by_cases inside : k < destAt + n
    · rw [Array.getElem?_append_left (by rw [Array.size_append]; omega),
        Array.getElem?_append_right (by omega), first, Array.getElem?_extract,
        if_pos (by omega), if_pos (by omega)]
    · rw [Array.getElem?_append_right (by rw [Array.size_append]; omega), Array.size_append, first,
        middle, Array.getElem?_extract, Nat.min_self, if_neg (by omega : ¬ (destAt ≤ k ∧ _))]
      by_cases there : k < dest.size
      · rw [if_pos (by omega), show destAt + n + (k - (destAt + n)) = k by omega]
      · rw [if_neg (by omega), Array.getElem?_eq_none (by omega)]

theorem getElem?_overlay (source : List Value) (srcAt : Nat) (dest : List Value)
    (destAt n k : Nat) :
    (overlay source srcAt dest destAt n)[k]? =
      if destAt ≤ k ∧ k < destAt + n then
        dest[k]?.map fun v => source.getD (srcAt + (k - destAt)) v
      else dest[k]? := by
  rw [overlay, List.getElem?_mapIdx]
  split <;> cases dest[k]? <;> simp_all

theorem map_splice {α : Type} (f : α → Value) {source dest : Array α} {srcAt destAt n : Nat}
    (inSource : srcAt + n ≤ source.size) (inDest : destAt + n ≤ dest.size) :
    (Elements.splice source srcAt dest destAt n).toList.map f =
      overlay (source.toList.map f) srcAt (dest.toList.map f) destAt n := by
  apply List.ext_getElem?
  intro k
  rw [getElem?_overlay, List.getElem?_map, Array.getElem?_toList,
    getElem?_splice inSource inDest k]
  split
  · rename_i inside
    have read : srcAt + (k - destAt) < source.size := by omega
    have there : k < dest.size := by omega
    simp [read, there]
  · simp

/-! The loop. -/

theorem overlay_zero (source : List Value) (srcAt : Nat) (dest : List Value) (destAt : Nat) :
    overlay source srcAt dest destAt 0 = dest := by
  apply List.ext_getElem?
  intro k
  rw [getElem?_overlay, if_neg (by omega)]

theorem overlay_succ {source : List Value} {srcAt : Nat} {v : Value} (dest : List Value)
    (destAt n : Nat) (first : source[srcAt]? = some v) :
    overlay source (srcAt + 1) (dest.set destAt v) (destAt + 1) n =
      overlay source srcAt dest destAt (n + 1) := by
  apply List.ext_getElem?
  intro k
  rw [getElem?_overlay, getElem?_overlay, List.getElem?_set]
  by_cases same : destAt = k
  · subst same
    by_cases there : destAt < dest.length
    · rw [if_neg (by omega), if_pos rfl, if_pos (by omega), Nat.sub_self, Nat.add_zero]
      simp [there, first]
    · simp [there]
  · by_cases inside : destAt ≤ k ∧ k < destAt + (n + 1)
    · have next : srcAt + 1 + (k - (destAt + 1)) = srcAt + (k - destAt) := by omega
      rw [if_pos (by omega), if_pos inside, if_neg same, next]
    · rw [if_neg (by omega), if_neg inside, if_neg same]

/-- What the loop does: it overlays the values before the first that does not fit. -/
theorem storeEach_eq (fits : Value → Bool) (source : List Value) (n srcAt destAt : Nat)
    (dest : List Value) (inSource : srcAt + n ≤ source.length) :
    let good := (((source.drop srcAt).take n).takeWhile fits).length
    storeEach fits source n srcAt destAt dest =
      (if good = n then .ok () else .error .arrayStore,
        overlay source srcAt dest destAt good) := by
  induction n generalizing srcAt destAt dest with
  | zero => simp [storeEach, overlay_zero]
  | succ n ih =>
    have there : srcAt < source.length := by omega
    have read : source[srcAt]? = some source[srcAt] := List.getElem?_eq_getElem there
    have rest := ih (srcAt + 1) (destAt + 1) (dest.set destAt source[srcAt]) (by omega)
    rw [List.drop_eq_getElem_cons there, List.take_succ_cons]
    simp only [storeEach, read]
    by_cases fit : fits source[srcAt]
    · simp only [fit, if_true, List.takeWhile_cons_of_pos, List.length_cons]
      rw [rest, overlay_succ _ _ _ read]
      simp
    · simp [fit, overlay_zero]

/-! Elements in the heap. -/

theorem size_eq_length (e : Elements) : e.size = e.toValues.length := by
  simp [Elements.size, Elements.toValues]

theorem contents_of_elements {h : Heap} {o : ObjectId} {e : Elements}
    (held : (h.get o).elements? = some e) : h.contents o = e.toValues := by
  simp [Heap.contents, held]

theorem inHeap_of_elements {h : Heap} {o : ObjectId} {e : Elements}
    (held : (h.get o).elements? = some e) : o.index < h.objects.size := by
  by_contra outside
  have absent : h.objects[o.index]? = none := Array.getElem?_eq_none (by omega)
  simp [Heap.get, absent, Object.elements?, default] at held

theorem get_setElements_of_ne (h : Heap) {d o : ObjectId} (e : Elements) (other : d ≠ o) :
    (h.setElements d e).get o = h.get o := by
  have index : d.index ≠ o.index := fun same => other (by cases d; cases o; simp_all)
  simp [Heap.setElements, Heap.modify, Heap.get, Array.getElem?_modify, index]

theorem elements?_setElements {h : Heap} {d : ObjectId} (e : Elements)
    (inHeap : d.index < h.objects.size) : ((h.setElements d e).get d).elements? = some e := by
  have old : h.objects[d.index]? = some h.objects[d.index] := Array.getElem?_eq_getElem inHeap
  simp only [Heap.get, Heap.setElements, Heap.modify, Array.getElem?_modify, old, if_true]
  rfl

theorem contents_setElements {h : Heap} {d : ObjectId} (e : Elements)
    (inHeap : d.index < h.objects.size) :
    (h.setElements d e).contents = Function.update h.contents d e.toValues := by
  funext o
  by_cases same : d = o
  · subst same
    rw [Function.update_self, contents_of_elements (elements?_setElements e inHeap)]
  · rw [Function.update_of_ne (Ne.symm same), Heap.contents, get_setElements_of_ne h e same,
      Heap.contents]

theorem kind_eq_of_assignable {r : Registry} {c d e f : ClassId} (assignable : r.assignable c d)
    (source : (r.cls c).component? = some e) (target : (r.cls d).component? = some f) :
    ElementKind.ofPrimitive (r.cls e).primitive? = .ofPrimitive (r.cls f).primitive? := by
  by_cases same : c = d
  · subst same
    rw [source] at target
    cases target
    rfl
  · -- Between distinct array classes, nothing but components that are references is assignable.
    obtain ⟨m, sourceKind⟩ := Class.component?_eq_some.mp source
    obtain ⟨n, targetKind⟩ := Class.component?_eq_some.mp target
    simp only [Registry.assignable, Registry.assignableWithin, same, if_false, sourceKind,
      targetKind, Bool.and_eq_true, Bool.not_eq_true'] at assignable
    rw [Class.primitive?_eq_none.mpr assignable.1.1, Class.primitive?_eq_none.mpr assignable.1.2]

theorem overwrite?_toValues {source target : Elements} {srcAt destAt n : Nat}
    (same : source.kind = target.kind) (inSource : srcAt + n ≤ source.size)
    (inDest : destAt + n ≤ target.size) :
    ∃ e, source.overwrite? srcAt target destAt n = some e ∧
      e.toValues = overlay source.toValues srcAt target.toValues destAt n := by
  obtain ⟨kind, items⟩ := source
  obtain ⟨_, old⟩ := target
  subst same
  exact ⟨_, dif_pos rfl, map_splice kind.toValue inSource inDest⟩

theorem references?_eq_some {e : Elements} (kind : e.kind = .reference) :
    ∃ refs, e.references? = some refs ∧ e.toValues = refs.toList.map Value.ref := by
  obtain ⟨_, items⟩ := e
  subst kind
  exact ⟨items, rfl, rfl⟩

theorem copyBlock_eq {h : Heap} {s d : ObjectId} {source target : Elements} {srcAt destAt n : Nat}
    (sourceHeld : (h.get s).elements? = some source)
    (targetHeld : (h.get d).elements? = some target) (kind : source.kind = target.kind)
    (inSource : srcAt + n ≤ source.size) (inDest : destAt + n ≤ target.size) :
    let after := h.copyBlock s srcAt d destAt n source target
    after.1 = .ok () ∧
      after.2.contents = Function.update h.contents d
        (overlay (h.contents s) srcAt (h.contents d) destAt n) := by
  -- Within one array the source is the target as it was before the first write.
  have aliased : (if s = d then source else target) = target := by
    split
    · subst s
      exact Option.some.inj (sourceHeld.symm.trans targetHeld)
    · rfl
  rw [contents_of_elements sourceHeld, contents_of_elements targetHeld]
  unfold Heap.copyBlock
  rw [aliased]
  by_cases empty : n = 0
  · subst empty
    rw [overlay_zero, ← contents_of_elements targetHeld]
    simp
  · obtain ⟨e, written, values⟩ := overwrite?_toValues kind inSource inDest
    rw [if_neg empty, written]
    exact ⟨rfl, by rw [contents_setElements e (inHeap_of_elements targetHeld), values]⟩

theorem copyChecked_eq {r : Registry} {h : Heap} {s d : ObjectId} {source target : Elements}
    {srcAt destAt n : Nat} (c : ClassId)
    (sourceHeld : (h.get s).elements? = some source)
    (targetHeld : (h.get d).elements? = some target) (sourceKind : source.kind = .reference)
    (targetKind : target.kind = .reference) (inSource : srcAt + n ≤ source.size)
    (inDest : destAt + n ≤ target.size) :
    let after := h.copyChecked r srcAt d destAt n c source target
    let stored := storeEach (fits r h c) (h.contents s) n srcAt destAt (h.contents d)
    after.1 = stored.1 ∧ after.2.contents = Function.update h.contents d stored.2 := by
  obtain ⟨refs, isRefs, sourceValues⟩ := references?_eq_some sourceKind
  obtain ⟨old, isOld, targetValues⟩ := references?_eq_some targetKind
  rw [size_eq_length, sourceValues, List.length_map, Array.length_toList] at inSource
  rw [size_eq_length, targetValues, List.length_map, Array.length_toList] at inDest
  -- Both sides end at the first element that is not storable: the loop there, the prefix here.
  have checks : (fits r h c ∘ Value.ref) = h.storable r c := by
    funext x
    cases x <;> rfl
  have good : ((refs.extract srcAt (srcAt + n)).toList.takeWhile (h.storable r c)).length =
      ((((refs.toList.map Value.ref).drop srcAt).take n).takeWhile (fits r h c)).length := by
    rw [← List.map_drop, ← List.map_take, List.takeWhile_map, List.length_map, checks,
      Array.toList_extract]
    simp
  have bound : ((((refs.toList.map Value.ref).drop srcAt).take n).takeWhile
      (fits r h c)).length ≤ n := by
    refine Nat.le_trans (List.takeWhile_sublist _).length_le ?_
    exact List.length_take_le _ _
  rw [contents_of_elements sourceHeld, contents_of_elements targetHeld, sourceValues, targetValues,
    storeEach_eq _ _ _ _ _ _ (by simpa using inSource)]
  simp only [Heap.copyChecked, isRefs, isOld, good]
  refine ⟨trivial, ?_⟩
  rw [contents_setElements _ (inHeap_of_elements targetHeld)]
  exact congrArg _ (map_splice Value.ref (by omega) (by omega))

theorem hasReferenceComponents_eq (r : Registry) (c : ClassId) :
    Heap.hasReferenceComponents r c = (referenceComponent? r c).isSome := by
  unfold Heap.hasReferenceComponents referenceComponent?
  cases (r.cls c).component? with
  | none => rfl
  | some e => cases prim : (r.cls e).isPrimitive <;> simp [prim]

theorem referenceComponent?_eq_some {r : Registry} {c e : ClassId}
    (found : referenceComponent? r c = some e) :
    (r.cls c).component? = some e ∧
      ElementKind.ofPrimitive (r.cls e).primitive? = .reference := by
  obtain ⟨component, notPrimitive⟩ := Option.filter_eq_some_iff.mp found
  refine ⟨component, ?_⟩
  rw [Class.primitive?_eq_none.mpr (by simpa using notPrimitive)]
  rfl

theorem toNat_add_le_of_inRange {pos length : Int} {size : Nat}
    (inRange : Heap.inRange pos length size) : pos.toNat + length.toNat ≤ size := by
  simp only [Heap.inRange, Bool.and_eq_true, decide_eq_true_eq] at inRange
  omega

theorem arrayCopy_inRange {r : Registry} {h : Heap} (fit : h.ElementsFit r) {s d : ObjectId}
    {srcPos destPos length : Int32} (sourceArray : (r.cls (h.classOf s)).isArray)
    (destArray : (r.cls (h.classOf d)).isArray)
    (sourceRange : Heap.inRange srcPos.toInt length.toInt (h.contents s).length)
    (destRange : Heap.inRange destPos.toInt length.toInt (h.contents d).length) :
    let after := h.arrayCopy r (some s) srcPos (some d) destPos length
    (after.1, after.2.contents) =
      documented r h (some s) srcPos.toInt (some d) destPos.toInt length.toInt := by
  obtain ⟨e, sourceComponent⟩ := Class.isArray_iff.mp sourceArray
  obtain ⟨f, destComponent⟩ := Class.isArray_iff.mp destArray
  obtain ⟨source, sourceHeld, sourceKind⟩ := fit s e sourceComponent
  obtain ⟨target, targetHeld, targetKind⟩ := fit d f destComponent
  have sourceSize : source.size = (h.contents s).length := by
    rw [size_eq_length, contents_of_elements sourceHeld]
  have targetSize : target.size = (h.contents d).length := by
    rw [size_eq_length, contents_of_elements targetHeld]
  have inside : ¬ (srcPos.toInt < 0 ∨ destPos.toInt < 0 ∨ length.toInt < 0 ∨
      srcPos.toInt + length.toInt > (h.contents s).length ∨
      destPos.toInt + length.toInt > (h.contents d).length) := by
    simp only [Heap.inRange, Bool.and_eq_true, decide_eq_true_eq] at sourceRange destRange
    omega
  have inSource := toNat_add_le_of_inRange sourceRange
  have inDest := toNat_add_le_of_inRange destRange
  rw [← sourceSize] at sourceRange inSource
  rw [← targetSize] at destRange inDest
  simp only [Heap.arrayCopy, documented, sourceHeld, targetHeld, destComponent, sourceArray,
    destArray, sourceRange, destRange, if_neg inside, Bool.not_true, Bool.or_self,
    Bool.false_eq_true, if_false]
  by_cases assignable : r.assignable (h.classOf s) (h.classOf d)
  · have kind : source.kind = target.kind := by
      rw [sourceKind, targetKind]
      exact kind_eq_of_assignable assignable sourceComponent destComponent
    obtain ⟨result, contents⟩ := copyBlock_eq sourceHeld targetHeld kind inSource inDest
    rw [if_pos assignable, if_pos assignable]
    exact Prod.ext result contents
  · rw [if_neg assignable, if_neg assignable, hasReferenceComponents_eq, hasReferenceComponents_eq]
    cases sourceRefs : referenceComponent? r (h.classOf s) with
    | none => simp
    | some e' =>
      cases destRefs : referenceComponent? r (h.classOf d) with
      | none => simp
      | some c =>
        obtain ⟨sourceAgain, sourceReference⟩ := referenceComponent?_eq_some sourceRefs
        obtain ⟨destAgain, destReference⟩ := referenceComponent?_eq_some destRefs
        -- Elements of reference components are references, so that both arrays hold some.
        cases sourceComponent.symm.trans sourceAgain
        cases destComponent.symm.trans destAgain
        by_cases deeper :
            (r.cls (h.classOf s)).dimensions ≤ (r.cls (h.classOf d)).dimensions
        · obtain ⟨result, contents⟩ := copyChecked_eq f sourceHeld targetHeld
            (sourceKind.trans sourceReference) (targetKind.trans destReference) inSource inDest
          simp only [Option.isSome_some, Bool.not_true, Bool.false_or, Nat.not_lt.mpr deeper,
            decide_false, Bool.false_eq_true, if_false, if_pos deeper]
          exact Prod.ext result contents
        · simp [deeper, Nat.lt_of_not_le deeper]

theorem arrayCopy_outOfRange {r : Registry} {h : Heap} (fit : h.ElementsFit r) {s d : ObjectId}
    {srcPos destPos length : Int32} (sourceArray : (r.cls (h.classOf s)).isArray)
    (destArray : (r.cls (h.classOf d)).isArray)
    (outside : ¬ (Heap.inRange srcPos.toInt length.toInt (h.contents s).length ∧
      Heap.inRange destPos.toInt length.toInt (h.contents d).length)) :
    let after := h.arrayCopy r (some s) srcPos (some d) destPos length
    (after.1, after.2.contents) =
      documented r h (some s) srcPos.toInt (some d) destPos.toInt length.toInt := by
  obtain ⟨e, sourceComponent⟩ := Class.isArray_iff.mp sourceArray
  obtain ⟨f, destComponent⟩ := Class.isArray_iff.mp destArray
  obtain ⟨source, sourceHeld, -⟩ := fit s e sourceComponent
  obtain ⟨target, targetHeld, -⟩ := fit d f destComponent
  have refused : srcPos.toInt < 0 ∨ destPos.toInt < 0 ∨ length.toInt < 0 ∨
      srcPos.toInt + length.toInt > (h.contents s).length ∨
      destPos.toInt + length.toInt > (h.contents d).length := by
    simp only [Heap.inRange, Bool.and_eq_true, decide_eq_true_eq] at outside
    omega
  rw [contents_of_elements sourceHeld, contents_of_elements targetHeld, ← size_eq_length,
    ← size_eq_length] at outside
  have fails : (!Heap.inRange srcPos.toInt length.toInt source.size ||
      !Heap.inRange destPos.toInt length.toInt target.size) = true := by
    simpa [← Bool.and_eq_false_iff, Classical.or_iff_not_imp_left] using outside
  simp only [Heap.arrayCopy, documented, sourceHeld, targetHeld, destComponent, sourceArray,
    destArray, fails, if_pos refused, Bool.not_true, Bool.or_self, Bool.false_eq_true, if_false,
    if_true]

theorem get_copyBlock {h : Heap} {s d o : ObjectId} {srcAt destAt n : Nat}
    {source target : Elements} (other : d ≠ o) :
    (h.copyBlock s srcAt d destAt n source target).2.get o = h.get o := by
  unfold Heap.copyBlock
  split
  · rfl
  · split
    · exact get_setElements_of_ne h _ other
    · rfl

theorem get_copyChecked {r : Registry} {h : Heap} {d o : ObjectId} {srcAt destAt n : Nat}
    {c : ClassId} {source target : Elements} (other : d ≠ o) :
    (h.copyChecked r srcAt d destAt n c source target).2.get o = h.get o := by
  unfold Heap.copyChecked
  split
  · exact get_setElements_of_ne h _ other
  · rfl

theorem get_arrayCopy {r : Registry} {h : Heap} {src dest : Reference}
    {srcPos destPos length : Int32} {o : ObjectId} (other : dest ≠ some o) :
    (h.arrayCopy r src srcPos dest destPos length).2.get o = h.get o := by
  rcases src with _ | s
  · rfl
  rcases dest with _ | d
  · rfl
  have apart : d ≠ o := fun same => other (congrArg some same)
  simp only [Heap.arrayCopy]
  repeat' split
  all_goals first
    | rfl
    | exact get_copyBlock apart
    | exact get_copyChecked apart

/-- The result of a copy and what every array holds after it are the documented ones, and whatever
is not the destination stays as it is. -/
theorem arrayCopy_eq_documented {r : Registry} {h : Heap} (fit : h.ElementsFit r)
    (src dest : Reference) (srcPos destPos length : Int32) :
    let after := h.arrayCopy r src srcPos dest destPos length
    (after.1, after.2.contents) =
        documented r h src srcPos.toInt dest destPos.toInt length.toInt ∧
      ∀ o, dest ≠ some o → after.2.get o = h.get o := by
  refine ⟨?_, fun o other => get_arrayCopy other⟩
  rcases src with _ | s
  · rfl
  rcases dest with _ | d
  · rfl
  cases destArray : (r.cls (h.classOf d)).isArray with
  | false =>
    have noComponent : (r.cls (h.classOf d)).component? = none := by
      by_contra some
      obtain ⟨f, component⟩ := Option.ne_none_iff_exists'.mp some
      rw [Class.isArray_iff.mpr ⟨f, component⟩] at destArray
      cases destArray
    simp [Heap.arrayCopy, documented, destArray, noComponent]
  | true =>
    cases sourceArray : (r.cls (h.classOf s)).isArray with
    | false =>
      simp only [Heap.arrayCopy, documented, sourceArray]
      split <;> simp
    | true =>
      by_cases ranges : Heap.inRange srcPos.toInt length.toInt (h.contents s).length ∧
          Heap.inRange destPos.toInt length.toInt (h.contents d).length
      · exact arrayCopy_inRange fit sourceArray destArray ranges.1 ranges.2
      · exact arrayCopy_outOfRange fit sourceArray destArray ranges

/-! A copy that fails half way. -/

theorem elementsFit_of_forall {r : Registry} {h : Heap}
    (noArray : (r.cls (default : Object).cls).component? = none)
    (fit : ∀ x ∈ h.objects.toList, ∀ e ∈ (r.cls x.cls).component?,
      x.elements?.map Elements.kind = some (.ofPrimitive (r.cls e).primitive?)) :
    h.ElementsFit r := by
  intro o e component
  by_cases inHeap : o.index < h.objects.size
  · have got : h.get o = h.objects[o.index] := by simp [Heap.get, inHeap]
    have kind := fit (h.get o) (by rw [got]; simp) e component
    obtain ⟨x, held, kind⟩ := Option.map_eq_some_iff.mp kind
    exact ⟨x, held, kind⟩
  · have got : h.get o = default := by simp [Heap.get, inHeap]
    rw [Heap.classOf, got, noArray] at component
    cases component

def rootAndPart : Registry :=
  let root := Registry.empty.define ((ClassDef.named Registry.rootName).root) none
  let part := root.2.define (.named "test/Part") none
  ((part.2.arrayOf ⟨9⟩).2.arrayOf ⟨10⟩).2

def mixedHeap : Heap :=
  { Heap.empty 0 0 with
    objects := #[
      Heap.newArrayOf ⟨11⟩ (.references [some ⟨2⟩, none, some ⟨3⟩, some ⟨2⟩]),
      Heap.newArrayOf ⟨12⟩ (.references [none, none, none, none, none]),
      { cls := ⟨10⟩, fields := #[], payload := .plain },
      { cls := ⟨9⟩, fields := #[], payload := .plain }] }

theorem copy_stops_at_misfit :
    mixedHeap.ElementsFit rootAndPart ∧
      let after := mixedHeap.arrayCopy rootAndPart (some ⟨0⟩) 0 (some ⟨1⟩) 1 4
      after.1 = .error .arrayStore ∧
        after.2.contents ⟨1⟩ = [.null, .ref (some ⟨2⟩), .null, .null, .null] := by
  have fit : mixedHeap.ElementsFit rootAndPart :=
    elementsFit_of_forall (by decide +kernel) (by decide +kernel)
  have documented := (arrayCopy_eq_documented fit (some ⟨0⟩) (some ⟨1⟩) 0 1 4).1
  refine ⟨fit, (congrArg Prod.fst documented).trans (by decide +kernel), ?_⟩
  exact (congrFun (congrArg Prod.snd documented) ⟨1⟩).trans (by decide +kernel)

end Transfer
end ManagedRuntime
