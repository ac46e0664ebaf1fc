import ManagedRuntime.Proofs.Class.ArrayNames
import ManagedRuntime.Proofs.Descriptor.FieldTypes

/-!
Array classes by their own names. Such a name tells how many dimensions there are and what the element
is, and for the loader that the class belongs to it stands for no other class. Main statements: the
name is a field descriptor, and the registry gives for it the class itself and makes none.
-/
namespace ManagedRuntime

namespace FieldType
variable {cs rest : List Char} {t : FieldType}

theorem scan_brackets {n depth : Nat} (fits : depth + n ≤ maxDimensions)
    (element : scan (depth + n) cs = some (t, rest)) :
    ∃ t', scan depth (List.replicate n '[' ++ cs) = some (t', rest) ∧
      (n ≠ 0 → ∃ component, t' = array component) := by
  induction n generalizing depth with
  | zero => exact ⟨t, element, fun positive => absurd rfl positive⟩
  | succ n ih =>
    have more : depth + 1 + n ≤ maxDimensions := by omega
    obtain ⟨component, scanned, -⟩ := ih more
      (by rw [Nat.add_assoc, Nat.add_comm 1 n]; exact element)
    refine ⟨array component, ?_, fun _ => ⟨component, rfl⟩⟩
    rw [List.replicate_succ, List.cons_append, scan, if_pos (by omega), scanned]
    rfl

end FieldType

namespace Registry
variable {r : Registry} {n : Nat} {b c e : ClassId}

theorem Built.named (built : r.Built) (there : c.index < r.loaded.size) : (r.cls c).name ≠ "" := by
  let P (r : Registry) : Prop := ∀ c : ClassId, c.index < r.loaded.size → (r.cls c).name ≠ ""
  have added {r : Registry} {x : Class} (named : x.name ≠ "") (before : P r) : P (r.add x).2 := by
    intro c there
    by_cases last : c.index = r.loaded.size
    · rw [cls_add_last last]
      exact named
    · rw [size_add] at there
      rw [cls_add_before last]
      exact before c (by omega)
  refine built.invariant (P := P) ?_ ?_ ?_ ?_ c there
  · intro c there
    have inside : c.index < Primitive.all.length := by simpa [Registry.empty] using there
    rw [cls_empty, List.getElem?_eq_getElem inside]
    generalize Primitive.all[c.index] = p
    cases p <;> decide
  · intro r c _ before _ _
    refine added (fun none => ?_) before
    have chars := (r.cls c).toList_arrayName
    rw [show (r.cls c).arrayName = "" from none] at chars
    cases chars
  · exact fun r x _ before _ named _ _ => added named before
  · intro r c f before d there
    rw [size_modifyState] at there
    rw [cls_modifyState]
    exact before d there

structure Innermost (r : Registry) (n : Nat) (c e : ClassId) : Prop where
  spans : r.ArrayOver n c e
  plain : (r.cls e).isArray = false

theorem Ordered.exists_innermost (ordered : r.Ordered) (c : ClassId) :
    ∃ n e, r.Innermost n c e := by
  induction k : c.index using Nat.strongRecOn generalizing c with
  | ind k ih =>
    subst k
    cases component : (r.cls c).component? with
    | none =>
      refine ⟨0, c, rfl, ?_⟩
      rw [← Bool.not_eq_true, Class.isArray_iff, component]
      simp
    | some b =>
      obtain ⟨n, e, spans, plain⟩ := ih b.index (ordered.component_lt component) b rfl
      exact ⟨n + 1, e, ⟨b, component, spans⟩, plain⟩

theorem Later.arrayOver {r' : Registry} (later : Later r r') (ordered : r.Ordered)
    (there : c.index < r.loaded.size) (spans : r.ArrayOver n c e) : r'.ArrayOver n c e := by
  induction n generalizing c with
  | zero => exact spans
  | succ n ih =>
    obtain ⟨b, component, rest⟩ := spans
    refine ⟨b, ?_, ih (Nat.lt_trans (ordered.component_lt component) there) rest⟩
    rw [later.cls c there]
    exact component

theorem ArrayOver.last (spans : r.ArrayOver (n + 1) c e) :
    ∃ b, r.ArrayOver n c b ∧ (r.cls b).component? = some e := by
  induction n generalizing c with
  | zero =>
    obtain ⟨b, component, rfl⟩ := spans
    exact ⟨c, rfl, component⟩
  | succ n ih =>
    obtain ⟨d, component, rest⟩ := spans
    obtain ⟨b, spans, last⟩ := ih rest
    exact ⟨b, ⟨d, component, spans⟩, last⟩

theorem ArrayOver.there (ordered : r.Ordered) (spans : r.ArrayOver n c e)
    (there : c.index < r.loaded.size) : e.index < r.loaded.size := by
  induction n generalizing c with
  | zero =>
    cases spans
    exact there
  | succ n ih =>
    obtain ⟨b, component, rest⟩ := spans
    exact ih rest (Nat.lt_trans (ordered.component_lt component) there)

theorem Keyed.arrayOf_component (keyed : r.Keyed) (component : (r.cls b).component? = some e) :
    r.arrayOf e = (b, r) := by
  obtain ⟨m, kind⟩ := Class.component?_eq_some.mp component
  obtain ⟨name, loader, -⟩ := keyed.array b e m kind
  have array := resolved_of_isArray (Class.isArray_iff.mpr ⟨e, component⟩)
  have known : r.Known (r.cls e).arrayName (r.cls e).loader b := ⟨array, name, loader⟩
  unfold arrayOf
  rw [keyed.find?_iff.mpr known]

theorem Keyed.arrayOfTimes_eq (keyed : r.Keyed) (spans : r.ArrayOver n c e) :
    arrayOfTimes n e r = (c, r) := by
  induction n generalizing e with
  | zero =>
    cases spans
    rfl
  | succ n ih =>
    obtain ⟨b, spans, component⟩ := spans.last
    rw [arrayOfTimes, keyed.arrayOf_component component]
    exact ih spans

theorem Innermost.unbracketed (keyed : r.Keyed) (inner : r.Innermost n c e) :
    (r.cls e).signature.takeWhile (· = '[') = [] := by
  have other : initial (r.cls e).kind ≠ '[' := by
    have plain := inner.plain
    unfold Class.isArray at plain
    cases kind : (r.cls e).kind with
    | array => simp [kind] at plain
    | ordinary => exact (by decide : 'L' ≠ '[')
    | primitive p => cases p <;> exact (by decide)
  obtain ⟨cs, same⟩ := List.head?_eq_some_iff.mp (keyed.head_signature e)
  rw [same]
  simp [other]

/-- The brackets are the dimensions, for what stands for the element begins with none. -/
theorem Innermost.brackets (keyed : r.Keyed) (inner : r.Innermost n c e) (positive : n ≠ 0) :
    brackets (r.cls c).name = n ∧ (r.cls c).name.toList.drop n = (r.cls e).signature := by
  obtain ⟨-, chars⟩ := inner.spans.called keyed positive
  constructor
  · rw [Registry.brackets, chars, List.takeWhile_append_of_pos (by simp), inner.unbracketed keyed]
    simp
  · rw [chars]
    exact List.drop_left' List.length_replicate

theorem Built.element?_signature (built : r.Built) (there : e.index < r.loaded.size)
    (plain : (r.cls e).isArray = false) (notVoid : (r.cls e).kind ≠ .primitive .void) :
    r.element? (r.cls e).signature (r.cls e).loader = some e := by
  have keyed := built.keyed
  unfold Class.signature
  cases kind : (r.cls e).kind with
  | array d m => simp [Class.isArray, kind] at plain
  | primitive p =>
    rw [keyed.primitive e p kind]
    cases p with
    | void => exact absurd kind notVoid
    | _ => rfl
  | ordinary =>
    have known : r.Known (r.cls e).name (r.cls e).loader e :=
      ⟨⟨there, by rw [Class.isPrimitive, kind]⟩, rfl, rfl⟩
    have named : (r.cls e).name.toList ≠ [] := fun none =>
      built.named there (String.toList_eq_nil_iff.mp none)
    unfold element?
    rw [objectName?_eq_some.mpr rfl]
    cases chars : (r.cls e).name.toList with
    | nil => exact absurd chars named
    | cons x xs =>
      dsimp only
      rw [← chars, String.ofList_toList, keyed.findVisible?_iff]
      exact .inl known

section array
variable (built : r.Built) (inner : r.Innermost n c e) (positive : n ≠ 0)
  (fits : n ≤ FieldType.maxDimensions) (notVoid : (r.cls e).kind ≠ .primitive .void)
include built inner positive fits notVoid

/-- An array class is what its name gives, and it is not made again. -/
theorem Innermost.arrayClass_name :
    r.arrayClass (r.cls c).name (r.cls c).loader = (some c, r) := by
  have keyed := built.keyed
  obtain ⟨dimensions, element⟩ := inner.brackets keyed positive
  have there := inner.spans.there built.ordered (inner.spans.called keyed positive).1.there
  unfold Registry.arrayClass
  simp only [dimensions, element]
  rw [if_neg (by omega), inner.spans.loader keyed,
    built.element?_signature there inner.plain notVoid]
  dsimp only
  rw [keyed.arrayOfTimes_eq inner.spans]

theorem Innermost.parse?_name (unended : ';' ∉ (r.cls e).name.toList) :
    ∃ component, FieldType.parse? (r.cls c).name.toList = some (.array component) := by
  have keyed := built.keyed
  obtain ⟨resolved, chars⟩ := inner.spans.called keyed positive
  have element : ∃ t, FieldType.scan (0 + n) (r.cls e).signature = some (t, []) := by
    unfold Class.signature
    cases kind : (r.cls e).kind with
    | array d m =>
      have plain := inner.plain
      simp [Class.isArray, kind] at plain
    | primitive p =>
      exact ⟨_, FieldType.scan_letter (fun void => notVoid (void ▸ kind)) _ []⟩
    | ordinary =>
      have named := built.named (inner.spans.there built.ordered resolved.there)
      exact ⟨_, FieldType.scan_named (fun none => named (String.toList_eq_nil_iff.mp none)) unended _ []⟩
  obtain ⟨t, element⟩ := element
  obtain ⟨t', scanned, array⟩ := FieldType.scan_brackets (by omega) element
  obtain ⟨component, rfl⟩ := array positive
  refine ⟨component, ?_⟩
  unfold FieldType.parse?
  rw [chars, scanned]

end array

end Registry
end ManagedRuntime
