import ManagedRuntime.Proofs.Value.Encoding

/-!
Slots as storage. Main statements: a write that succeeds can be read back and changes no slot but
its own, and what a read gives is decided by the slots of its type alone.
-/
namespace ManagedRuntime

namespace Value

theorem length_slots_pos (v : Value) : 0 < v.slots.length := by
  cases v <;> exact Nat.zero_lt_succ _

theorem read_first {t : FieldType} (narrow : t.slotCount = 1) (s : Slot) (xs ys : List Slot) :
    read (s :: xs) t.primitive? = read (s :: ys) t.primitive? := by
  cases t with
  | object name => cases s <;> rfl
  | array component => cases s <;> rfl
  | primitive p =>
    cases p with
    | void | long | double => cases narrow
    | _ => cases s <;> rfl

theorem read_nothing {t : FieldType} (empty : t.slotCount = 0) (xs : List Slot) :
    read xs t.primitive? = none := by
  cases t with
  | object name | array component => cases empty
  | primitive p =>
    cases p with
    | void => cases xs <;> rfl
    | _ => cases empty

end Value

theorem FieldType.slotCount_le_two (t : FieldType) : t.slotCount ≤ 2 := by
  cases t with
  | object name | array component => exact Nat.le_succ 1
  | primitive p => cases p <;> decide

theorem FieldType.slotCount_eq (t : FieldType) :
    t.slotCount = (t.primitive?.map Primitive.slotCount).getD 1 := by
  cases t <;> rfl

namespace Slot
variable {storage storage' : Array Slot} {offset : Nat} {v : Value}

structure Writes (storage : Array Slot) (offset : Nat) (v : Value) (storage' : Array Slot) : Prop
    where
  inside : offset + v.slots.length ≤ storage.size
  size : storage'.size = storage.size
  own : ∀ i, i < v.slots.length → storage'[offset + i]? = v.slots[i]?
  other : ∀ i, i < offset ∨ offset + v.slots.length ≤ i → storage'[i]? = storage[i]?

theorem write?_eq_some (wrote : write? storage offset v = some storage') :
    Writes storage offset v storage' := by
  unfold write? at wrote
  split at wrote
  · rename_i s slots
    split at wrote
    · rename_i there
      cases wrote
      refine ⟨by rw [slots]; exact there, by simp, ?_, ?_⟩
      · intro i own
        obtain rfl : i = 0 := by simpa [slots] using own
        simp [slots, there]
      · intro i other
        have apart : offset ≠ i := by
          simp only [slots, List.length_singleton] at other
          omega
        simp [apart]
    · cases wrote
  · rename_i s t slots
    split at wrote
    · rename_i there
      cases wrote
      refine ⟨by rw [slots]; exact there, by simp, ?_, ?_⟩
      · intro i own
        have two : i = 0 ∨ i = 1 := by
          simp only [slots, List.length_cons, List.length_nil] at own
          omega
        rcases two with rfl | rfl
        · simp [slots, show offset < storage.size by omega]
        · simp [slots, there]
      · intro i other
        have apart : offset ≠ i ∧ offset + 1 ≠ i := by
          simp only [slots, List.length_cons, List.length_nil] at other
          omega
        simp [apart.1, apart.2]
    · cases wrote
  · cases wrote

theorem write?_isSome (inside : offset + v.slots.length ≤ storage.size) :
    ∃ storage', write? storage offset v = some storage' := by
  have positive := v.length_slots_pos
  have short := v.length_slots_le_two
  unfold write?
  split
  · rename_i s slots
    rw [slots] at inside
    exact ⟨_, if_pos inside⟩
  · rename_i s t slots
    rw [slots] at inside
    exact ⟨_, if_pos inside⟩
  · rename_i other other'
    match slots : v.slots with
    | [] => simp [slots] at positive
    | [s] => exact absurd slots (other s)
    | [s, t] => exact absurd slots (other' s t)
    | _ :: _ :: _ :: _ =>
      rw [slots] at short
      simp at short

theorem Writes.read (writes : Writes storage offset v storage') :
    readAt storage' offset v.primitive? = some v := by
  have own := writes.own
  have front : ∃ rest, storage'[offset]?.toList ++ storage'[offset + 1]?.toList = v.slots ++ rest := by
    have positive := v.length_slots_pos
    have short := v.length_slots_le_two
    have first := own 0 positive
    rw [Nat.add_zero] at first
    match slots : v.slots with
    | [] => simp [slots] at positive
    | [s] =>
      rw [slots] at first
      exact ⟨_, by rw [first]; rfl⟩
    | [s, t] =>
      have second := own 1 (by rw [slots]; exact Nat.one_lt_two)
      rw [slots] at first second
      exact ⟨[], by rw [first, second]; rfl⟩
    | _ :: _ :: _ :: _ =>
      rw [slots] at short
      simp at short
  obtain ⟨rest, same⟩ := front
  rw [readAt, same]
  exact v.read_slots rest

theorem readAt_congr {t : FieldType}
    (same : ∀ i, offset ≤ i → i < offset + t.slotCount → storage'[i]? = storage[i]?) :
    readAt storage' offset t.primitive? = readAt storage offset t.primitive? := by
  have count : t.slotCount = 0 ∨ t.slotCount = 1 ∨ t.slotCount = 2 := by
    have atMost := t.slotCount_le_two
    omega
  unfold readAt
  rcases count with none | one | two
  · rw [Value.read_nothing none, Value.read_nothing none]
  · have first := same offset (by omega) (by omega)
    cases found : storage[offset]? with
    | some s =>
      rw [first, found]
      exact Value.read_first one s _ _
    | none =>
      -- behind the end of one storage is behind the end of the other
      have short : storage.size ≤ offset := Array.getElem?_eq_none_iff.mp found
      have short' : storage'.size ≤ offset := Array.getElem?_eq_none_iff.mp (first.trans found)
      rw [first, found, Array.getElem?_eq_none (show storage.size ≤ offset + 1 by omega),
        Array.getElem?_eq_none (show storage'.size ≤ offset + 1 by omega)]
  · rw [same offset (by omega) (by omega), same (offset + 1) (by omega) (by omega)]

theorem Writes.read_other (writes : Writes storage offset v storage') {offset' : Nat} {t : FieldType}
    (apart : offset' + t.slotCount ≤ offset ∨ offset + v.slots.length ≤ offset') :
    readAt storage' offset' t.primitive? = readAt storage offset' t.primitive? := by
  apply readAt_congr
  intro i above below
  apply writes.other
  omega

end Slot
end ManagedRuntime
