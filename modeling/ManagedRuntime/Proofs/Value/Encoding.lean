import ManagedRuntime.Class.Basic

/-!
Values in slots and the positions of arguments. Main statements: a value is read back wherever its
slots lie, the positions of arguments follow one another without a gap, and each of several values
that lie one after the other is read back at the position of its argument.
-/
namespace ManagedRuntime

namespace Value

theorem read_slots (v : Value) (rest : List Slot) :
    read (v.slots ++ rest) v.primitive? = some v := by
  cases v with
  | boolean b => cases b <;> rfl
  | byte n =>
    have narrowed : n.toInt32.toUInt32.toInt32.toInt8 = n := by simp
    exact congrArg (some ∘ byte) narrowed
  | char n =>
    have narrowed : n.toUInt32.toUInt16 = n := by simp
    exact congrArg (some ∘ char) narrowed
  | short n =>
    have narrowed : n.toInt32.toUInt32.toInt32.toInt16 = n := by simp
    exact congrArg (some ∘ short) narrowed
  | int n => rfl
  | float bits => rfl
  | long n => rfl
  | double bits => rfl
  | ref r => rfl

theorem length_slots_le_two (v : Value) : v.slots.length ≤ 2 := by
  cases v <;> simp [slots]

end Value

namespace Slot

theorem readAt_slots (before after : List Slot) (v : Value) :
    readAt (before ++ v.slots ++ after).toArray before.length v.primitive? = some v := by
  let slots := v.slots ++ after
  have here (i : Nat) : (before ++ v.slots ++ after)[before.length + i]? = slots[i]? := by
    rw [List.append_assoc, List.getElem?_append_right (by omega), Nat.add_sub_cancel_left]
  have front : slots[0]?.toList ++ slots[1]?.toList = slots.take 2 := by
    match slots with
    | [] | [_] | _ :: _ :: _ => rfl
  have own : slots.take 2 = v.slots ++ after.take (2 - v.slots.length) := by
    rw [List.take_append, List.take_of_length_le v.length_slots_le_two]
  have first := here 0
  rw [Nat.add_zero] at first
  rw [readAt, List.getElem?_toArray, List.getElem?_toArray, first, here 1, front, own]
  exact v.read_slots _

end Slot

namespace ParamSlot

def range (p : ParamSlot) : List Nat := List.range' p.offset p.slotCount

theorem ranges_place (offset : Nat) (types : List (Option Primitive)) :
    (place offset types).flatMap range = List.range' offset (totalSlots (place offset types)) := by
  induction types generalizing offset with
  | nil => rfl
  | cons t ts ih =>
    simp only [place, List.flatMap_cons, totalSlots, ih, range]
    exact List.range'_append_1

theorem getElem?_place (offset : Nat) (args : List Value) (i : Nat) :
    (place offset (args.map Value.primitive?))[i]? =
      args[i]?.map fun v =>
        ⟨offset + ((args.take i).flatMap Value.slots).length, v.primitive?⟩ := by
  induction args generalizing offset i with
  | nil => rfl
  | cons v vs ih =>
    cases i with
    | zero => rfl
    | succ i =>
      have count : (ParamSlot.mk offset v.primitive?).slotCount = v.slots.length :=
        v.length_slots.symm
      simp only [List.map_cons, place, List.getElem?_cons_succ, ih, count, List.take_succ_cons,
        List.flatMap_cons, List.length_append, Nat.add_assoc]

theorem totalSlots_place (offset : Nat) (args : List Value) :
    totalSlots (place offset (args.map Value.primitive?)) = (args.flatMap Value.slots).length := by
  induction args generalizing offset with
  | nil => rfl
  | cons v vs ih =>
    rw [List.map_cons, place, totalSlots, ih, List.flatMap_cons, List.length_append,
      v.length_slots]
    rfl

end ParamSlot

namespace Method
variable {m : Method}

/-- The values are of the types of the method's arguments, the receiver first. -/
def Takes (m : Method) (args : List Value) : Prop :=
  args.map Value.primitive? = ArgLayout.argTypes m.type m.isStatic

def Returns (m : Method) (result : Option Value) : Prop :=
  result.map Value.primitive? = m.type.result.map FieldType.primitive?

instance (m : Method) (args : List Value) : Decidable (m.Takes args) :=
  inferInstanceAs (Decidable (_ = _))

instance (m : Method) (result : Option Value) : Decidable (m.Returns result) :=
  inferInstanceAs (Decidable (_ = _))

theorem Takes.length {args : List Value} (takes : m.Takes args) : args.length = m.arity := by
  have same := congrArg List.length takes
  unfold ArgLayout.argTypes at same
  unfold arity
  cases static : m.isStatic <;> simp [static] at same ⊢ <;> omega

theorem Takes.argSlots {args : List Value} (takes : m.Takes args) :
    (args.flatMap Value.slots).length = m.layout.argSlots := by
  rw [← ParamSlot.totalSlots_place 0 args, takes]
  rfl

theorem Takes.params {args : List Value} (takes : m.Takes args) (i : Nat) :
    m.layout.params[i]? =
      args[i]?.map fun v => ⟨((args.take i).flatMap Value.slots).length, v.primitive?⟩ := by
  have placed := ParamSlot.getElem?_place 0 args i
  simp only [Nat.zero_add] at placed
  rw [takes] at placed
  exact placed

theorem Returns.resultSlots {result : Option Value} (returns : m.Returns result) :
    ((result.map Value.slots).getD []).length = m.layout.resultSlots := by
  have declared : m.layout.resultSlots = (m.type.result.map FieldType.slotCount).getD 0 := rfl
  rw [declared]
  unfold Returns at returns
  cases result with
  | none =>
    have undeclared : m.type.result = none := Option.map_eq_none_iff.mp returns.symm
    rw [undeclared]
    rfl
  | some v =>
    obtain ⟨t, found, type⟩ := Option.map_eq_some_iff.mp returns.symm
    rw [found]
    simp only [Option.map_some, Option.getD_some, Value.length_slots, Value.slotCount, ← type]
    cases t <;> rfl

end Method
end ManagedRuntime
