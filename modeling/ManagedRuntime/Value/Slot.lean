import ManagedRuntime.Value.Basic

/-!
Storage slots: the words of operand stacks, instances and static storage. A narrow primitive is
one slot of 32 bits, `long` and `double` are a wide slot and its tail, a reference is one slot.
Main statement: reading back what was written gives the value.
-/
namespace ManagedRuntime

inductive Slot where
  | int (bits : UInt32)
  | wide (bits : UInt64)
  | wideTail
  | ref (r : Reference)
  | empty
  deriving DecidableEq

namespace Slot

instance : Inhabited Slot := ⟨empty⟩

def tag : Slot → String
  | int _ => "int"
  | wide _ => "wide"
  | wideTail => "wide-tail"
  | ref _ => "ref"
  | empty => "empty"

/-- Zeroed storage for a value of a type, where none stands for a reference. -/
def zeroed : Option Primitive → List Slot
  | none => [ref none]
  | some .long | some .double => [wide 0, wideTail]
  | some .void => []
  | some _ => [int 0]

end Slot

namespace Value

/-- The slots that hold a value. Narrow integers are extended to 32 bits, with the sign if the
type has one. -/
def slots : Value → List Slot
  | boolean v => [.int (if v then 1 else 0)]
  | byte v => [.int v.toInt32.toUInt32]
  | char v => [.int v.toUInt32]
  | short v => [.int v.toInt32.toUInt32]
  | int v => [.int v.toUInt32]
  | float bits => [.int bits]
  | long v => [.wide v.toUInt64, .wideTail]
  | double bits => [.wide bits, .wideTail]
  | ref r => [.ref r]

/-- Narrow value of a type from 32 bits: the low bits count. -/
def ofNarrow (bits : UInt32) : Primitive → Value
  | .boolean => boolean (bits &&& 1 != 0)
  | .byte => byte bits.toInt32.toInt8
  | .char => char bits.toUInt16
  | .short => short bits.toInt32.toInt16
  | .float => float bits
  | _ => int bits.toInt32

/-- Value of a type at the front of `slots`, where none stands for a reference; none if the slots
have another shape. -/
def read (slots : List Slot) (type : Option Primitive) : Option Value :=
  match type, slots with
  | none, .ref r :: _ => some (ref r)
  | some .long, .wide bits :: .wideTail :: _ => some (long bits.toInt64)
  | some .double, .wide bits :: .wideTail :: _ => some (double bits)
  | some .long, _ | some .double, _ | some .void, _ => none
  | some p, .int bits :: _ => some (ofNarrow bits p)
  | _, _ => none

theorem length_slots (v : Value) : v.slots.length = v.slotCount := by
  cases v <;> rfl

end Value

namespace Slot

def objects (storage : Array Slot) : List ObjectId :=
  storage.toList.filterMap fun | .ref r => r | _ => none

/-- Replaces the slots from `offset` on by those of `v`; none if they would not fit. -/
def write? (storage : Array Slot) (offset : Nat) (v : Value) : Option (Array Slot) :=
  match v.slots with
  | [s] => if offset < storage.size then some (storage.set! offset s) else none
  | [s, t] =>
    if offset + 1 < storage.size then some ((storage.set! offset s).set! (offset + 1) t) else none
  | _ => none

def readAt (storage : Array Slot) (offset : Nat) (type : Option Primitive) : Option Value :=
  Value.read (storage[offset]?.toList ++ storage[offset + 1]?.toList) type

end Slot
end ManagedRuntime
