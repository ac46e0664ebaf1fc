import ManagedRuntime.Failure.Wording
import ManagedRuntime.Value.Slot

/-!
Operand stacks: slots up to a fixed capacity, the newest last.
-/
namespace ManagedRuntime

structure OperandStack where
  slots : Array Slot
  capacity : Nat
  deriving DecidableEq

namespace OperandStack

def defaultCapacity : Nat := 65536

def empty (capacity : Nat) : OperandStack := ⟨#[], capacity⟩

variable (s : OperandStack)

def size : Nat := s.slots.size

def push (x : Slot) : Except Failure OperandStack :=
  if s.size < s.capacity then .ok { s with slots := s.slots.push x } else .error .stackOverflow

def pop : Except Failure (Slot × OperandStack) :=
  match s.slots.back? with
  | none => .error .stackUnderflow
  | some x => .ok (x, { s with slots := s.slots.pop })

def hasRoom (n : Nat) : Bool := s.size + n ≤ s.capacity

def ensure (n : Nat) : Except Failure Unit :=
  if s.hasRoom n then .ok () else .error .stackOverflow

def get? (i : Nat) : Option Slot := s.slots[i]?

def slotsFrom (i : Nat) : List Slot := s.slots.toList.drop i

def truncate (n : Nat) : OperandStack := { s with slots := s.slots.take n }

/-- Pushes slots until one does not fit; those before it stay. -/
def pushAll : OperandStack → List Slot → Except Failure Unit × OperandStack
  | s, [] => (.ok (), s)
  | s, x :: xs =>
    match s.push x with
    | .error f => (.error f, s)
    | .ok s' => pushAll s' xs

def read (i : Nat) (type : Option Primitive) : Option Value := Slot.readAt s.slots i type

end OperandStack
end ManagedRuntime
