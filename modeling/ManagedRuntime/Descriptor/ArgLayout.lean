import ManagedRuntime.Descriptor.MethodType

/-!
Positions of a method's arguments on the operand stack. An instance method has its receiver in
front of the declared parameters.
-/
namespace ManagedRuntime

/-- One argument: its distance from the first argument slot and its primitive type, none for a
reference. -/
structure ParamSlot where
  offset : Nat
  type : Option Primitive
  deriving DecidableEq, Repr

namespace ParamSlot

def slotCount (p : ParamSlot) : Nat := (p.type.map Primitive.slotCount).getD 1

/-- Consecutive positions for `types`, the first at `offset`. -/
def place : Nat → List (Option Primitive) → List ParamSlot
  | _, [] => []
  | offset, t :: ts => ⟨offset, t⟩ :: place (offset + (ParamSlot.mk offset t).slotCount) ts

def totalSlots : List ParamSlot → Nat
  | [] => 0
  | p :: ps => p.slotCount + totalSlots ps

end ParamSlot

structure ArgLayout where
  params : List ParamSlot
  argSlots : Nat
  resultSlots : Nat
  deriving DecidableEq, Repr

namespace ArgLayout

def argTypes (m : MethodType) (isStatic : Bool) : List (Option Primitive) :=
  (if isStatic then [] else [none]) ++ m.params.map FieldType.primitive?

def of (m : MethodType) (isStatic : Bool) : ArgLayout :=
  let params := ParamSlot.place 0 (argTypes m isStatic)
  ⟨params, ParamSlot.totalSlots params, m.resultSlots⟩

end ArgLayout
end ManagedRuntime
