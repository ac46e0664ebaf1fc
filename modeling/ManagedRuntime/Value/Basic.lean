import ManagedRuntime.Primitive

/-!
Typed values. Floating-point numbers are kept as bits, so equal values are equal bit for bit, and
a reference is the identity of an object or null.
-/
namespace ManagedRuntime

structure ObjectId where
  index : Nat
  deriving DecidableEq, Hashable, Repr

abbrev Reference := Option ObjectId

inductive Value where
  | boolean (v : Bool)
  | byte (v : Int8)
  | char (v : UInt16)
  | short (v : Int16)
  | int (v : Int32)
  | float (bits : UInt32)
  | long (v : Int64)
  | double (bits : UInt64)
  | ref (r : Reference)
  deriving DecidableEq

namespace Value

def null : Value := ref none

instance : Inhabited Value := ⟨null⟩

def primitive? : Value → Option Primitive
  | boolean _ => some .boolean
  | byte _ => some .byte
  | char _ => some .char
  | short _ => some .short
  | int _ => some .int
  | float _ => some .float
  | long _ => some .long
  | double _ => some .double
  | ref _ => none

/-- The zero value of a primitive type; `void` has none. -/
def zero? : Primitive → Option Value
  | .boolean => some (boolean false)
  | .byte => some (byte 0)
  | .char => some (char 0)
  | .short => some (short 0)
  | .int => some (int 0)
  | .float => some (float 0)
  | .long => some (long 0)
  | .double => some (double 0)
  | .void => none

def slotCount (v : Value) : Nat := (v.primitive?.map Primitive.slotCount).getD 1

def object? : Value → Reference
  | ref r => r
  | _ => none

def objects (vs : List Value) : List ObjectId := vs.filterMap object?

def int? : Value → Option Int32
  | int v => some v
  | _ => none

def long? : Value → Option Int64
  | long v => some v
  | _ => none

def boolean? : Value → Option Bool
  | boolean v => some v
  | _ => none

def double? : Value → Option UInt64
  | double v => some v
  | _ => none

end Value
end ManagedRuntime
