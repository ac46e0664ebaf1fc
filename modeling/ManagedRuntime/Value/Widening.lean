import ManagedRuntime.Value.Basic
import ManagedRuntime.Binary.Format

/-!
Widening of primitive values: every primitive type widens to itself, and the numeric types along
`byte → short → int → long → float → double` with `char → int`.
-/
namespace ManagedRuntime

/-- Does every value of the first type convert to the second without narrowing? -/
def Primitive.widensTo : Primitive → Primitive → Bool
  | .void, _ => false
  | .byte, t => t ∈ [.byte, .short, .int, .long, .float, .double]
  | .char, t => t ∈ [.char, .int, .long, .float, .double]
  | .short, t => t ∈ [.short, .int, .long, .float, .double]
  | .int, t => t ∈ [.int, .long, .float, .double]
  | .long, t => t ∈ [.long, .float, .double]
  | .float, t => t ∈ [.float, .double]
  | .double, t => t = .double
  | .boolean, t => t = .boolean

namespace Value

/-- Number denoted by an integral value; `char` is unsigned. -/
def integer? : Value → Option Int
  | byte v => some v.toInt
  | char v => some v.toNat
  | short v => some v.toInt
  | int v => some v.toInt
  | long v => some v.toInt
  | _ => none

def ofInteger (i : Int) : Primitive → Option Value
  | .short => some (short (.ofInt i))
  | .int => some (int (.ofInt i))
  | .long => some (long (.ofInt i))
  | .float => some (float (.ofNat (Binary.single.ofInt i)))
  | .double => some (double (.ofNat (Binary.double.ofInt i)))
  | _ => none

/-- The value as one of the type `t`, none if its type does not widen to `t`. -/
def widen (v : Value) (t : Primitive) : Option Value :=
  match v.primitive? with
  | none => none
  | some p =>
    if p = t then some v
    else if p.widensTo t then
      match v with
      | float bits => some (double (.ofNat (Binary.widenSingle bits.toNat)))
      | _ => v.integer?.bind (ofInteger · t)
    else none

end Value
end ManagedRuntime
