import ManagedRuntime.Value.Basic

/-!
Array elements: one kind of element for the whole array, held without tags. Main definition:
`Elements.overwrite`, the block transfer between two arrays of one kind, which reads the old
contents throughout.
-/
namespace ManagedRuntime

inductive ElementKind where
  | boolean | byte | char | short | int | float | long | double | reference
  deriving DecidableEq, Repr

namespace ElementKind

/-- What an element of this kind is. Floating-point elements are bits. -/
abbrev Carrier : ElementKind → Type
  | boolean => Bool
  | byte => Int8
  | char => UInt16
  | short => Int16
  | int => Int32
  | float => UInt32
  | long => Int64
  | double => UInt64
  | reference => Reference

def zero : (k : ElementKind) → k.Carrier
  | boolean => false
  | byte => (0 : Int8)
  | char => (0 : UInt16)
  | short => (0 : Int16)
  | int => (0 : Int32)
  | float => (0 : UInt32)
  | long => (0 : Int64)
  | double => (0 : UInt64)
  | reference => (none : Reference)

/-- Kind of the elements of an array with components of a primitive type, where none and `void`
stand for references. -/
def ofPrimitive : Option Primitive → ElementKind
  | some .boolean => boolean
  | some .byte => byte
  | some .char => char
  | some .short => short
  | some .int => int
  | some .float => float
  | some .long => long
  | some .double => double
  | some .void | none => reference

def primitive? : ElementKind → Option Primitive
  | boolean => some .boolean
  | byte => some .byte
  | char => some .char
  | short => some .short
  | int => some .int
  | float => some .float
  | long => some .long
  | double => some .double
  | reference => none

def width (k : ElementKind) : Nat := (k.primitive?.map Primitive.width).getD 8

def toValue : (k : ElementKind) → k.Carrier → Value
  | boolean, v => .boolean v
  | byte, v => .byte v
  | char, v => .char v
  | short, v => .short v
  | int, v => .int v
  | float, v => .float v
  | long, v => .long v
  | double, v => .double v
  | reference, v => .ref v

def ofValue? : (k : ElementKind) → Value → Option k.Carrier
  | boolean, .boolean v => some v
  | byte, .byte v => some v
  | char, .char v => some v
  | short, .short v => some v
  | int, .int v => some v
  | float, .float v => some v
  | long, .long v => some v
  | double, .double v => some v
  | reference, .ref v => some v
  | _, _ => none

end ElementKind

structure Elements where
  kind : ElementKind
  items : Array kind.Carrier

namespace Elements

def zeroed (kind : ElementKind) (length : Nat) : Elements :=
  ⟨kind, Array.replicate length kind.zero⟩

def ofValues? (kind : ElementKind) (vs : List Value) : Option Elements :=
  (vs.mapM kind.ofValue?).map fun items => ⟨kind, items.toArray⟩

def references (refs : List Reference) : Elements := ⟨.reference, refs.toArray⟩

def size (e : Elements) : Nat := e.items.size

def isEmpty (e : Elements) : Bool := e.size = 0

def bytes (e : Elements) : Nat := e.size * e.kind.width

def get? (e : Elements) (i : Nat) : Option Value := e.items[i]?.map e.kind.toValue

def toValues (e : Elements) : List Value := e.items.toList.map e.kind.toValue

/-- Stores a value; none if it is of another kind or the index is out of range. References are not
checked against any class. -/
def set? (e : Elements) (i : Nat) (v : Value) : Option Elements :=
  match e.kind.ofValue? v with
  | none => none
  | some x => if i < e.size then some ⟨e.kind, e.items.set! i x⟩ else none

def references? : Elements → Option (Array Reference)
  | ⟨.reference, items⟩ => some items
  | _ => none

/-- The `length` items of `source` from `sourceAt` on, in place of those of `dest` from `destAt`
on. -/
def splice {α : Type} (source : Array α) (sourceAt : Nat) (dest : Array α) (destAt length : Nat) :
    Array α :=
  dest.extract 0 destAt ++ source.extract sourceAt (sourceAt + length)
    ++ dest.extract (destAt + length) dest.size

/-- Copies a block between arrays of one kind, none if their kinds differ. -/
def overwrite? (source : Elements) (sourceAt : Nat) (dest : Elements) (destAt length : Nat) :
    Option Elements :=
  if h : source.kind = dest.kind then
    some ⟨dest.kind, splice (h ▸ source.items) sourceAt dest.items destAt length⟩
  else none

end Elements
end ManagedRuntime
