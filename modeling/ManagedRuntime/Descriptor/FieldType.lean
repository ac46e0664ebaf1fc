import ManagedRuntime.Primitive
import ManagedRuntime.Text.Quoted

/-!
Field types and their descriptors: a primitive letter, `L` name `;`, or up to 255 `[` before
either. The scanner reads one descriptor off the front of a text, so method descriptors share it.
-/
namespace ManagedRuntime

inductive FieldType where
  | primitive (p : Primitive)
  | object (name : String)
  | array (component : FieldType)
  deriving DecidableEq, Repr

structure MalformedDescriptor where
  text : String
  deriving DecidableEq, Repr

def MalformedDescriptor.message (e : MalformedDescriptor) : String :=
  "malformed descriptor " ++ Text.quoted e.text

namespace FieldType

def maxDimensions : Nat := 255

def primitive? : FieldType → Option Primitive
  | primitive p => some p
  | _ => none

def isReference (t : FieldType) : Bool := t.primitive?.isNone

def slotCount : FieldType → Nat
  | primitive p => p.slotCount
  | _ => 1

def descriptorChars : FieldType → List Char
  | primitive p => [p.letter]
  | object name => 'L' :: (name.toList ++ [';'])
  | array component => '[' :: component.descriptorChars

def descriptor (t : FieldType) : String := String.ofList t.descriptorChars

/-- Name of the class the type denotes; an array class is named by its descriptor. -/
def className : FieldType → String
  | primitive p => p.name
  | object name => name
  | array component => (array component).descriptor

/-- Reads one descriptor, `depth` array dimensions already read, and what follows it. -/
def scan (depth : Nat) : List Char → Option (FieldType × List Char)
  | [] => none
  | '[' :: cs =>
    if depth < maxDimensions then (scan (depth + 1) cs).map fun r => (array r.1, r.2) else none
  | 'L' :: cs =>
    match cs.takeWhile (· ≠ ';'), cs.dropWhile (· ≠ ';') with
    | [], _ => none
    | _, [] => none
    | name, _ :: rest => some (object (String.ofList name), rest)
  | c :: cs =>
    match Primitive.ofLetter? c with
    | none | some .void => none
    | some p => some (primitive p, cs)

def parse? (cs : List Char) : Option FieldType :=
  match scan 0 cs with
  | some (t, []) => some t
  | _ => none

def parse (s : String) : Except MalformedDescriptor FieldType :=
  match parse? s.toList with
  | some t => .ok t
  | none => .error ⟨s⟩

end FieldType
end ManagedRuntime
