/-!
The primitive types of the managed language, and `void`, which only a return type can be.
-/
namespace ManagedRuntime

inductive Primitive where
  | boolean | byte | char | short | int | float | long | double | void
  deriving DecidableEq, Repr

namespace Primitive

def all : List Primitive := [boolean, byte, char, short, int, float, long, double, void]

def letter : Primitive → Char
  | boolean => 'Z' | byte => 'B' | char => 'C' | short => 'S' | int => 'I'
  | float => 'F' | long => 'J' | double => 'D' | void => 'V'

def ofLetter? (c : Char) : Option Primitive := all.find? (·.letter = c)

/-- Source name, which is also the name of the primitive class. -/
def name : Primitive → String
  | boolean => "boolean" | byte => "byte" | char => "char" | short => "short" | int => "int"
  | float => "float" | long => "long" | double => "double" | void => "void"

def slotCount : Primitive → Nat
  | void => 0
  | long | double => 2
  | _ => 1

def width : Primitive → Nat
  | boolean | byte => 1
  | char | short => 2
  | int | float => 4
  | long | double => 8
  | void => 0

def wrapper : Primitive → String
  | boolean => "java/lang/Boolean" | byte => "java/lang/Byte" | char => "java/lang/Character"
  | short => "java/lang/Short" | int => "java/lang/Integer" | float => "java/lang/Float"
  | long => "java/lang/Long" | double => "java/lang/Double" | void => "java/lang/Void"

theorem ofLetter?_letter (p : Primitive) : ofLetter? p.letter = some p := by
  cases p <;> decide

theorem letter_of_ofLetter? {c : Char} {p : Primitive} (h : ofLetter? c = some p) :
    p.letter = c := by
  simpa using List.find?_some h

end Primitive
end ManagedRuntime
