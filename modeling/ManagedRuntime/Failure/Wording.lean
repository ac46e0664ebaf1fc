import ManagedRuntime.Failure.Basic
import ManagedRuntime.Text.Quoted

/-!
The failures that carry a detail text, each named for what went wrong. All wording is here.
Methods are given by their full name `class.name descriptor`.
-/
namespace ManagedRuntime.Failure

def stackOverflow : Failure := internal "operand stack overflow"
def stackUnderflow : Failure := internal "operand stack underflow"

def underflowCalling (method : String) : Failure :=
  internal ("operand stack underflow calling " ++ method)

def wrongStackTop (method : String) (found expected : Nat) : Failure :=
  internal (method ++ " returned stack top " ++ toString found ++ " instead of "
    ++ toString expected)

def wrongArgumentCount (method : String) (n : Nat) : Failure :=
  internal (method ++ " called with " ++ toString n ++ " arguments")

def wrongArgumentSlots (method : String) (n : Nat) : Failure :=
  internal (method ++ " called with " ++ toString n ++ " argument slots")

def noResult (method : String) : Failure := internal (method ++ " left no result")
def noCode (method : String) : Failure := internal ("no code for " ++ method)

def noSuchArgument (method : String) (index : Nat) : Failure :=
  internal (method ++ " has no argument " ++ toString index)

def argumentShape (method : String) (index : Nat) (shape : String) : Failure :=
  internal (method ++ ": argument " ++ toString index ++ " is " ++ shape)

def argumentKind (method : String) (index : Nat) (expected found : String) : Failure :=
  internal (method ++ ": argument " ++ toString index ++ " expected " ++ expected ++ ", found "
    ++ found)

def badMemberSlot (method : String) (n : Int) : Failure :=
  internal (method ++ ": bad member slot " ++ toString n)

def noFieldSlot (className : String) (n : Nat) : Failure :=
  internal (className ++ " has no field slot " ++ toString n)

def noMethodSlot (className : String) (n : Nat) : Failure :=
  internal (className ++ " has no method slot " ++ toString n)

def noField (className field : String) : Failure :=
  internal (className ++ " has no field " ++ field)

def unreadableField (field : String) : Failure := internal ("unreadable field " ++ field)
def unwritableField (field : String) : Failure := internal ("unwritable field " ++ field)
def noValueField (className : String) : Failure := internal (className ++ " has no value field")
def valueNotWritable (className : String) : Failure := internal (className ++ ".value not writable")
def missingBootClass (name : String) : Failure :=
  internal ("bootstrap class " ++ name ++ " missing")
def notInstanceClass (name : String) : Failure := internal (name ++ " is not an instance class")
def notArrayClass (name : String) : Failure := internal (name ++ " is not an array class")
def notAMirror (object : String) : Failure := internal (object ++ " does not mirror a class")
def notAString (object : String) : Failure := internal (object ++ " is not a string")
def notAnArray (object : String) : Failure := internal (object ++ " is not an array")
def notAByteArray (object : String) : Failure := internal (object ++ " is not a byte array")
def noBacktrace (object : String) : Failure := internal (object ++ " carries no backtrace")
def noPrimitiveResult (method : String) : Failure :=
  internal (method ++ " does not return a primitive")

def heapExhausted (requested inUse limit : Nat) : Failure :=
  outOfMemory ("requested " ++ toString requested ++ " bytes with " ++ toString inUse ++ " of "
    ++ toString limit ++ " in use")

def illegalClassName (name : String) : Failure :=
  classFormat ("illegal class name " ++ Text.quoted name)

def cannotExtend (name superName : String) : Failure :=
  classFormat (name ++ " cannot extend " ++ superName)

/-- A member of `className` whose descriptor does not parse; `why` says so. -/
def badMember (className member why : String) : Failure :=
  classFormat (className ++ "." ++ member ++ ": " ++ why)

def noParser : Failure := classFormat "no class file parser installed"

def duplicateClass (name : String) : Failure :=
  linkage ("duplicate class definition for " ++ name)

def wrongClassName (expected found : String) : Failure :=
  noClassDefFound (expected ++ " (wrong name: " ++ found ++ ")")

def unbound (method : String) : Failure := unsatisfiedLink method

def ambiguousNative (method : String) (candidates : Nat) : Failure :=
  unsatisfiedLink (method ++ " (" ++ toString candidates ++ " candidate implementations)")

def fieldTypeMismatch : Failure := illegalArgument "field type mismatch"
def argumentTypeMismatch : Failure := illegalArgument "argument type mismatch"
def argumentCountMismatch : Failure := illegalArgument "wrong number of arguments"
def argumentsNotAnArray : Failure := illegalArgument "argument array is not an Object[]"
def wrongReceiver : Failure := illegalArgument "object is not an instance of declaring class"
def badTimeout : Failure := illegalArgument "timeout value is negative or out of range"

end ManagedRuntime.Failure
