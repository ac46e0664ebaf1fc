import ManagedRuntime.Failure.Basic

/-!
Labels of failures: one word for each kind. A failure that carries no thrown object can be made
again from its label and its parts.
-/
namespace ManagedRuntime.Failure

def label : Failure → String
  | nullReference => "NullReference"
  | arrayIndexOutOfBounds => "ArrayIndexOutOfBounds"
  | arrayStore => "ArrayStore"
  | negativeArraySize _ => "NegativeArraySize"
  | illegalArgument _ => "IllegalArgument"
  | illegalMonitorState => "IllegalMonitorState"
  | interrupted => "Interrupted"
  | outOfMemory _ => "OutOfMemory"
  | classNotFound _ | classNotFoundFrom _ _ => "ClassNotFound"
  | noClassDefFound _ | noClassDefFoundFrom _ _ => "NoClassDefFound"
  | exceptionInInitializer _ _ => "ExceptionInInitializer"
  | invocationTarget _ => "InvocationTarget"
  | unsatisfiedLink _ => "UnsatisfiedLink"
  | linkage _ => "Linkage"
  | classFormat _ => "ClassFormat"
  | instantiation _ => "Instantiation"
  | abstractMethod _ => "AbstractMethod"
  | noSuchMethod _ => "NoSuchMethod"
  | internal _ => "Internal"
  | thrown _ _ => "Thrown"

/-- The failure with a label and with those of the parts that its kind has; none for an unknown
label and for a kind that needs more. -/
def ofLabel? (label detail : String) (length : Int32) (source : Option Failure) : Option Failure :=
  match label with
  | "NullReference" => some nullReference
  | "ArrayIndexOutOfBounds" => some arrayIndexOutOfBounds
  | "ArrayStore" => some arrayStore
  | "NegativeArraySize" => some (negativeArraySize length)
  | "IllegalArgument" => some (illegalArgument detail)
  | "IllegalMonitorState" => some illegalMonitorState
  | "Interrupted" => some interrupted
  | "OutOfMemory" => some (outOfMemory detail)
  | "ClassNotFound" => some ((source.map (classNotFoundFrom detail)).getD (classNotFound detail))
  | "NoClassDefFound" =>
    some ((source.map (noClassDefFoundFrom detail)).getD (noClassDefFound detail))
  | "ExceptionInInitializer" => source.map (exceptionInInitializer detail)
  | "InvocationTarget" => source.map invocationTarget
  | "UnsatisfiedLink" => some (unsatisfiedLink detail)
  | "Linkage" => some (linkage detail)
  | "ClassFormat" => some (classFormat detail)
  | "Instantiation" => some (instantiation detail)
  | "AbstractMethod" => some (abstractMethod detail)
  | "NoSuchMethod" => some (noSuchMethod detail)
  | "Internal" => some (internal detail)
  | _ => none

end ManagedRuntime.Failure
