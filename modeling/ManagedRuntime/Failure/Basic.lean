import ManagedRuntime.Value.Basic

/-!
Failures: the managed exceptions that operations raise. Each kind belongs to one managed class,
has one text, and may carry the failure that caused it.
-/
namespace ManagedRuntime

inductive Failure where
  | nullReference
  | arrayIndexOutOfBounds
  | arrayStore
  | negativeArraySize (length : Int32)
  | illegalArgument (detail : String)
  | illegalMonitorState
  | interrupted
  | outOfMemory (detail : String)
  | classNotFound (name : String)
  | classNotFoundFrom (name : String) (source : Failure)
  | noClassDefFound (name : String)
  | noClassDefFoundFrom (name : String) (source : Failure)
  | exceptionInInitializer (className : String) (source : Failure)
  | invocationTarget (source : Failure)
  | unsatisfiedLink (detail : String)
  | linkage (detail : String)
  | classFormat (detail : String)
  | instantiation (detail : String)
  | abstractMethod (detail : String)
  | noSuchMethod (detail : String)
  | internal (detail : String)
  /-- A throwable object raised by code, with the name of its class. -/
  | thrown (object : ObjectId) (className : String)
  deriving DecidableEq

namespace Failure

def className : Failure → String
  | nullReference => "java/lang/NullPointerException"
  | arrayIndexOutOfBounds => "java/lang/ArrayIndexOutOfBoundsException"
  | arrayStore => "java/lang/ArrayStoreException"
  | negativeArraySize _ => "java/lang/NegativeArraySizeException"
  | illegalArgument _ => "java/lang/IllegalArgumentException"
  | illegalMonitorState => "java/lang/IllegalMonitorStateException"
  | interrupted => "java/lang/InterruptedException"
  | outOfMemory _ => "java/lang/OutOfMemoryError"
  | classNotFound _ | classNotFoundFrom _ _ => "java/lang/ClassNotFoundException"
  | noClassDefFound _ | noClassDefFoundFrom _ _ => "java/lang/NoClassDefFoundError"
  | exceptionInInitializer _ _ => "java/lang/ExceptionInInitializerError"
  | invocationTarget _ => "java/lang/reflect/InvocationTargetException"
  | unsatisfiedLink _ => "java/lang/UnsatisfiedLinkError"
  | linkage _ => "java/lang/LinkageError"
  | classFormat _ => "java/lang/ClassFormatError"
  | instantiation _ => "java/lang/InstantiationException"
  | abstractMethod _ => "java/lang/AbstractMethodError"
  | noSuchMethod _ => "java/lang/NoSuchMethodError"
  | internal _ => "java/lang/InternalError"
  | thrown _ name => name

def message : Failure → String
  | nullReference => "NullPointerException"
  | arrayIndexOutOfBounds => "ArrayIndexOutOfBoundsException"
  | arrayStore => "ArrayStoreException"
  | negativeArraySize n => "NegativeArraySizeException: " ++ toString n.toInt
  | illegalArgument s => "IllegalArgumentException: " ++ s
  | illegalMonitorState => "IllegalMonitorStateException"
  | interrupted => "InterruptedException"
  | outOfMemory s => "OutOfMemoryError: " ++ s
  | classNotFound s | classNotFoundFrom s _ => "ClassNotFoundException: " ++ s
  | noClassDefFound s | noClassDefFoundFrom s _ => "NoClassDefFoundError: " ++ s
  | exceptionInInitializer s _ => "ExceptionInInitializerError: " ++ s
  | invocationTarget _ => "InvocationTargetException"
  | unsatisfiedLink s => "UnsatisfiedLinkError: " ++ s
  | linkage s => "LinkageError: " ++ s
  | classFormat s => "ClassFormatError: " ++ s
  | instantiation s => "InstantiationException: " ++ s
  | abstractMethod s => "AbstractMethodError: " ++ s
  | noSuchMethod s => "NoSuchMethodError: " ++ s
  | internal s => "InternalError: " ++ s
  | thrown _ name => "thrown " ++ name

def cause? : Failure → Option Failure
  | classNotFoundFrom _ f | noClassDefFoundFrom _ f | exceptionInInitializer _ f
  | invocationTarget f => some f
  | _ => none

def causes : Failure → List Failure
  | classNotFoundFrom _ f | noClassDefFoundFrom _ f | exceptionInInitializer _ f
  | invocationTarget f => f :: f.causes
  | _ => []

def objects : Failure → List ObjectId
  | classNotFoundFrom _ f | noClassDefFoundFrom _ f | exceptionInInitializer _ f
  | invocationTarget f => f.objects
  | thrown o _ => [o]
  | _ => []

def isKind (f : Failure) (className : String) : Bool := f.className == className

end Failure
end ManagedRuntime
