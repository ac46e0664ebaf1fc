import ManagedRuntime.Execution.Calls
import ManagedRuntime.Execution.Interning

/-!
Natives that look at the stack: callers and their loaders, and backtraces of throwables.
-/
namespace ManagedRuntime
open Exec
variable {η : Type}

def CallerNative.run (n : CallerNative) (call : NativeCall) : Exec η Nat := do
  let frames := (← get).frames
  let walker ← act (Atomic.ask World.walker)
  match n with
  | getClassContext =>
    let array ← act (Atomic.mirrorArray ((walker.context frames).map Method.owner))
    finishRef call (some array)
  | getCallingClass =>
    match walker.callingMethod? frames with
    | none => finishRef call none
    | some m =>
      let o ← act (Atomic.mirror m.owner)
      finishRef call (some o)
  | getCallingClassLoader =>
    match walker.callingMethod? frames with
    | none => finishRef call none
    | some m =>
      let x ← act (Atomic.ask (·.cls m.owner))
      finishRef call x.loader
  | getStack =>
    let methods := frames.methods
    let classes ← act (Atomic.mirrorArray (methods.map Method.owner))
    let names ← methods.mapM fun m => some <$> internText m.name
    let stringClass ← act (Atomic.bootClass "java/lang/String")
    let names ← act (Atomic.referenceArray stringClass names)
    let objectClass ← act (Atomic.bootClass "java/lang/Object")
    let rowClass ← act (Atomic.arrayOf objectClass)
    let pair ← act (Atomic.referenceArray rowClass [some classes, some names])
    finishRef call (some pair)

/-- Number of leading frames that belong to the construction of a throwable of class `c`. -/
def constructionFrames (w : World η) (c : ClassId) (methods : List Method) : Nat :=
  (methods.takeWhile fun m =>
    (m.name == "fillInStackTrace" || m.isConstructor) && w.registry.assignable c m.owner).length

def unknownLine (m : Method) : Int32 := if m.isNative then -2 else -1

def stackTraceElement (c : ClassId) (m : Method) : Exec η ObjectId := do
  let o ← act (Atomic.newInstance c)
  let declaring ← act (Atomic.newString (m.className.map fun c => if c = '/' then '.' else c))
  let name ← act (Atomic.newString m.name)
  act (Atomic.writeNamed o "declaringClass" (.ref (some declaring)))
  act (Atomic.writeNamed o "methodName" (.ref (some name)))
  act (Atomic.writeNamed o "lineNumber" (.int (unknownLine m)))
  act (Atomic.writeNamed o "isNative" (.boolean m.isNative))
  return o

def ThrowableNative.run (n : ThrowableNative) (call : NativeCall) : Exec η Nat := do
  let o ← objectArg call 0
  match n with
  | fillInStackTrace =>
    let below := (← get).frames.methods.drop 1
    let skip ← act (Atomic.ask fun w => constructionFrames w (w.classOf o) below)
    let c ← act (Atomic.bootClass "java/lang/VMThrowable")
    let state ← act (Atomic.newCarrier c (.backtrace (below.drop skip)))
    finishRef call (some state)
  | getStackTrace =>
    let (found, text) ← act (Atomic.ask fun w => ((w.heap.get o).backtrace?, w.textOf o))
    match found with
    | none => throw (.noBacktrace text)
    | some methods =>
      let c ← act (Atomic.bootClass "java/lang/StackTraceElement")
      let elements ← methods.mapM fun m => some <$> stackTraceElement c m
      let array ← act (Atomic.referenceArray c elements)
      finishRef call (some array)

end ManagedRuntime
