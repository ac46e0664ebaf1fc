import ManagedRuntime.Stack.Frames

/-!
Questions about callers. Frames of reflection machinery, boundaries and methods of the trampoline
classes, do not count as callers. The newest frame is that of the native that asks.
-/
namespace ManagedRuntime

/-- Names of the classes whose frames are skipped. -/
structure StackWalker where
  trampolines : List String
  deriving DecidableEq, Repr

namespace StackWalker

def standard : StackWalker := ⟨["java/lang/reflect/Method", "java/lang/reflect/Constructor"]⟩

variable (w : StackWalker)

def isTrampoline (m : Method) : Bool := w.trampolines.contains m.className

/-- Drops boundaries and trampoline frames until a method that counts. -/
def dropMachinery : FrameChain → FrameChain
  | [] => []
  | .boundary :: fs => dropMachinery fs
  | .real m :: fs => if w.isTrampoline m then dropMachinery fs else .real m :: fs

/-- The frames from the first that counts below the newest one. -/
def realCaller (frames : FrameChain) : FrameChain := w.dropMachinery frames.tail

def callerMethod? (frames : FrameChain) : Option Method :=
  (w.realCaller frames).head?.bind Frame.method?

/-- The frames from that of the method which called the native at the top, which may lie behind one
boundary. -/
def asking : FrameChain → FrameChain
  | _ :: .boundary :: .real m :: fs => .real m :: fs
  | _ :: .real m :: fs => .real m :: fs
  | _ => []

def callingMethod? (frames : FrameChain) : Option Method :=
  match asking frames with
  | [] => none
  | fs => w.callerMethod? fs

/-- The methods from the real caller down to the root, machinery included. -/
def context (frames : FrameChain) : List Method := (w.realCaller frames).methods

end StackWalker
end ManagedRuntime
