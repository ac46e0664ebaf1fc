import ManagedRuntime.Execution.Machine
import ManagedRuntime.Natives.Callers
import ManagedRuntime.Natives.Classes
import ManagedRuntime.Natives.Host
import ManagedRuntime.Natives.Members
import ManagedRuntime.Natives.Threads

/-!
The function behind every native that the runtime provides.
-/
namespace ManagedRuntime
variable {η : Type}

def CoreNative.run (n : CoreNative) (call : NativeCall) : Exec η Nat :=
  match n with
  | object n => n.run call
  | system n => n.run call
  | runtime n => n.run call
  | cls n => n.run call
  | intern => internNative call
  | thread n => n.run call
  | throwable n => n.run call
  | loader n => n.run call
  | member n => n.run call
  | properties n => n.run call
  | caller n => n.run call

/-- The code of a runtime whose embedding program interprets methods and numbers natives. -/
def Code.withCore (execute : Method → List Value → Exec η (Option Value))
    (embedded : Nat → NativeCall → Exec η Nat) : Code η where
  execute := execute
  native f call :=
    match f with
    | .core n => n.run call
    | .embedded i => embedded i call

end ManagedRuntime
