import ManagedRuntime.Failure.Basic
import ManagedRuntime.Thread.Basic

/-!
Initialisation phase of a class. One thread takes it from uninitialised to in progress and then to
one of the two final phases; the thread in charge may pass while others wait.
-/
namespace ManagedRuntime

inductive InitPhase where
  | uninitialized
  | inProgress (owner : ThreadId)
  | initialized
  | failed (failure : Failure)
  deriving DecidableEq

inductive InitDecision where
  | proceed
  | available
  | failed (failure : Failure)
  deriving DecidableEq

namespace InitPhase

/-- Request by thread `me`: the answer and the next phase, none while another thread is in
charge. -/
def request? (me : ThreadId) : InitPhase → Option (InitDecision × InitPhase)
  | uninitialized => some (.proceed, inProgress me)
  | inProgress owner => if owner = me then some (.available, inProgress owner) else none
  | initialized => some (.available, initialized)
  | failed f => some (.failed f, failed f)

def finish : Except Failure Unit → InitPhase
  | .ok () => initialized
  | .error f => failed f

def isInitialized : InitPhase → Bool
  | initialized => true
  | _ => false

def failure? : InitPhase → Option Failure
  | failed f => some f
  | _ => none

end InitPhase
end ManagedRuntime
