import ManagedRuntime.Loading.Initialization
import ManagedRuntime.Proofs.Execution.Annotated

/-!
Requests for initialised classes, with notes where a request is made, where an initialiser is about
to be called and where the answer is given. A client is a program that has nothing else to do with
the phases of classes. Main statement: without its notes a request is the runtime's own program.
-/
namespace ManagedRuntime
variable {η α β : Type}

inductive InitNote where
  | asks (c : ClassId) (thread : ThreadId)
  | starts (c : ClassId)
  | answers (c : ClassId) (r : Except Failure Unit)

namespace Noting

def answering (c : ClassId) (x : Noting η InitNote Unit) : Noting η InitNote Unit := do
  let r ← x.outcome
  note (.answers c r)
  conclude r

def runInitializer (c : ClassId) : Noting η InitNote Unit := do
  let x ← ofExec (Exec.act (Atomic.ask (·.cls c)))
  match x.initializer? with
  | none => return
  | some m =>
    note (.starts c)
    ofExec (Exec.callInitializer x.name m)

def superclassFirst (ask : ClassId → Noting η InitNote Unit) (c : ClassId) :
    Noting η InitNote Unit := do
  match (← ofExec (Exec.act (Atomic.ask (·.cls c)))).superclass with
  | none => runInitializer c
  | some s =>
    ask s
    runInitializer c

def requestWithin : Nat → ClassId → Noting η InitNote Unit
  | 0, _ => return
  | n + 1, c => answering c do
    match ← ofExec (Exec.requestInit c) with
    | .available => return
    | .failed f =>
      let x ← ofExec (Exec.act (Atomic.ask (·.cls c)))
      throw (.noClassDefFoundFrom x.name f)
    | .proceed =>
      let r ← outcome (superclassFirst (requestWithin n) c)
      ofExec (Exec.act (modify (Exec.setPhase c (.finish r))))
      conclude r

def request (c : ClassId) : Noting η InitNote Unit := do
  let me := (← get).thread
  note (.asks c me)
  requestWithin (c.index + 1) c

theorem plain_answering (c : ClassId) (x : Noting η InitNote Unit) :
    (answering c x).plain = x.plain := by
  rw [answering, plain_bind, plain_outcome]
  exact outcome_bind_conclude x.plain

theorem plain_runInitializer (c : ClassId) :
    (runInitializer c : Noting η InitNote Unit).plain = Exec.runInitializer c := by
  rw [runInitializer, plain_bind, plain_ofExec, Exec.runInitializer]
  congr
  funext x
  cases x.initializer? with
  | none => rfl
  | some m => exact plain_ofExec _

theorem plain_requestWithin (n : Nat) (c : ClassId) :
    (requestWithin n c : Noting η InitNote Unit).plain = Exec.initializeWithin n c := by
  induction n generalizing c with
  | zero => rfl
  | succ n ih =>
    rw [requestWithin, plain_answering, plain_bind, plain_ofExec, Exec.initializeWithin]
    congr
    funext decision
    cases decision with
    | available => rfl
    | failed f =>
      rw [plain_bind, plain_ofExec]
      rfl
    | proceed =>
      simp only [superclassFirst, plain_bind, plain_outcome, plain_ofExec, plain_conclude]
      congr
      funext x
      cases x.superclass with
      | none => exact plain_runInitializer c
      | some s => rw [plain_bind, ih, plain_runInitializer]

theorem plain_request (c : ClassId) :
    (request c : Noting η InitNote Unit).plain = Exec.initializeClass c := by
  funext env
  exact congrFun (plain_requestWithin (c.index + 1) c) env

end Noting
end ManagedRuntime
