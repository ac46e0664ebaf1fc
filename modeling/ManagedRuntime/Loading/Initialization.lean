import ManagedRuntime.Execution.Calls

/-!
Initialisation of classes, superclasses first. The first thread that asks runs the initialiser and
the others wait for it. A failure is recorded and shown to everyone who asks later.
-/
namespace ManagedRuntime.Exec
variable {η : Type}

/-- Is a failure an error in the managed sense, which is not wrapped? -/
def isError (w : World η) : Failure → Bool
  | .thrown o _ =>
    (w.registry.superChain (w.classOf o)).any fun c => (w.cls c).name == "java/lang/Error"
  | f => f.className.endsWith "Error"

def setPhase (c : ClassId) (p : InitPhase) (w : World η) : World η :=
  { w with registry := w.registry.modifyState c ({ · with phase := p }) }

/-- Asks for class `c` to be initialised, and waits while another thread is at it. -/
def requestInit (c : ClassId) : Exec η InitDecision := do
  let me := (← get).thread
  await fun w =>
    ((w.registry.state c).phase.request? me).map fun r => (.ok r.1, setPhase c r.2 w)

/-- Runs the initialiser `m` of the class called `name` and drops what it returns. A failure that is
no error is wrapped. -/
def callInitializer (name : String) (m : Method) : Exec η Unit := do
  match ← outcome (releasing (discard (callMethod m []))) with
  | .ok () => return
  | .error f =>
    if ← act (Atomic.ask (isError · f)) then throw f
    else throw (.exceptionInInitializer name f)

def runInitializer (c : ClassId) : Exec η Unit := do
  let x ← act (Atomic.ask (·.cls c))
  match x.initializer? with
  | none => return
  | some m => callInitializer x.name m

/-- Initialises `c` and the superclasses that need it; a superclass has a smaller number. -/
def initializeWithin : Nat → ClassId → Exec η Unit
  | 0, _ => return
  | n + 1, c => do
    match ← requestInit c with
    | .available => return
    | .failed f =>
      let x ← act (Atomic.ask (·.cls c))
      throw (.noClassDefFoundFrom x.name f)
    | .proceed =>
      let r ← outcome do
        match (← act (Atomic.ask (·.cls c))).superclass with
        | none => runInitializer c
        | some s =>
          initializeWithin n s
          runInitializer c
      act (modify (setPhase c (.finish r)))
      conclude r

def initializeClass (c : ClassId) : Exec η Unit := initializeWithin (c.index + 1) c

end ManagedRuntime.Exec
