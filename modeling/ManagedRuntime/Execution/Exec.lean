import ManagedRuntime.Execution.Task

/-!
Programs of one thread: they may fail, carry the environment of their thread, and are made of
atomic actions and of code to run. A failure keeps the environment as it is at that point. What a
piece of code makes or takes up it holds until it ends.
-/
namespace ManagedRuntime

abbrev Exec (η : Type) := ExceptT Failure (StateT Env (Task η))

namespace Env

def new (thread : ThreadId) (capacity : Nat) : Env := ⟨thread, [], 0, .empty capacity, none, []⟩

def pushFrame (e : Env) (f : Frame) : Env :=
  { e with frames := f :: e.frames, depth := e.depth + 1 }

/-- The root is no frame and cannot be popped. -/
def popFrame (e : Env) : Env :=
  { e with frames := e.frames.tail, depth := if e.frames.isEmpty then e.depth else e.depth - 1 }

def truncate (e : Env) (n : Nat) : Env := { e with stack := e.stack.truncate n }

/-- Slots of a finished native: from `base` on those of `v`. -/
def replaceFrom (e : Env) (base : Nat) (v : List Slot) : Except Failure Unit × Env :=
  let r := (e.stack.truncate base).pushAll v
  (r.1, { e with stack := r.2 })

def hold (e : Env) (refs : List ObjectId) : Env := { e with held := refs ++ e.held }

def atRest (e : Env) : Env := { e with held := [] }

end Env

namespace Exec
variable {η α : Type}

/-- An action that waits until it can happen. The code that asked for it holds what it makes. -/
def await (f : World η → Option (Except Failure α × World η)) : Exec η α :=
  ExceptT.mk fun env =>
    .act env
      (fun w => (f w).map fun r => ((r.1, r.2.madeSince w.heap.objects.size), r.2))
      fun r => .done (r.1, env.hold r.2)

def act (x : Atomic η α) : Exec η α := await fun w => some (x.runOn w)

def onEnv (f : Env → Except Failure α × Env) : Exec η α := ExceptT.mk fun env => .done (f env)

def awaitThat (p : World η → Bool) : Exec η Unit :=
  await fun w => if p w then some (.ok (), w) else none

def pushSlot (x : Slot) : Exec η Unit := do
  let env ← get
  let stack ← (env.stack.push x : Except Failure OperandStack)
  set { env with stack }

def popSlot : Exec η Slot := do
  let env ← get
  let (x, stack) ← (env.stack.pop : Except Failure _)
  set { env with stack }
  return x

def takePending : Exec η (Option Failure) := do
  let env ← get
  set { env with pending := none }
  return env.pending

def execute (m : Method) (args : List Value) : Exec η (Option Value) :=
  ExceptT.mk fun env => .execute m args env .done

def native (f : NativeFunction) (call : NativeCall) : Exec η Nat :=
  ExceptT.mk fun env => .native f call env .done

def outcome (x : Exec η α) : Exec η (Except Failure α) := ExceptT.mk (Except.ok <$> x.run)

def conclude (r : Except Failure α) : Exec η α := ExceptT.mk (pure r)

/-- Refers to objects until the code under way ends. -/
def hold (refs : List ObjectId) : Exec η Unit := modify (·.hold refs)

/-- Runs a piece of code. When it ends it refers to nothing any more, but its outcome does. -/
def keeping (refs : α → List ObjectId) (x : Exec η α) : Exec η α := do
  let before := (← get).held
  let r ← outcome x
  let kept := match r with
    | .ok a => refs a
    | .error f => f.objects
  modify ({ · with held := kept ++ before })
  conclude r

def releasing (x : Exec η α) : Exec η α := keeping (fun _ => []) x

def runIn (x : Exec η α) (env : Env) : Task η (Except Failure α × Env) := x.run.run env

end Exec
end ManagedRuntime
