import ManagedRuntime.World.Atomic

/-!
Tasks: what one thread still has to do. A task is done, acts on the shared state, or asks for a
piece of code to be run in its environment. An action that cannot happen yet blocks its thread.
Code is named here and looked up when it is run, so that code may call back into the runtime.
Main statement: `Task` is a monad.
-/
namespace ManagedRuntime

structure Env where
  thread : ThreadId
  frames : FrameChain
  /-- A count that goes along with the frames. -/
  depth : Nat
  stack : OperandStack
  /-- Failure left by the last native call. -/
  pending : Option Failure
  /-- Objects that code under way refers to by itself. -/
  held : List ObjectId

def Env.references (e : Env) : List ObjectId :=
  Slot.objects e.stack.slots ++ (e.pending.map Failure.objects).getD [] ++ e.held

/-- One activation of a native method: its arguments start at `base` on the operand stack. -/
structure NativeCall where
  method : Method
  base : Nat
  deriving DecidableEq

inductive Task (η α : Type) : Type 1 where
  | done (a : α)
  | act {β : Type} (env : Env) (f : World η → Option (β × World η)) (next : β → Task η α)
  | execute (m : Method) (args : List Value) (env : Env)
      (next : Except Failure (Option Value) × Env → Task η α)
  /-- Runs a native function, whose result is a stack height. -/
  | native (f : NativeFunction) (call : NativeCall) (env : Env)
      (next : Except Failure Nat × Env → Task η α)

namespace Task
variable {η α β γ : Type}

def bind : Task η α → (α → Task η β) → Task η β
  | done a, g => g a
  | act env f next, g => act env f fun b => (next b).bind g
  | execute m args env next, g => execute m args env fun r => (next r).bind g
  | native f call env next, g => native f call env fun r => (next r).bind g

def references : Task η α → List ObjectId
  | done _ => []
  | act env _ _ => env.references
  | execute _ args env _ => Value.objects args ++ env.references
  | native _ _ env _ => env.references

instance : Monad (Task η) where
  pure := done
  bind := bind

theorem bind_done (t : Task η α) : t.bind done = t := by
  induction t with
  | done a => rfl
  | act env f next ih => simp [bind, ih]
  | execute m args env next ih => simp [bind, ih]
  | native f call env next ih => simp [bind, ih]

theorem bind_assoc (t : Task η α) (g : α → Task η β) (k : β → Task η γ) :
    (t.bind g).bind k = t.bind fun a => (g a).bind k := by
  induction t with
  | done a => rfl
  | act env f next ih => simp [bind, ih]
  | execute m args env next ih => simp [bind, ih]
  | native f call env next ih => simp [bind, ih]

instance : LawfulMonad (Task η) :=
  LawfulMonad.mk' (Task η)
    (fun t => bind_done t)
    (fun _ _ => rfl)
    (fun t g k => bind_assoc t g k)

end Task
end ManagedRuntime
