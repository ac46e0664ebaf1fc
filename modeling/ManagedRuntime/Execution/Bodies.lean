import ManagedRuntime.Execution.Exec

/-!
Method bodies by class, name and descriptor, for embedding programs that bring their own code. A
method without a body cannot be run.
-/
namespace ManagedRuntime

structure BodyKey where
  className : String
  name : String
  descriptor : String
  deriving DecidableEq, Repr

structure Bodies (β : Type) where
  entries : List (BodyKey × β)

namespace Bodies
variable {η β : Type}

def empty : Bodies β := ⟨[]⟩

def insert (b : Bodies β) (key : BodyKey) (body : β) : Bodies β :=
  ⟨(key, body) :: b.entries.filter (·.1 ≠ key)⟩

def size (b : Bodies β) : Nat := b.entries.length

def get? (b : Bodies β) (m : Method) : Option β :=
  b.entries.lookup ⟨m.className, m.name, m.descriptor⟩

def execute (b : Bodies β) (run : β → Method → List Value → Exec η (Option Value)) (m : Method)
    (args : List Value) : Exec η (Option Value) :=
  match b.get? m with
  | some body => run body m args
  | none => throw (.noCode m.text)

end Bodies
end ManagedRuntime
