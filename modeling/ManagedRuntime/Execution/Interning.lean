import ManagedRuntime.Execution.Exec

/-!
Interned strings: one canonical object for each text. The look-up and the insertion are separate
actions; an insertion that finds the text taken yields the object that was there first.
-/
namespace ManagedRuntime.Exec
variable {η : Type}

def intern (o : ObjectId) : Exec η ObjectId := do
  let s ← act (Atomic.contents o)
  match ← act (Atomic.interned? s) with
  | some e => return e
  | none => act (Atomic.internAs s o)

def internText (s : String) : Exec η ObjectId := do
  match ← act (Atomic.interned? s) with
  | some e => return e
  | none =>
    let o ← act (Atomic.newString s)
    intern o

end ManagedRuntime.Exec
