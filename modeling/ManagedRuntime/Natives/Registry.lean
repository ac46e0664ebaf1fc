import ManagedRuntime.Natives.Core

/-!
Registry of native functions. An entry applies to one method name of one class, with a descriptor
only to the method that has it. Lookup prefers an entry with the method's descriptor and otherwise
needs exactly one entry without any.
-/
namespace ManagedRuntime

structure NativeEntry where
  className : String
  name : String
  descriptor : Option String
  function : NativeFunction
  deriving DecidableEq, Repr

inductive NativeLookup where
  | found (f : NativeFunction)
  | missing
  | ambiguous (candidates : Nat)
  deriving DecidableEq, Repr

structure NativeRegistry where
  entries : List NativeEntry
  deriving DecidableEq, Repr

namespace NativeRegistry

def empty : NativeRegistry := ⟨[]⟩

def register (r : NativeRegistry) (e : NativeEntry) : NativeRegistry := ⟨r.entries ++ [e]⟩

/-- The registry of the runtime's own natives, all matched by name. -/
def bootstrap : NativeRegistry :=
  ⟨CoreNative.groups.flatMap fun g => g.2.map fun n => ⟨g.1, n.1, none, .core n.2⟩⟩

def candidates (r : NativeRegistry) (className name : String) : List NativeEntry :=
  r.entries.filter fun e => e.className == className && e.name == name

def lookup (r : NativeRegistry) (className name descriptor : String) : NativeLookup :=
  let named := r.candidates className name
  match named.find? (·.descriptor == some descriptor) with
  | some e => .found e.function
  | none =>
    match named.filter (·.descriptor.isNone) with
    | [] => .missing
    | [e] => .found e.function
    | es => .ambiguous es.length

def hasClass (r : NativeRegistry) (className : String) : Bool :=
  r.entries.any (·.className == className)

def size (r : NativeRegistry) : Nat := r.entries.length

def isEmpty (r : NativeRegistry) : Bool := r.entries.isEmpty

end NativeRegistry
end ManagedRuntime
