import ManagedRuntime.Value.Basic

/-!
Records of managed threads and the table of those that are registered, keyed by the object that
stands for the thread on the runtime's side.
-/
namespace ManagedRuntime

structure ThreadId where
  index : Nat
  deriving DecidableEq, Hashable, Repr

structure ThreadRecord where
  name : String
  object : Reference := none
  interrupted : Bool := false
  alive : Bool := true
  /-- The object in whose wait set the thread is. -/
  waitingOn : Reference := none
  deriving DecidableEq, Repr

instance : Inhabited ThreadRecord := ⟨⟨"", none, false, true, none⟩⟩

/-- Registered threads by their keys, newest first. -/
structure ThreadTable where
  entries : List (ObjectId × ThreadId)
  deriving DecidableEq, Repr

namespace ThreadTable

def empty : ThreadTable := ⟨[]⟩

def get? (t : ThreadTable) (key : ObjectId) : Option ThreadId := t.entries.lookup key

def erase (t : ThreadTable) (key : ObjectId) : ThreadTable :=
  ⟨t.entries.filter (·.1 ≠ key)⟩

def insert (t : ThreadTable) (key : ObjectId) (thread : ThreadId) : ThreadTable :=
  ⟨(key, thread) :: (t.erase key).entries⟩

def size (t : ThreadTable) : Nat := t.entries.length

def isEmpty (t : ThreadTable) : Bool := t.entries.isEmpty

end ThreadTable
end ManagedRuntime
