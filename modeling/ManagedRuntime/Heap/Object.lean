import ManagedRuntime.Array.Elements
import ManagedRuntime.Class.Basic
import ManagedRuntime.Heap.Accounting
import ManagedRuntime.Monitor.Basic
import ManagedRuntime.Value.Text

/-!
Heap objects: field slots, a payload that depends on the kind of object, and a monitor.
-/
namespace ManagedRuntime

inductive Payload where
  | plain
  | array (elements : Elements)
  | string (contents : String)
  /-- The object that mirrors a class. -/
  | mirror (c : ClassId)
  /-- Methods on the stack at a moment, newest first. -/
  | backtrace (methods : List Method)

namespace Payload

instance : Inhabited Payload := ⟨plain⟩

def bytes : Payload → Nat
  | array e => e.bytes
  | string s => s.utf8ByteSize
  | backtrace ms => ms.length * Accounting.referenceBytes
  | plain | mirror _ => 0

def kindName : Payload → String
  | plain => "plain"
  | array _ => "array"
  | string _ => "string"
  | mirror _ => "mirror"
  | backtrace _ => "backtrace"

def references : Payload → List ObjectId
  | array e => ((e.references?.map Array.toList).getD []).filterMap id
  | _ => []

end Payload

structure Object where
  cls : ClassId
  fields : Array Slot
  payload : Payload
  monitor : Monitor := .unowned
  /-- Has the object not been reclaimed yet? Its contents stay either way. -/
  live : Bool := true

namespace Object

instance : Inhabited Object := ⟨⟨⟨0⟩, #[], .plain, .unowned, true⟩⟩

def bytes (o : Object) : Nat :=
  Accounting.headerBytes + o.fields.size * Accounting.slotBytes + o.payload.bytes

def elements? (o : Object) : Option Elements :=
  match o.payload with
  | .array e => some e
  | _ => none

def length? (o : Object) : Option Nat := o.elements?.map Elements.size

def string? (o : Object) : Option String :=
  match o.payload with
  | .string s => some s
  | _ => none

def mirrored? (o : Object) : Option ClassId :=
  match o.payload with
  | .mirror c => some c
  | _ => none

def backtrace? (o : Object) : Option (List Method) :=
  match o.payload with
  | .backtrace ms => some ms
  | _ => none

def readField (o : Object) (offset : Nat) (type : Option Primitive) : Option Value :=
  Slot.readAt o.fields offset type

def writeField? (o : Object) (offset : Nat) (v : Value) : Option Object :=
  (Slot.write? o.fields offset v).map ({ o with fields := · })

def references (o : Object) : List ObjectId :=
  Slot.objects o.fields ++ o.payload.references

def text (o : Object) (id : ObjectId) (className : String) : String :=
  "Object \x7b class: " ++ Text.quoted className ++ ", kind: " ++ Text.quoted o.payload.kindName
    ++ ", addr: " ++ id.address ++ " \x7d"

end Object

/-- Identity hash: a different number for every object. -/
def ObjectId.hashCode (o : ObjectId) : Int32 := .ofNat o.index

end ManagedRuntime
