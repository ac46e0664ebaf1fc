import ManagedRuntime.Class.Hierarchy
import ManagedRuntime.Heap.Object

/-!
The heap: objects in the order of their allocation, and the accounting of those that are live. An
object keeps its identity and its class for ever. Allocation fails only for lack of memory, and
then changes nothing.
-/
namespace ManagedRuntime

structure Heap where
  objects : Array Object
  accounting : Accounting

namespace Heap

def empty (maxBytes initialBytes : Nat) : Heap := ⟨#[], { maxBytes, initialBytes }⟩

variable (h : Heap)

def get (o : ObjectId) : Object := h.objects[o.index]?.getD default

def classOf (o : ObjectId) : ClassId := (h.get o).cls

def modify (o : ObjectId) (f : Object → Object) : Heap :=
  { h with objects := h.objects.modify o.index f }

def allocate (o : Object) : Except Failure ObjectId × Heap :=
  match h.accounting.reserve o.bytes with
  | .error f => (.error f, h)
  | .ok accounting => (.ok ⟨h.objects.size⟩, ⟨h.objects.push o, accounting⟩)

/-- The object that an allocation would add, before memory is asked for. -/
def newInstance (r : Registry) (c : ClassId) : Except Failure Object :=
  let x := r.cls c
  if x.isArray || x.isPrimitive then .error (.notInstanceClass x.name)
  else .ok { cls := c, fields := x.template.toArray, payload := .plain }

/-- Kind of the elements of a zeroed array of class `c`, if one of that length can be made. -/
def elementKind (r : Registry) (c : ClassId) (length : Int32) : Except Failure ElementKind :=
  if length < 0 then .error (.negativeArraySize length)
  else
    match (r.cls c).component? with
    | none => .error (.notArrayClass (r.cls c).name)
    | some e => .ok (.ofPrimitive (r.cls e).primitive?)

def newArrayOf (c : ClassId) (elements : Elements) : Object :=
  { cls := c, fields := #[], payload := .array elements }

def newArray (r : Registry) (c : ClassId) (length : Int32) : Except Failure Object :=
  (elementKind r c length).map fun k => newArrayOf c (.zeroed k length.toNatClampNeg)

/-- An instance of class `c` with a payload of its own. -/
def newCarrier (r : Registry) (c : ClassId) (payload : Payload) : Object :=
  { cls := c, fields := (r.cls c).template.toArray, payload }

/-- A shallow copy of an object: the same contents, and nobody owns or awaits it. -/
def copyOf (o : ObjectId) : Object :=
  { h.get o with monitor := .unowned, live := true }

def allocateResult (o : Except Failure Object) : Except Failure ObjectId × Heap :=
  match o with
  | .error f => (.error f, h)
  | .ok o => h.allocate o

def readField (o : ObjectId) (offset : Nat) (type : Option Primitive) : Option Value :=
  (h.get o).readField offset type

def writeField? (o : ObjectId) (offset : Nat) (v : Value) : Option Heap :=
  ((h.get o).writeField? offset v).map fun x => h.modify o fun _ => x

def setElements (o : ObjectId) (e : Elements) : Heap :=
  h.modify o ({ · with payload := .array e })

def text (r : Registry) (o : ObjectId) : String :=
  (h.get o).text o (r.cls (h.classOf o)).name

end Heap
end ManagedRuntime
