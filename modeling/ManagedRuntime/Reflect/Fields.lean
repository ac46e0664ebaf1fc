import ManagedRuntime.Loading.Initialization
import ManagedRuntime.Reflect.Boxing

/-!
Reflective access to fields. A field is given by its class and its position there. A static field
needs its class initialised, an instance field a receiver of that class; then the value is read, or
converted and written.
-/
namespace ManagedRuntime.Exec
variable {η : Type}

/-- A field together with the object that holds it, none for static storage. -/
structure FieldPlace where
  cls : ClassId
  field : Field
  holder : Reference

def receiverOf (c : ClassId) (receiver : Reference) : Atomic η ObjectId := do
  match receiver with
  | none => throw .nullReference
  | some o =>
    let w ← get
    if w.registry.assignable (w.classOf o) c then return o else throw .wrongReceiver

def locateField (c : ClassId) (slot : Nat) (receiver : Reference) : Exec η FieldPlace := do
  let x ← act (Atomic.ask (·.cls c))
  match x.field? slot with
  | none => throw (.noFieldSlot x.name slot)
  | some f =>
    if f.isStatic then
      initializeClass c
      return ⟨c, f, none⟩
    else
      let o ← act (receiverOf c receiver)
      return ⟨c, f, some o⟩

def readPlace (p : FieldPlace) : Atomic η Value := do
  let w ← get
  let type := p.field.type.primitive?
  let found :=
    match p.holder with
    | none => w.registry.readStatic p.cls p.field.offset type
    | some o => w.heap.readField o p.field.offset type
  match found with
  | some v => return v
  | none => throw (.unreadableField p.field.name)

def writePlace (p : FieldPlace) (v : Value) : Atomic η Unit := do
  let written ←
    match p.holder with
    | none => Atomic.writeStatic p.cls p.field.offset v
    | some o => Atomic.writeField o p.field.offset v
  unless written do throw (.unwritableField p.field.name)

def getField (c : ClassId) (slot : Nat) (receiver : Reference) : Exec η Reference := do
  let p ← locateField c slot receiver
  let v ← act (readPlace p)
  act (Atomic.box v)

def getPrimitiveField (c : ClassId) (slot : Nat) (receiver : Reference) (want : Primitive) :
    Exec η Value := do
  let p ← locateField c slot receiver
  if p.field.type.isReference then throw .fieldTypeMismatch
  let v ← act (readPlace p)
  match v.widen want with
  | some x => return x
  | none => throw .fieldTypeMismatch

/-- Stores an object, or the value in a box. `given` is the class of the field's type if the caller
has it. -/
def setField (c : ClassId) (slot : Nat) (receiver : Reference) (given : Option ClassId)
    (value : Reference) : Exec η Unit := do
  let p ← locateField c slot receiver
  let loader ← act (Atomic.ask fun w => (w.cls c).loader)
  let v ← act (Atomic.convert value p.field.type given loader .fieldTypeMismatch)
  act (writePlace p v)

def setPrimitiveField (c : ClassId) (slot : Nat) (receiver : Reference) (value : Value) :
    Exec η Unit := do
  let p ← locateField c slot receiver
  match p.field.type.primitive?.bind value.widen with
  | some v => act (writePlace p v)
  | none => throw .fieldTypeMismatch

end ManagedRuntime.Exec
