import ManagedRuntime.Value.Widening
import ManagedRuntime.World.Atomic

/-!
Boxed primitive values, and the conversion of objects to the types of fields and parameters. Only
the wrapper classes of the bootstrap loader box anything.
-/
namespace ManagedRuntime.Atomic
variable {η : Type}

def valueField : String := "value"

/-- The object for a value: primitives are boxed, references stay as they are. -/
def box (v : Value) : Atomic η Reference := do
  match v.primitive? with
  | none => return v.object?
  | some p =>
    let c ← bootClass p.wrapper
    let x ← ask (·.cls c)
    match x.declaredField? valueField with
    | none => throw (.noValueField x.name)
    | some f =>
      let o ← newInstance c
      if ← writeField o f.offset v then return some o
      else throw (.valueNotWritable x.name)

def boxedType? (c : Class) : Option Primitive :=
  if c.loader.isSome then none
  else Primitive.all.find? fun p => p ≠ .void ∧ p.wrapper = c.name

def unbox? (w : World η) (o : ObjectId) : Option Value :=
  let c := w.cls (w.classOf o)
  match boxedType? c, c.declaredField? valueField with
  | some p, some f => w.heap.readField o f.offset (some p)
  | _, _ => none

/-- The class that `name` stands for in code of `loader`. -/
def classInScope (name : String) (loader : Reference) : Atomic η (Option ClassId) :=
  onRegistry fun r =>
    if Registry.isArrayName name then r.arrayClass name loader
    else
      match r.find? name loader with
      | some c => (some c, r)
      | none => r.findBootstrap name

/-- Is an object of the class called `name`? A class given by the caller decides if it has that
name; otherwise the class that the loader sees, or a type of that name above the object's own. -/
def isOfType (o : ObjectId) (name : String) (given : Option ClassId) (loader : Reference) :
    Atomic η Bool := do
  let w ← get
  match given.filter fun c => (w.cls c).name == name with
  | some c => ask fun w => w.registry.assignable (w.classOf o) c
  | none =>
    let seen ← classInScope name loader
    ask fun w =>
      (match seen with
        | some c => w.registry.assignable (w.classOf o) c
        | none => false)
      || w.registry.subtypeNamed (w.classOf o) name

/-- An object as a value of type `target`: unboxed and widened, or a reference of that type. -/
def convert (arg : Reference) (target : FieldType) (given : Option ClassId) (loader : Reference)
    (mismatch : Failure) : Atomic η Value := do
  match target.primitive? with
  | some p =>
    let w ← get
    match (arg.bind (unbox? w)).bind (·.widen p) with
    | some v => return v
    | none => throw mismatch
  | none =>
    match arg with
    | none => return .null
    | some o =>
      if ← isOfType o target.className given loader then return .ref (some o)
      else throw mismatch

end ManagedRuntime.Atomic
