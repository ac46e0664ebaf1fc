import ManagedRuntime.World.Basic

/-!
Atomic actions: changes of the shared state that no other thread can see half done.
-/
namespace ManagedRuntime

abbrev Atomic (η : Type) := ExceptT Failure (StateM (World η))

namespace Atomic
variable {η : Type}

def ofFunction {α : Type} (f : World η → Except Failure α × World η) : Atomic η α :=
  ExceptT.mk fun w => f w

def runOn {α : Type} (x : Atomic η α) (w : World η) : Except Failure α × World η := x.run.run w

def ask {α : Type} (f : World η → α) : Atomic η α := do return f (← get)

def onRegistry {α : Type} (f : Registry → α × Registry) : Atomic η α :=
  modifyGet fun w => let r := f w.registry; (r.1, { w with registry := r.2 })

def onHeap {α : Type} (f : Registry → Heap → Except Failure α × Heap) : Atomic η α :=
  ofFunction fun w => let r := f w.registry w.heap; (r.1, { w with heap := r.2 })

def allocate (o : Object) : Atomic η ObjectId :=
  ofFunction fun w =>
    let w := w.makeRoom o.bytes
    let r := w.heap.allocate o
    (r.1, { w with heap := r.2 })

/-! Classes. -/

def findBootstrap (name : String) : Atomic η (Option ClassId) :=
  onRegistry (·.findBootstrap name)

def bootClass (name : String) : Atomic η ClassId := do
  match ← findBootstrap name with
  | some c => return c
  | none => throw (.missingBootClass name)

def arrayOf (c : ClassId) : Atomic η ClassId := onRegistry (·.arrayOf c)

/-- Binds every native method of `c` for which one function applies. -/
def bindNatives (c : ClassId) : Atomic η Unit :=
  modify fun w =>
    let found := (w.cls c).methods.filterMap fun m =>
      match m.isNative, w.natives.lookup m.className m.name m.descriptor with
      | true, .found f => some (m.slot, f)
      | _, _ => none
    { w with registry := w.registry.modifyState c ({ · with bound := found }) }

/-- Defines a class for `loader` and binds none of its natives. -/
def addClass (d : ClassDef) (loader : Reference) : Atomic η ClassId :=
  ofFunction fun w =>
    let r := w.registry.define d loader
    (r.1, { w with registry := r.2 })

/-- Defines a class for `loader` and binds its natives; those without a function stay unbound. -/
def defineClass (d : ClassDef) (loader : Reference) : Atomic η ClassId := do
  let c ← addClass d loader
  bindNatives c
  return c

/-- The function bound to a native method, bound now if it was not. -/
def link (m : Method) : Atomic η NativeFunction := do
  let w ← get
  match (w.registry.state m.owner).boundTo? m.slot with
  | some f => return f
  | none =>
    match w.natives.lookup m.className m.name m.descriptor with
    | .found f =>
      set { w with
        registry := w.registry.modifyState m.owner fun s =>
          { s with bound := (m.slot, f) :: s.bound } }
      return f
    | .missing => throw (.unbound m.text)
    | .ambiguous n => throw (.ambiguousNative m.text n)

/-! Objects. -/

def newInstance (c : ClassId) : Atomic η ObjectId := do
  allocate (← Heap.newInstance (← get).registry c)

/-- Allocates a zeroed array. The elements of one that can never fit are not made at all. -/
def newArray (c : ClassId) (length : Int32) : Atomic η ObjectId := do
  let w ← get
  let kind ← Heap.elementKind w.registry c length
  let bytes := Accounting.headerBytes + length.toNatClampNeg * kind.width
  let a := w.heap.accounting
  if a.admits bytes then allocate (Heap.newArrayOf c (.zeroed kind length.toNatClampNeg))
  else throw (.heapExhausted bytes a.liveBytes a.maxBytes)

def newArrayOf (c : ClassId) (elements : Elements) : Atomic η ObjectId :=
  allocate (Heap.newArrayOf c elements)

def newCarrier (c : ClassId) (payload : Payload) : Atomic η ObjectId := do
  allocate (Heap.newCarrier (← get).registry c payload)

def newString (s : String) : Atomic η ObjectId := do
  newCarrier (← bootClass "java/lang/String") (.string s)

def copyObject (o : ObjectId) : Atomic η ObjectId := do
  allocate ((← get).heap.copyOf o)

def mirror (c : ClassId) : Atomic η ObjectId := do
  match ((← get).registry.state c).mirror with
  | some o => return o
  | none =>
    let o ← newCarrier (← bootClass "java/lang/Class") (.mirror c)
    modify fun w => { w with registry := w.registry.modifyState c ({ · with mirror := some o }) }
    return o

def mirroredClass (o : ObjectId) : Atomic η ClassId := do
  let w ← get
  match (w.heap.get o).mirrored? with
  | some c => return c
  | none => throw (.notAMirror (w.textOf o))

def contents (o : ObjectId) : Atomic η String := do
  let w ← get
  match (w.heap.get o).string? with
  | some s => return s
  | none => throw (.notAString (w.textOf o))

def referenceArray (component : ClassId) (refs : List Reference) : Atomic η ObjectId := do
  newArrayOf (← arrayOf component) (.references refs)

def mirrorArray (cs : List ClassId) : Atomic η ObjectId := do
  let mirrors ← cs.mapM fun c => some <$> mirror c
  referenceArray (← bootClass "java/lang/Class") mirrors

/-! Fields and elements. -/

def fieldOffset (c : ClassId) (name : String) : Atomic η Nat := do
  let w ← get
  match w.registry.instanceFieldOffset? c name with
  | some n => return n
  | none => throw (.noField (w.cls c).name name)

def readNamed (o : ObjectId) (name : String) (type : Option Primitive) : Atomic η Value := do
  let w ← get
  let offset ← fieldOffset (w.classOf o) name
  match w.heap.readField o offset type with
  | some v => return v
  | none => throw (.unreadableField (w.classNameOf o ++ "." ++ name))

/-- Writes the slots of a field if they lie in the object, and says whether they do. -/
def writeField (o : ObjectId) (offset : Nat) (v : Value) : Atomic η Bool := do
  let w ← get
  match w.heap.writeField? o offset v with
  | some heap => set { w with heap }; return true
  | none => return false

def writeStatic (c : ClassId) (offset : Nat) (v : Value) : Atomic η Bool := do
  let w ← get
  match w.registry.writeStatic? c offset v with
  | some registry => set { w with registry }; return true
  | none => return false

/-- Stores an array element if it is one, and says whether it is; none if `o` is no array. -/
def storeElement (o : ObjectId) (index : Nat) (v : Value) : Atomic η (Option Bool) := do
  let w ← get
  match (w.heap.get o).elements? with
  | none => return none
  | some e =>
    match e.set? index v with
    | none => return some false
    | some e => set { w with heap := w.heap.setElements o e }; return some true

def writeNamed (o : ObjectId) (name : String) (v : Value) : Atomic η Unit := do
  let w ← get
  let offset ← fieldOffset (w.classOf o) name
  unless ← writeField o offset v do
    throw (.unwritableField (w.classNameOf o ++ "." ++ name))

/-! Interned strings. -/

def interned? (s : String) : Atomic η (Option ObjectId) := ask (·.interned.lookup s)

/-- The object interned for `s`, which becomes `o` if there is none. -/
def internAs (s : String) (o : ObjectId) : Atomic η ObjectId := do
  match ← interned? s with
  | some e => return e
  | none =>
    modify fun w => { w with interned := (s, o) :: w.interned }
    return o

/-! The embedding program. -/

def parseClass (name : Option String) (bytes : ByteArray) : Atomic η ClassDef :=
  ofFunction fun w =>
    match w.parser with
    | none => (.error .noParser, w)
    | some parse =>
      let r := parse name bytes w.outside
      (r.1, { w with outside := r.2 })

def hostExit (status : Int32) : Atomic η Unit :=
  modify fun w => { w with outside := w.host.exit status w.outside }

def hostLoad (path : String) : Atomic η Bool :=
  modifyGet fun w =>
    let r := w.host.loadLibrary path w.outside
    (r.1, { w with outside := r.2 })

end Atomic
end ManagedRuntime
