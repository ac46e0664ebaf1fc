import ManagedRuntime.Execution.Exec

/-!
Calls. A native finds its arguments on the operand stack from `base` on and leaves its result
there in their place, or fails. Whoever calls through `callMethod` gets the operand stack back as
it was and passes arguments and results as values.
-/
namespace ManagedRuntime.Exec
variable {η : Type}

/-- Runs `x` and pops the newest frame, whatever came of it. -/
def thenPop {α : Type} (x : Exec η α) : Exec η α := do
  let r ← outcome x
  modify Env.popFrame
  conclude r

def onFrame {α : Type} (f : Frame) (x : Exec η α) : Exec η α := do
  modify (·.pushFrame f)
  thenPop x

/-- Drops the slots from `base` on if `x` fails. -/
def truncatingTo {α : Type} (base : Nat) (x : Exec η α) : Exec η α := do
  match ← outcome x with
  | .ok a => return a
  | .error f =>
    modify (·.truncate base)
    throw f

/-- Runs the function bound to `m` on arguments from `base` on and checks the height it leaves. -/
def runBound (m : Method) (base : Nat) : Exec η Nat := do
  let f ← act (Atomic.link m)
  let top ← onFrame (.real m) (releasing (native f ⟨m, base⟩))
  let expected := base + m.layout.resultSlots
  if top = expected ∧ (← get).stack.size = top then return top
  else throw (.wrongStackTop m.text top expected)

def dispatch (m : Method) : Exec η Nat := do
  let height := (← get).stack.size
  if height < m.layout.argSlots then throw (.underflowCalling m.text)
  let base := height - m.layout.argSlots
  truncatingTo base (runBound m base)

/-- Calls native `m` on the arguments at the top of the stack. A failure is both raised and left
pending. -/
def invokeNative (m : Method) : Exec η Nat := do
  match ← outcome (dispatch m) with
  | .ok top => return top
  | .error f =>
    modify ({ · with pending := some f })
    throw f

def takeResult (m : Method) (base : Nat) : Exec η (Option Value) := do
  match m.type.result with
  | none =>
    modify (·.truncate base)
    return none
  | some t =>
    match (← get).stack.read base t.primitive? with
    | none => throw (.noResult m.text)
    | some v =>
      modify (·.truncate base)
      return some v

def pushArguments (slots : List Slot) : Exec η Unit := do
  let env ← get
  conclude (env.stack.ensure slots.length)
  onEnv fun e =>
    let r := e.stack.pushAll slots
    match r.1 with
    | .ok () => (.ok (), { e with stack := r.2 })
    | .error f => (.error f, e)

def callOnStack (m : Method) (args : List Value) : Exec η (Option Value) := do
  let base := (← get).stack.size
  let slots := args.flatMap Value.slots
  if slots.length ≠ m.layout.argSlots then throw (.wrongArgumentSlots m.text slots.length)
  pushArguments slots
  match ← outcome (invokeNative m) with
  | .ok _ => takeResult m base
  | .error f =>
    modify fun e => { e.truncate base with pending := none }
    throw f

/-- Calls a method with its arguments as values, the receiver first. They are held while it runs. -/
def callMethod (m : Method) (args : List Value) : Exec η (Option Value) := do
  if m.isAbstract then throw (.abstractMethod m.text)
  if args.length ≠ m.arity then throw (.wrongArgumentCount m.text args.length)
  keeping (fun v => Value.objects v.toList) do
    hold (Value.objects args)
    onFrame .boundary
      (if m.isNative then callOnStack m args else onFrame (.real m) (execute m args))

def callVirtual (receiver : ObjectId) (name descriptor : String) (args : List Value) :
    Exec η (Option Value) := do
  let (found, className) ← act (Atomic.ask fun w =>
    (w.registry.lookupMethod? (w.classOf receiver) name descriptor, w.classNameOf receiver))
  match found with
  | none => throw (.noSuchMethod (className ++ "." ++ name ++ descriptor))
  | some m => callMethod m (.ref (some receiver) :: args)

/-! Arguments and results of a running native. -/

/-- Argument `index`, the receiver of an instance method being 0. The native holds what it read,
whatever becomes of the stack. -/
def arg (call : NativeCall) (index : Nat) : Exec η Value := do
  match call.method.layout.params[index]? with
  | none => throw (.noSuchArgument call.method.text index)
  | some p =>
    let stack := (← get).stack
    match stack.read (call.base + p.offset) p.type with
    | some v =>
      hold (Value.objects [v])
      return v
    | none =>
      let shape := ((stack.get? (call.base + p.offset)).map Slot.tag).getD "missing"
      throw (.argumentShape call.method.text index shape)

def unexpected {α : Type} (call : NativeCall) (index : Nat) (expected : String) (found : Value) :
    Exec η α := do
  let text ← act (Atomic.ask fun w => found.text w.classNameOf)
  throw (.argumentKind call.method.text index expected text)

def intArg (call : NativeCall) (index : Nat) : Exec η Int32 := do
  match ← arg call index with
  | .int v => return v
  | .short v => return v.toInt32
  | .byte v => return v.toInt32
  | .char v => return v.toUInt32.toInt32
  | .boolean v => return if v then 1 else 0
  | v => unexpected call index "int" v

def slotArg (call : NativeCall) (index : Nat) : Exec η Nat := do
  let n ← intArg call index
  if n < 0 then throw (.badMemberSlot call.method.text n.toInt)
  return n.toNatClampNeg

def booleanArg (call : NativeCall) (index : Nat) : Exec η Bool := do
  return (← intArg call index) != 0

def charArg (call : NativeCall) (index : Nat) : Exec η UInt16 := do
  return (← intArg call index).toUInt32.toUInt16

def longArg (call : NativeCall) (index : Nat) : Exec η Int64 := do
  match ← arg call index with
  | .long v => return v
  | v => unexpected call index "long" v

def referenceArg (call : NativeCall) (index : Nat) : Exec η Reference := do
  match ← arg call index with
  | .ref r => return r
  | v => unexpected call index "reference" v

def objectArg (call : NativeCall) (index : Nat) : Exec η ObjectId := do
  match ← referenceArg call index with
  | some o => return o
  | none => throw .nullReference

/-- The class that a mirror argument stands for. The mirror itself is not held. -/
def classArg (call : NativeCall) (index : Nat) : Exec η ClassId := releasing do
  let o ← objectArg call index
  act (Atomic.mirroredClass o)

/-- Contents of a string argument. The string itself is not held. -/
def stringArg (call : NativeCall) (index : Nat) : Exec η String := releasing do
  let o ← objectArg call index
  act (Atomic.contents o)

/-- Ends a native: its arguments make place for the result. The height is returned. -/
def finish (call : NativeCall) (result : Option Value) : Exec η Nat := do
  onEnv (·.replaceFrom call.base ((result.map Value.slots).getD []))
  return (← get).stack.size

def finishVoid (call : NativeCall) : Exec η Nat := finish call none
def finishBoolean (call : NativeCall) (b : Bool) : Exec η Nat := finish call (some (.boolean b))
def finishInt (call : NativeCall) (n : Int32) : Exec η Nat := finish call (some (.int n))
def finishLong (call : NativeCall) (n : Int64) : Exec η Nat := finish call (some (.long n))
def finishRef (call : NativeCall) (r : Reference) : Exec η Nat := finish call (some (.ref r))

end ManagedRuntime.Exec
