import ManagedRuntime.Reflect.Fields

/-!
Reflective calls. Arguments come as an array of objects and are converted to the parameter types
before anything runs. What the called code raises comes back as the cause of another failure.
-/
namespace ManagedRuntime.Exec
variable {η : Type}

def methodAt (c : ClassId) (slot : Nat) : Atomic η Method := do
  let x ← Atomic.ask (·.cls c)
  match x.method? slot with
  | some m => return m
  | none => throw (.noMethodSlot x.name slot)

/-- The references in an argument array; no array is no arguments. -/
def argumentRefs (args : Reference) : Atomic η (List Reference) := do
  match args with
  | none => return []
  | some o =>
    let w ← get
    match (w.heap.get o).elements?.bind Elements.references? with
    | some refs => return refs.toList
    | none => throw .argumentsNotAnArray

def convertArguments (m : Method) (loader : Reference) (args : Reference) :
    Atomic η (List Value) := do
  let refs ← argumentRefs args
  if refs.length ≠ m.type.params.length then throw .argumentCountMismatch
  (refs.zip m.type.params).mapM fun a =>
    Atomic.convert a.1 a.2 none loader .argumentTypeMismatch

/-- A call whose failure becomes the cause of another. -/
def callTarget (m : Method) (args : List Value) : Exec η (Option Value) := do
  match ← outcome (callMethod m args) with
  | .ok v => return v
  | .error f => throw (.invocationTarget f)

/-- The method to run and the receiver to pass, for a reflective call of `m`. -/
def invocationTarget (c : ClassId) (m : Method) (receiver : Reference) :
    Exec η (Method × List Value) := do
  if m.isStatic then
    initializeClass c
    return (m, [])
  else
    let o ← act (receiverOf c receiver)
    let target ← act do
      let w ← get
      w.registry.virtualTarget (w.classOf o) m
    return (target, [.ref (some o)])

/-- Calls the method at a position of `c` and boxes the result; a void method gives null. The
arguments are held until then. -/
def invokeMember (c : ClassId) (slot : Nat) (receiver args : Reference) : Exec η Reference := do
  let m ← act (methodAt c slot)
  let (target, this) ← invocationTarget c m receiver
  let loader ← act (Atomic.ask fun w => (w.cls c).loader)
  let values ← act (convertArguments target loader args)
  let all := this ++ values
  hold (Value.objects all)
  match ← callTarget target all with
  | none => return none
  | some v => act (Atomic.box v)

/-- Makes an instance of `c` and calls the method at a position of `c` on it. -/
def construct (c : ClassId) (slot : Nat) (args : Reference) : Exec η ObjectId := do
  let m ← act (methodAt c slot)
  let x ← act (Atomic.ask (·.cls c))
  if x.isInterface || x.isAbstract then throw (.instantiation x.dottedName)
  let values ← act (convertArguments m x.loader args)
  hold (Value.objects values)
  initializeClass c
  let o ← act (Atomic.newInstance c)
  releasing (discard (callTarget m (.ref (some o) :: values)))
  return o

end ManagedRuntime.Exec
