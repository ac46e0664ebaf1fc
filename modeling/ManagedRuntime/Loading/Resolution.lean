import ManagedRuntime.Loading.Initialization

/-!
Finding classes by name. A loader is asked through its `loadClass` method for what it has not
defined itself; the bootstrap loader reads class files from its path. Array classes follow their
elements.
-/
namespace ManagedRuntime
variable {η : Type}

/-- The name with dots for slashes, and the other way round. -/
def dotted (name : String) : String := name.map fun c => if c = '/' then '.' else c
def slashed (name : String) : String := name.map fun c => if c = '.' then '/' else c

/-- The internal form of a name as programs give it, none if it cannot name a class. -/
def internalName? (name : String) : Option String :=
  if name.isEmpty || name.toList.contains '/' then none
  else if Registry.isArrayName (slashed name) then
    match FieldType.parse? (slashed name).toList with
    | some (.array _) => some (slashed name)
    | _ => none
  else some (slashed name)

def World.bootClassFile? (w : World η) (name : String) : Option ByteArray :=
  w.options.bootClassPath.findSome? fun dir =>
    w.platform.files.read? (Path.join dir (name ++ ".class"))

namespace Exec

/-- A class of the bootstrap loader, defined from a class file if it has to be. -/
def findBootClass (name : String) : Exec η (Option ClassId) := do
  match ← act (Atomic.findBootstrap name) with
  | some c => return some c
  | none =>
    match ← act (Atomic.ask fun w => if w.parser.isSome then w.bootClassFile? name else none) with
    | none => return none
    | some bytes =>
      let d ← act (Atomic.parseClass (some name) bytes)
      some <$> act (Atomic.defineClass d none)

def askLoader (loader : ObjectId) (name : String) : Exec η ClassId := releasing do
  let text ← act (Atomic.newString (dotted name))
  let answer ← outcome (callVirtual loader "loadClass" "(Ljava/lang/String;)Ljava/lang/Class;"
    [.ref (some text)])
  match answer with
  | .error f => throw (.classNotFoundFrom name f)
  | .ok v =>
    match v.bind Value.object? with
    | some o => act (Atomic.mirroredClass o)
    | none => throw (.classNotFound name)

def findPlainClass (name : String) (loader : Reference) : Exec η ClassId := do
  match ← act (Atomic.ask (·.registry.find? name loader)) with
  | some c => return c
  | none =>
    match loader with
    | some l => askLoader l name
    | none =>
      match ← findBootClass name with
      | some c => return c
      | none => throw (.classNotFound name)

/-- Sees to it that the element class in an array name is loaded, if it is one. -/
def loadElement (name : String) (loader : Reference) : Exec η Unit := do
  match Registry.objectName? (name.toList.drop (Registry.brackets name)) with
  | none => return
  | some element =>
    if element.isEmpty || element.head? = some '[' then throw (.classNotFound name)
    discard (findPlainClass (String.ofList element) loader)

def findClass (name : String) (loader : Reference) : Exec η ClassId := do
  if Registry.isArrayName name then
    loadElement name loader
    match ← act (Atomic.onRegistry (·.arrayClass name loader)) with
    | some c => return c
    | none => throw (.classNotFound name)
  else findPlainClass name loader

/-- The mirror of the class that a program names, initialised if asked for. Whatever goes wrong
while it is looked for is reported as a class that was not found. -/
def classForName (name : String) (initialized : Bool) (loader : Reference) : Exec η ObjectId := do
  match internalName? name with
  | none => throw (.classNotFound name)
  | some internal =>
    match ← outcome (findClass internal loader) with
    | .ok c =>
      if initialized then initializeClass c
      act (Atomic.mirror c)
    | .error (.classNotFound n) => throw (.classNotFound n)
    | .error (.classNotFoundFrom n f) => throw (.classNotFoundFrom n f)
    | .error f => throw (.classNotFoundFrom internal f)

end Exec
end ManagedRuntime
