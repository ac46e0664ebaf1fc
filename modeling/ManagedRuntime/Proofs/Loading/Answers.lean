import ManagedRuntime.Loading.Resolution
import ManagedRuntime.Proofs.Execution.Annotated

/-!
Lookups of classes by name, with a note for every answer that is given, also where the element class
of an array is looked up. Main statement: without its notes a lookup is the runtime's own program.
-/
namespace ManagedRuntime
variable {η : Type}

inductive Source where
  /-- The loader has defined it under this name. -/
  | own
  /-- The loader has been asked, and has named it. -/
  | told
  /-- The bootstrap loader has it, or has just read it. -/
  | read
  /-- It is an array class that the registry has, or has just made. -/
  | made
  deriving DecidableEq

structure Answer where
  name : String
  loader : Reference
  cls : ClassId
  source : Source
  deriving DecidableEq

namespace Noting

def answer (name : String) (loader : Reference) (source : Source) (c : ClassId) :
    Noting η Answer ClassId := do
  note ⟨name, loader, c, source⟩
  return c

def findPlainClass (name : String) (loader : Reference) : Noting η Answer ClassId := do
  match ← ofExec (Exec.act (Atomic.ask (·.registry.find? name loader))) with
  | some c => answer name loader .own c
  | none =>
    match loader with
    | some l =>
      let c ← ofExec (Exec.askLoader l name)
      answer name loader .told c
    | none =>
      match ← ofExec (Exec.findBootClass name) with
      | some c => answer name loader .read c
      | none => throw (.classNotFound name)

def loadElement (name : String) (loader : Reference) : Noting η Answer Unit := do
  match Registry.objectName? (name.toList.drop (Registry.brackets name)) with
  | none => return
  | some element =>
    if element.isEmpty || element.head? = some '[' then throw (.classNotFound name)
    discard (findPlainClass (String.ofList element) loader)

def findClass (name : String) (loader : Reference) : Noting η Answer ClassId := do
  if Registry.isArrayName name then
    loadElement name loader
    match ← ofExec (Exec.act (Atomic.onRegistry (·.arrayClass name loader))) with
    | some c => answer name loader .made c
    | none => throw (.classNotFound name)
  else findPlainClass name loader

theorem plain_findPlainClass (name : String) (loader : Reference) :
    (findPlainClass name loader : Noting η Answer ClassId).plain =
      Exec.findPlainClass name loader := by
  unfold findPlainClass Exec.findPlainClass
  rw [plain_bind, plain_ofExec]
  congr
  funext found
  cases found with
  | some c => rfl
  | none =>
    cases loader with
    | some l =>
      dsimp only
      rw [plain_bind, plain_ofExec]
      exact bind_pure _
    | none =>
      dsimp only
      rw [plain_bind, plain_ofExec]
      congr
      funext found
      cases found <;> rfl

theorem plain_loadElement (name : String) (loader : Reference) :
    (loadElement name loader : Noting η Answer Unit).plain = Exec.loadElement name loader := by
  rw [loadElement, Exec.loadElement]
  cases Registry.objectName? (name.toList.drop (Registry.brackets name)) with
  | none => rfl
  | some element =>
    dsimp only
    split
    · rfl
    · rw [plain_discard, plain_findPlainClass]

theorem plain_findClass (name : String) (loader : Reference) :
    (findClass name loader : Noting η Answer ClassId).plain = Exec.findClass name loader := by
  rw [findClass, Exec.findClass]
  split
  · rw [plain_bind, plain_loadElement]
    congr
    funext _
    rw [plain_bind, plain_ofExec]
    congr
    funext found
    cases found <;> rfl
  · exact plain_findPlainClass name loader

def classForName (name : String) (initialized : Bool) (loader : Reference) :
    Noting η Answer ObjectId := do
  match internalName? name with
  | none => throw (.classNotFound name)
  | some internal =>
    match ← outcome (findClass internal loader) with
    | .ok c =>
      if initialized then ofExec (Exec.initializeClass c)
      ofExec (Exec.act (Atomic.mirror c))
    | .error (.classNotFound n) => throw (.classNotFound n)
    | .error (.classNotFoundFrom n f) => throw (.classNotFoundFrom n f)
    | .error f => throw (.classNotFoundFrom internal f)

theorem plain_classForName (name : String) (initialized : Bool) (loader : Reference) :
    (classForName name initialized loader : Noting η Answer ObjectId).plain =
      Exec.classForName name initialized loader := by
  unfold classForName Exec.classForName
  cases internalName? name with
  | none => rfl
  | some internal =>
    dsimp only
    rw [plain_bind, plain_outcome, plain_findClass]
    congr
    funext found
    cases found with
    | ok c =>
      cases initialized with
      | false => exact plain_ofExec _
      | true =>
        simp only [if_true]
        rw [plain_bind, plain_ofExec]
        congr
    | error f => cases f <;> rfl

end Noting
end ManagedRuntime
