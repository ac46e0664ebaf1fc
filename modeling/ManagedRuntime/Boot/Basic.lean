import ManagedRuntime.Class.Universe
import ManagedRuntime.World.Atomic

/-!
Starting a runtime: the classes it depends on are defined and all their natives bound, the
invariants that the rest relies on are checked, and then the classes of the embedding program are
defined.
-/
namespace ManagedRuntime

inductive BootError where
  | badClass (name : String) (source : Failure)
  | missingClass (name : String)
  | missingField (className name descriptor : String)
  | missingNative (className name descriptor : String)
  | ambiguousNative (className name : String) (candidates : Nat)
  deriving DecidableEq

def BootError.message : BootError → String
  | badClass name f => "bootstrap class " ++ name ++ " could not be defined: " ++ f.message
  | missingClass name => "missing bootstrap class " ++ name
  | missingField c name descriptor =>
    "missing bootstrap field " ++ c ++ "." ++ name ++ " " ++ descriptor
  | missingNative c name descriptor =>
    "no native implementation for " ++ c ++ "." ++ name ++ descriptor
  | ambiguousNative c name n =>
    "ambiguous native " ++ c ++ "." ++ name ++ ": " ++ toString n ++ " candidates"

def BootError.label : BootError → String
  | badClass .. => "Class"
  | missingClass _ => "MissingClass"
  | missingField .. => "MissingField"
  | missingNative .. => "MissingNative"
  | ambiguousNative .. => "AmbiguousNative"

def BootError.cause? : BootError → Option Failure
  | badClass _ f => some f
  | _ => none

structure Embedding (η : Type) where
  options : Options
  platform : Platform
  host : Host η
  parser : Option (ClassFileParser η)
  /-- More classes; one named like a class of the runtime stands in its place. -/
  classes : List ClassDef
  natives : NativeRegistry
  outside : η

def Embedding.silent : Embedding Unit where
  options := {}
  platform := ⟨"", "", "", "", "/", .empty⟩
  host := ⟨fun _ => id, fun _ _ => (false, ()), fun _ => []⟩
  parser := none
  classes := []
  natives := .empty
  outside := ()

namespace Boot

/-- The runtime's classes with the replacements put in, and the definitions left over. -/
def replaceCore : List ClassDef → List ClassDef → List ClassDef × List ClassDef
  | [], extra => ([], extra)
  | d :: ds, extra =>
    match extra.find? (·.name == d.name) with
    | none => let r := replaceCore ds extra; (d :: r.1, r.2)
    | some e => let r := replaceCore ds (extra.eraseP (·.name == d.name)); (e :: r.1, r.2)

/-- The functions of all native methods of a class, each of which must have exactly one. -/
def bindAll (natives : NativeRegistry) (className : String) :
    List Method → Except BootError (List (Nat × NativeFunction))
  | [] => .ok []
  | m :: ms =>
    if m.isNative then
      match natives.lookup className m.name m.descriptor with
      | .found f => (bindAll natives className ms).map ((m.slot, f) :: ·)
      | .missing => .error (.missingNative className m.name m.descriptor)
      | .ambiguous n => .error (.ambiguousNative className m.name n)
    else bindAll natives className ms

def defineCore (natives : NativeRegistry) : List ClassDef → Registry → Except BootError Registry
  | [], r => .ok r
  | d :: ds, r =>
    match r.define d none with
    | (.error f, _) => .error (.badClass d.name f)
    | (.ok c, r) =>
      match bindAll natives (r.cls c).name (r.cls c).methods with
      | .error e => .error e
      | .ok bound => defineCore natives ds (r.modifyState c ({ · with bound }))

def domainField : String := "pd"
def domainDescriptor : String := "Ljava/security/ProtectionDomain;"

/-- Offset of the field in which a mirror keeps the protection domain of its class. -/
def domainOffset? (r : Registry) : Option Nat := do
  let c ← r.find? "java/lang/Class" none
  let f ← (r.cls c).declaredField? domainField
  if f.descriptor == domainDescriptor && !f.isStatic then some f.offset else none

def checkRequired (r : Registry) : Except BootError Unit :=
  match Universe.required.find? fun name => (r.find? name none).isNone with
  | some name => .error (.missingClass name)
  | none => .ok ()

variable {η : Type}

def initialWorld (e : Embedding η) (r : Registry) (domainOffset : Nat) : World η where
  registry := r
  heap := .empty e.options.maxHeapBytes e.options.initialHeapBytes
  natives := e.natives
  interned := []
  records := #[]
  threads := .empty
  starting := []
  clock := 0
  deadlines := []
  resting := []
  inUse := []
  fresh := 0
  domainOffset
  options := e.options
  platform := e.platform
  host := e.host
  parser := e.parser
  outside := e.outside

def defineExtra : List ClassDef → World η → Except BootError (World η)
  | [], w => .ok w
  | d :: ds, w =>
    match (Atomic.defineClass d none).runOn w with
    | (.error f, _) => .error (.badClass d.name f)
    | (.ok _, w) => defineExtra ds w

end Boot

def Embedding.boot {η : Type} (e : Embedding η) : Except BootError (World η) := do
  let (core, extra) := Boot.replaceCore Universe.definitions e.classes
  let r ← Boot.defineCore e.natives core .empty
  Boot.checkRequired r
  match Boot.domainOffset? r with
  | none => throw (.missingField "java/lang/Class" Boot.domainField Boot.domainDescriptor)
  | some offset => Boot.defineExtra extra (Boot.initialWorld e r offset)

end ManagedRuntime
