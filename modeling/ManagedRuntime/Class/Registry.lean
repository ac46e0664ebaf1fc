import ManagedRuntime.Class.Basic
import ManagedRuntime.Class.Definition
import ManagedRuntime.Failure.Wording

/-!
The registry of loaded classes. Classes are appended and never replaced, so a class keeps its
identity, and the superclass, the interfaces and the component of a class come before it. A class
is found by its name and its defining loader. Array classes are made on demand.
-/
namespace ManagedRuntime

structure LoadedClass where
  cls : Class
  state : ClassState

structure Registry where
  loaded : Array LoadedClass

namespace Registry

def rootName : String := "java/lang/Object"
def cloneableName : String := "java/lang/Cloneable"
def serializableName : String := "java/io/Serializable"

def primitiveClass (p : Primitive) : Class :=
  { (default : Class) with
    name := p.name, kind := .primitive p,
    flags := .isPublic ||| .isFinal ||| .isAbstract }

def empty : Registry :=
  ⟨(Primitive.all.map fun p =>
    LoadedClass.mk (primitiveClass p) (.initial (primitiveClass p))).toArray⟩

variable (r : Registry)

def cls (c : ClassId) : Class := (r.loaded[c.index]?.map LoadedClass.cls).getD default

def state (c : ClassId) : ClassState := (r.loaded[c.index]?.map LoadedClass.state).getD default

def modifyState (c : ClassId) (f : ClassState → ClassState) : Registry :=
  ⟨r.loaded.modify c.index fun x => { x with state := f x.state }⟩

def add (c : Class) : ClassId × Registry :=
  (⟨r.loaded.size⟩, ⟨r.loaded.push ⟨c, .initial c⟩⟩)

def primitive (p : Primitive) : ClassId := ⟨Primitive.all.idxOf p⟩

/-- All loaded classes but the primitive ones. -/
def classes : List ClassId :=
  ((List.range r.loaded.size).map ClassId.mk).filter fun c => !(r.cls c).isPrimitive

def size : Nat := r.classes.length

/-- The class of this name that `loader` defined. -/
def find? (name : String) (loader : Reference) : Option ClassId :=
  (r.loaded.findIdx? fun x =>
    x.cls.name == name && x.cls.loader == loader && !x.cls.isPrimitive).map ClassId.mk

/-- The class of this name that `loader`, else the bootstrap loader, defined. -/
def findVisible? (name : String) (loader : Reference) : Option ClassId :=
  r.find? name loader <|> r.find? name none

def arrayClassOf (c : ClassId) : Class :=
  let component := r.cls c
  { (default : Class) with
    name := component.arrayName
    kind := .array c (min FieldType.maxDimensions (component.dimensions + 1))
    superclass := r.find? rootName none
    interfaces := [cloneableName, serializableName].filterMap (r.find? · none)
    flags := component.flags.inter .isPublic ||| .isFinal ||| .isAbstract
    loader := component.loader }

/-- The array class with components of class `c`, made if it is not there. -/
def arrayOf (c : ClassId) : ClassId × Registry :=
  match r.find? (r.cls c).arrayName (r.cls c).loader with
  | some found => (found, r)
  | none => r.add (r.arrayClassOf c)

def arrayOfTimes : Nat → ClassId → Registry → ClassId × Registry
  | 0, c, r => (c, r)
  | n + 1, c, r =>
    let made := r.arrayOf c
    arrayOfTimes n made.1 made.2

/-- Drops an `L` in front and a `;` at the end. -/
def objectName? : List Char → Option (List Char)
  | 'L' :: cs => if cs.getLast? = some ';' then some cs.dropLast else none
  | _ => none

/-- The class that the text after the brackets of an array name stands for. -/
def element? (cs : List Char) (loader : Reference) : Option ClassId :=
  match objectName? cs with
  | some [] => none
  | some name => r.findVisible? (String.ofList name) loader
  | none =>
    match cs with
    | [c] =>
      match Primitive.ofLetter? c with
      | none | some .void => none
      | some p => some (primitive p)
    | _ => none

def brackets (name : String) : Nat := (name.toList.takeWhile (· = '[')).length

def isArrayName (name : String) : Bool := brackets name ≠ 0

/-- The array class of this name, its element as `loader` sees it. -/
def arrayClass (name : String) (loader : Reference) : Option ClassId × Registry :=
  let dims := brackets name
  if dims = 0 ∨ dims > FieldType.maxDimensions then (none, r)
  else
    match r.element? (name.toList.drop dims) loader with
    | none => (none, r)
    | some e =>
      let made := arrayOfTimes dims e r
      (some made.1, made.2)

/-- The class of this name that `loader` defined, an array class made if need be. -/
def findLoaded (name : String) (loader : Reference) : Option ClassId × Registry :=
  if isArrayName name then r.arrayClass name loader else (r.find? name loader, r)

/-- The class of this name that the bootstrap loader defined, an array class made if need be. -/
def findBootstrap (name : String) : Option ClassId × Registry := r.findLoaded name none

def resolve (name : String) (loader : Reference) : Except Failure ClassId × Registry :=
  match r.find? name loader with
  | some c => (.ok c, r)
  | none =>
    match r.findBootstrap name with
    | (some c, r') => (.ok c, r')
    | (none, r') => (.error (.noClassDefFound name), r')

def resolveAll (loader : Reference) :
    List String → Registry → Except Failure (List ClassId) × Registry
  | [], r => (.ok [], r)
  | name :: names, r =>
    match r.resolve name loader with
    | (.error f, r') => (.error f, r')
    | (.ok c, r') =>
      match resolveAll loader names r' with
      | (.error f, r'') => (.error f, r'')
      | (.ok cs, r'') => (.ok (c :: cs), r'')

/-- Fields with their offsets: instance fields from `instanceAt` on, static ones from `staticAt`. -/
def layFields (className : String) :
    Nat → Nat → List MemberDef → Except Failure (List Field)
  | _, _, [] => .ok []
  | instanceAt, staticAt, d :: ds =>
    match FieldType.parse d.descriptor with
    | .error e => .error (.badMember className d.name e.message)
    | .ok type =>
      if d.flags.contains .isStatic then
        (layFields className instanceAt (staticAt + type.slotCount) ds).map
          (⟨d.name, d.descriptor, type, d.flags, staticAt⟩ :: ·)
      else
        (layFields className (instanceAt + type.slotCount) staticAt ds).map
          (⟨d.name, d.descriptor, type, d.flags, instanceAt⟩ :: ·)

def numberMethods (owner : ClassId) (className : String) :
    Nat → List MemberDef → Except Failure (List Method)
  | _, [] => .ok []
  | slot, d :: ds =>
    match MethodType.parse d.descriptor with
    | .error e => .error (.badMember className d.name e.message)
    | .ok type =>
      (numberMethods owner className (slot + 1) ds).map
        (⟨owner, className, d.name, d.descriptor, type, d.flags, slot⟩ :: ·)

/-- The class that a definition makes in a registry where its superclass and its interfaces have
been found. -/
def build (d : ClassDef) (loader : Reference) (superclass : Option ClassId)
    (interfaces : List ClassId) : Except Failure Class := do
  let inherited := (superclass.map fun s => (r.cls s).template).getD []
  let fields ← layFields d.name inherited.length 0 d.fields
  let methods ← numberMethods ⟨r.loaded.size⟩ d.name 0 d.methods
  let own := (fields.filter (!·.isStatic)).flatMap fun f => Slot.zeroed f.type.primitive?
  return {
    name := d.name, kind := .ordinary, superclass, interfaces, flags := d.flags
    innerFlags := d.innerFlags, declaringClass := d.declaringClass
    innerClasses := d.innerClasses, loader, fields, methods, template := inherited ++ own }

/-- The superclass of a definition, which must be neither an interface nor an array. -/
def resolveSuper (d : ClassDef) (loader : Reference) : Except Failure (Option ClassId) × Registry :=
  match d.superName with
  | none => (.ok none, r)
  | some name =>
    match r.resolve name loader with
    | (.error f, r') => (.error f, r')
    | (.ok s, r') =>
      if (r'.cls s).isInterface || (r'.cls s).isArray then
        (.error (.cannotExtend d.name (r'.cls s).name), r')
      else (.ok (some s), r')

/-- Defines a class for `loader`. A definition that is refused adds no class but the array classes
that its names asked for. -/
def define (d : ClassDef) (loader : Reference) : Except Failure ClassId × Registry :=
  if d.name.isEmpty || isArrayName d.name then (.error (.illegalClassName d.name), r)
  else if (r.find? d.name loader).isSome then (.error (.duplicateClass d.name), r)
  else
    match r.resolveSuper d loader with
    | (.error f, r') => (.error f, r')
    | (.ok superclass, r') =>
      match resolveAll loader d.interfaces r' with
      | (.error f, r'') => (.error f, r'')
      | (.ok interfaces, r'') =>
        match r''.build d loader superclass interfaces with
        | .error f => (.error f, r'')
        | .ok c =>
          let added := r''.add c
          (.ok added.1, added.2)

/-! Static storage. -/

def readStatic (c : ClassId) (offset : Nat) (type : Option Primitive) : Option Value :=
  Slot.readAt (r.state c).statics offset type

def writeStatic? (c : ClassId) (offset : Nat) (v : Value) : Option Registry :=
  (Slot.write? (r.state c).statics offset v).map fun statics =>
    r.modifyState c ({ · with statics })

end Registry
end ManagedRuntime
