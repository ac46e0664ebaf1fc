import ManagedRuntime.AccessFlags
import ManagedRuntime.Class.Phase
import ManagedRuntime.Descriptor.ArgLayout
import ManagedRuntime.Natives.Registry
import ManagedRuntime.Value.Slot

/-!
Classes as they are once loaded. What a definition fixes for ever is a `Class`; what changes while
programs run is its `ClassState`. Members are addressed by their position in the declaration.
-/
namespace ManagedRuntime

structure ClassId where
  index : Nat
  deriving DecidableEq, Hashable, Repr

inductive ClassKind where
  | ordinary
  | primitive (p : Primitive)
  | array (component : ClassId) (dimensions : Nat)
  deriving DecidableEq, Repr

structure Field where
  name : String
  descriptor : String
  type : FieldType
  flags : AccessFlags
  /-- First slot of the field in an instance, or in static storage. -/
  offset : Nat
  deriving DecidableEq, Repr

def Field.isStatic (f : Field) : Bool := f.flags.contains .isStatic

structure Method where
  owner : ClassId
  className : String
  name : String
  descriptor : String
  type : MethodType
  flags : AccessFlags
  slot : Nat
  deriving DecidableEq, Repr

namespace Method

def isStatic (m : Method) : Bool := m.flags.contains .isStatic
def isNative (m : Method) : Bool := m.flags.contains .isNative
def isAbstract (m : Method) : Bool := m.flags.contains .isAbstract
def isPrivate (m : Method) : Bool := m.flags.contains .isPrivate
def isConstructor (m : Method) : Bool := m.name == "<init>"

def isInitializer (m : Method) : Bool := m.isConstructor || m.name == "<clinit>"

def text (m : Method) : String := m.className ++ "." ++ m.name ++ m.descriptor

def layout (m : Method) : ArgLayout := .of m.type m.isStatic

def arity (m : Method) : Nat := m.type.params.length + (if m.isStatic then 0 else 1)

def has (m : Method) (name descriptor : String) : Bool :=
  m.name == name && m.descriptor == descriptor

end Method

structure Class where
  name : String
  kind : ClassKind
  superclass : Option ClassId
  interfaces : List ClassId
  flags : AccessFlags
  innerFlags : Option AccessFlags
  declaringClass : Option String
  innerClasses : List String
  /-- The loader that defined the class, none for the bootstrap loader. -/
  loader : Reference
  fields : List Field
  methods : List Method
  /-- Zeroed storage of an instance, inherited fields first. -/
  template : List Slot
  deriving DecidableEq

namespace Class

instance : Inhabited Class :=
  ⟨⟨"", .ordinary, none, [], .empty, none, none, [], none, [], [], []⟩⟩

def isArray (c : Class) : Bool := c.kind matches .array ..
def isPrimitive (c : Class) : Bool := c.kind matches .primitive _
def isInterface (c : Class) : Bool := c.flags.contains .isInterface
def isAbstract (c : Class) : Bool := c.flags.contains .isAbstract

def primitive? (c : Class) : Option Primitive :=
  match c.kind with
  | .primitive p => some p
  | _ => none

def component? (c : Class) : Option ClassId :=
  match c.kind with
  | .array component _ => some component
  | _ => none

def dimensions (c : Class) : Nat :=
  match c.kind with
  | .array _ n => n
  | _ => 0

def dottedName (c : Class) : String := c.name.map fun x => if x = '/' then '.' else x

/-- Flags that reflection reports: those recorded for a member class unless they are ignored. -/
def modifiers (c : Class) (ignoreInner : Bool) : AccessFlags :=
  if ignoreInner then c.flags else c.innerFlags.getD c.flags

def field? (c : Class) (slot : Nat) : Option Field := c.fields[slot]?
def method? (c : Class) (slot : Nat) : Option Method := c.methods[slot]?

def declaredField? (c : Class) (name : String) : Option Field := c.fields.find? (·.name == name)

def declaredMethod? (c : Class) (name descriptor : String) : Option Method :=
  c.methods.find? (·.has name descriptor)

def initializer? (c : Class) : Option Method := c.declaredMethod? "<clinit>" "()V"

def arrayName (c : Class) : String :=
  match c.kind with
  | .primitive p => "[" ++ p.letter.toString
  | .array .. => "[" ++ c.name
  | .ordinary => "[L" ++ c.name ++ ";"

theorem component?_eq_some {c : Class} {e : ClassId} :
    c.component? = some e ↔ ∃ n, c.kind = .array e n := by
  unfold component?
  cases c.kind <;> simp

theorem isArray_iff {c : Class} : c.isArray ↔ ∃ e, c.component? = some e := by
  unfold isArray component?
  cases c.kind <;> simp

theorem primitive?_eq_none {c : Class} : c.primitive? = none ↔ c.isPrimitive = false := by
  unfold primitive? isPrimitive
  cases c.kind <;> simp

def staticTemplate (c : Class) : List Slot :=
  (c.fields.filter Field.isStatic).flatMap fun f => Slot.zeroed f.type.primitive?

end Class

/-- What changes about a class after its definition: static fields, initialisation, the object
that mirrors it, and the functions bound to its native methods by slot. -/
structure ClassState where
  statics : Array Slot
  phase : InitPhase
  mirror : Reference
  bound : List (Nat × NativeFunction)

namespace ClassState

instance : Inhabited ClassState := ⟨⟨#[], .uninitialized, none, []⟩⟩

/-- State of a class just after its definition; only ordinary classes need initialisation. -/
def initial (c : Class) : ClassState :=
  ⟨c.staticTemplate.toArray, if c.kind = .ordinary then .uninitialized else .initialized, none, []⟩

def boundTo? (s : ClassState) (slot : Nat) : Option NativeFunction := s.bound.lookup slot

end ClassState
end ManagedRuntime
