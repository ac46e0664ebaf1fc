import ManagedRuntime.Class.Registry

/-!
Relations between loaded classes. A superclass, an interface or a component was loaded before the
class that names it, so every walk upward from `c` ends within `c.index + 1` steps; the walks carry
that number.
-/
namespace ManagedRuntime.Registry
variable (r : Registry)

def superChainWithin : Nat → ClassId → List ClassId
  | 0, _ => []
  | n + 1, c =>
    c :: match (r.cls c).superclass with
      | none => []
      | some s => superChainWithin n s

def superChain (c : ClassId) : List ClassId := r.superChainWithin (c.index + 1) c

/-- Does `c` or a superclass list interface `i`, directly or through an interface? -/
def implementsWithin : Nat → ClassId → ClassId → Bool
  | 0, _, _ => false
  | n + 1, c, i =>
    (r.superChain c).any fun d =>
      (r.cls d).interfaces.any fun e => e == i || implementsWithin n e i

def implements (c i : ClassId) : Bool := r.implementsWithin (c.index + 1) c i

/-- May a value of class `c` stand where class `t` is expected? -/
def assignableWithin : Nat → ClassId → ClassId → Bool
  | 0, _, _ => false
  | n + 1, c, t =>
    if c = t then true
    else
      match (r.cls c).kind, (r.cls t).kind with
      | .primitive _, _ | _, .primitive _ => false
      | .array e _, .array f _ =>
        !(r.cls e).isPrimitive && !(r.cls f).isPrimitive && assignableWithin n e f
      | .array .., .ordinary =>
        if (r.cls t).isInterface then r.implements c t else (r.cls t).superclass.isNone
      | .ordinary, .array .. => false
      | .ordinary, .ordinary =>
        if (r.cls t).isInterface then r.implements c t else (r.superChain c).tail.contains t

def assignable (c t : ClassId) : Bool := r.assignableWithin (c.index + 1) c t

/-- The name of the element type an array name stands for, one dimension taken off. -/
def componentName? (name : String) : Option String :=
  match name.toList with
  | '[' :: '[' :: cs => some (String.ofList ('[' :: cs))
  | '[' :: cs => (objectName? cs).map String.ofList
  | _ => none

/-- Is `c`, a superclass or an interface of it called `name`? An array class also matches by its
components. Loaders do not matter here. -/
def subtypeNamedWithin : Nat → ClassId → String → Bool
  | 0, _, _ => false
  | n + 1, c, name =>
    let x := r.cls c
    let byComponent :=
      match x.component?, componentName? name with
      | some e, some element => !(r.cls e).isPrimitive && subtypeNamedWithin n e element
      | _, _ => false
    x.name == name || byComponent
      || (match x.superclass with
          | none => false
          | some s => subtypeNamedWithin n s name)
      || x.interfaces.any fun i => subtypeNamedWithin n i name

def subtypeNamed (c : ClassId) (name : String) : Bool :=
  r.subtypeNamedWithin (c.index + 1) c name

/-- Declaring class and slot of the nearest field of this name and descriptor. -/
def lookupField? (c : ClassId) (name descriptor : String) : Option (ClassId × Nat) :=
  (r.superChain c).findSome? fun d =>
    ((r.cls d).fields.findIdx? fun f => f.name == name && f.descriptor == descriptor).map (d, ·)

/-- The method of this name and descriptor that the superclasses, else the interfaces, declare. -/
def lookupMethodWithin : Nat → ClassId → String → String → Option Method
  | 0, _, _, _ => none
  | n + 1, c, name, descriptor =>
    let chain := r.superChain c
    (chain.findSome? fun d => (r.cls d).declaredMethod? name descriptor)
      <|> chain.findSome? fun d =>
        (r.cls d).interfaces.findSome? fun i => lookupMethodWithin n i name descriptor

def lookupMethod? (c : ClassId) (name descriptor : String) : Option Method :=
  r.lookupMethodWithin (c.index + 1) c name descriptor

/-- The method that a call of `m` on a receiver of class `c` runs. Private methods, static methods
and initialisers are not overridden. -/
def virtualTarget (c : ClassId) (m : Method) : Except Failure Method :=
  if m.isStatic || m.isInitializer || m.isPrivate then .ok m
  else
    match r.lookupMethod? c m.name m.descriptor with
    | some target =>
      if target.isAbstract then
        .error (.abstractMethod ((r.cls c).name ++ "." ++ m.name ++ m.descriptor))
      else .ok target
    | none => .error (.abstractMethod ((r.cls c).name ++ "." ++ m.name ++ m.descriptor))

/-- Offset of the nearest instance field of this name. A static field of the name hides none. -/
def instanceFieldOffset? (c : ClassId) (name : String) : Option Nat :=
  (r.superChain c).findSome? fun d =>
    ((r.cls d).declaredField? name).bind fun f => if f.isStatic then none else some f.offset

/-- Declared instance fields of `c` and its superclasses, inherited ones first, with the names of
their classes. -/
def instanceFields (c : ClassId) : List (String × Field) :=
  (r.superChain c).reverse.flatMap fun d =>
    ((r.cls d).fields.filter (!·.isStatic)).map ((r.cls d).name, ·)

end ManagedRuntime.Registry
