import ManagedRuntime.AccessFlags

/-!
Class definitions: names, flags and member declarations as a class file gives them, with nothing
resolved.
-/
namespace ManagedRuntime

structure MemberDef where
  name : String
  descriptor : String
  flags : AccessFlags
  deriving DecidableEq, Repr

structure ClassDef where
  name : String
  superName : Option String := some "java/lang/Object"
  interfaces : List String := []
  flags : AccessFlags := .isPublic
  fields : List MemberDef := []
  methods : List MemberDef := []
  /-- The enclosing class of a member class. -/
  declaringClass : Option String := none
  /-- Flags recorded for a member class by its enclosing class. -/
  innerFlags : Option AccessFlags := none
  innerClasses : List String := []
  deriving DecidableEq, Repr

namespace ClassDef
open AccessFlags

/-- A public class that extends `java/lang/Object`. -/
def named (name : String) : ClassDef := { name }

def interfaceNamed (name : String) : ClassDef :=
  { name, flags := isPublic ||| isInterface ||| isAbstract }

def root (d : ClassDef) : ClassDef := { d with superName := .none }

def extending (d : ClassDef) (superName : String) : ClassDef :=
  { d with superName := some superName }

def implementing (d : ClassDef) (i : String) : ClassDef :=
  { d with interfaces := d.interfaces ++ [i] }

def withFlags (d : ClassDef) (flags : AccessFlags) : ClassDef := { d with flags }

def field (d : ClassDef) (name descriptor : String) (flags : AccessFlags) : ClassDef :=
  { d with fields := d.fields ++ [⟨name, descriptor, flags⟩] }

def method (d : ClassDef) (name descriptor : String) (flags : AccessFlags) : ClassDef :=
  { d with methods := d.methods ++ [⟨name, descriptor, flags⟩] }

def publicMethod (d : ClassDef) (name descriptor : String) : ClassDef :=
  d.method name descriptor isPublic

def nativeMethod (d : ClassDef) (name descriptor : String) : ClassDef :=
  d.method name descriptor (isPublic ||| isNative)

def staticNative (d : ClassDef) (name descriptor : String) : ClassDef :=
  d.method name descriptor (isPublic ||| isStatic ||| isNative)

end ClassDef
end ManagedRuntime
