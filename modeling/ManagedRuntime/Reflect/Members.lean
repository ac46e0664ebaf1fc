import ManagedRuntime.Execution.Interning
import ManagedRuntime.Loading.Resolution

/-!
Reflected members: objects that hold the mirror of the declaring class, the name of the member and
its position there.
-/
namespace ManagedRuntime

inductive MemberKind where
  | field | method | constructor
  deriving DecidableEq, Repr

def MemberKind.className : MemberKind → String
  | field => "java/lang/reflect/Field"
  | method => "java/lang/reflect/Method"
  | constructor => "java/lang/reflect/Constructor"

/-- Positions and names of the declared members of a kind, initialisers being no methods. -/
def Class.members (c : Class) (kind : MemberKind) (publicOnly : Bool) : List (Nat × String) :=
  let visible := fun (flags : AccessFlags) => !publicOnly || flags.contains .isPublic
  match kind with
  | .field =>
    (c.fields.zipIdx.filter fun f => visible f.1.flags).map fun f => (f.2, f.1.name)
  | .method =>
    (c.methods.filter fun m => !m.isInitializer && visible m.flags).map fun m => (m.slot, m.name)
  | .constructor =>
    (c.methods.filter fun m => m.isConstructor && visible m.flags).map fun m => (m.slot, m.name)

namespace Exec
variable {η : Type}

def declaredOffset (c : ClassId) (name : String) : Atomic η Nat := do
  let x ← Atomic.ask (·.cls c)
  match x.declaredField? name with
  | some f => return f.offset
  | none => throw (.noField x.name name)

def newMember (c : ClassId) (declaringAt nameAt slotAt : Nat) (mirror : ObjectId) (slot : Nat)
    (name : String) : Exec η ObjectId := do
  let o ← act (Atomic.newInstance c)
  discard (act (Atomic.writeField o declaringAt (.ref (some mirror))))
  let text ← internText name
  discard (act (Atomic.writeField o nameAt (.ref (some text))))
  discard (act (Atomic.writeField o slotAt (.int (.ofNat slot))))
  return o

def declaredMembers (c : ClassId) (kind : MemberKind) (publicOnly : Bool) : Exec η ObjectId := do
  let members ← act (Atomic.ask fun w => (w.cls c).members kind publicOnly)
  let memberClass ← act (Atomic.bootClass kind.className)
  let declaringAt ← act (declaredOffset memberClass "declaringClass")
  let nameAt ← act (declaredOffset memberClass "name")
  let slotAt ← act (declaredOffset memberClass "slot")
  let mirror ← act (Atomic.mirror c)
  let objects ← members.mapM fun m =>
    some <$> newMember memberClass declaringAt nameAt slotAt mirror m.1 m.2
  act (Atomic.referenceArray memberClass objects)

end Exec
end ManagedRuntime
