/-!
Access and property flags of classes and members.
-/
namespace ManagedRuntime

structure AccessFlags where
  bits : UInt16
  deriving DecidableEq, Repr

namespace AccessFlags

def empty : AccessFlags := ⟨0⟩
def isPublic : AccessFlags := ⟨0x0001⟩
def isPrivate : AccessFlags := ⟨0x0002⟩
def isStatic : AccessFlags := ⟨0x0008⟩
def isFinal : AccessFlags := ⟨0x0010⟩
def isTransient : AccessFlags := ⟨0x0080⟩
def isNative : AccessFlags := ⟨0x0100⟩
def isInterface : AccessFlags := ⟨0x0200⟩
def isAbstract : AccessFlags := ⟨0x0400⟩
def isSynthetic : AccessFlags := ⟨0x1000⟩
def isAnnotationType : AccessFlags := ⟨0x2000⟩
def isEnum : AccessFlags := ⟨0x4000⟩

def contains (a b : AccessFlags) : Bool := a.bits &&& b.bits == b.bits

def union (a b : AccessFlags) : AccessFlags := ⟨a.bits ||| b.bits⟩

def inter (a b : AccessFlags) : AccessFlags := ⟨a.bits &&& b.bits⟩

instance : OrOp AccessFlags := ⟨union⟩

end AccessFlags
end ManagedRuntime
