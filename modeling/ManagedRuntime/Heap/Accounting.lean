import ManagedRuntime.Failure.Wording

/-!
Heap accounting: live bytes and objects, the highest number of live bytes so far, and the figures
that managed programs see.
-/
namespace ManagedRuntime

structure Accounting where
  /-- Greatest number of live bytes, 0 for no limit. -/
  maxBytes : Nat
  /-- Heap size that is reported until use goes beyond it. -/
  initialBytes : Nat
  liveBytes : Nat := 0
  liveObjects : Nat := 0
  peakBytes : Nat := 0
  collections : Nat := 0
  deriving DecidableEq, Repr

namespace Accounting

def headerBytes : Nat := 176
def slotBytes : Nat := 16
def referenceBytes : Nat := 8
/-- Greatest memory figure that is reported. -/
def maxFigure : Nat := 9223372036854775807

def fits (a : Accounting) (bytes : Nat) : Bool :=
  a.maxBytes = 0 || a.liveBytes + bytes ≤ a.maxBytes

/-- Could so many bytes fit if nothing else were live? -/
def admits (a : Accounting) (bytes : Nat) : Bool := a.maxBytes = 0 || bytes ≤ a.maxBytes

def reserve (a : Accounting) (bytes : Nat) : Except Failure Accounting :=
  if a.fits bytes then
    .ok { a with
      liveBytes := a.liveBytes + bytes
      liveObjects := a.liveObjects + 1
      peakBytes := max a.peakBytes (a.liveBytes + bytes) }
  else .error (.heapExhausted bytes a.liveBytes a.maxBytes)

def release (a : Accounting) (bytes : Nat) : Accounting :=
  { a with liveBytes := a.liveBytes - bytes, liveObjects := a.liveObjects - 1 }

def countCollection (a : Accounting) : Accounting := { a with collections := a.collections + 1 }

/-- Size of the heap: at least what has been in use, within the limit. -/
def size (a : Accounting) : Nat :=
  let n := max a.initialBytes a.peakBytes
  if a.maxBytes = 0 then n else min n a.maxBytes

def totalMemory (a : Accounting) : Nat := min a.size maxFigure

def freeMemory (a : Accounting) : Nat := a.totalMemory - min a.liveBytes maxFigure

def maxMemory (a : Accounting) : Nat :=
  if a.maxBytes = 0 then maxFigure else min a.maxBytes maxFigure

end Accounting
end ManagedRuntime
