import ManagedRuntime.Heap.Reclaim
import ManagedRuntime.Stack.Operands
import ManagedRuntime.Stack.Walk
import ManagedRuntime.World.Files

/-!
The state that all threads share: classes, heap, natives, interned strings, threads, a clock, and
what lies outside of the runtime: host services, a class file parser, files, and a state `η` of the
embedding program that those may change.
-/
namespace ManagedRuntime

structure Options where
  /-- Greatest number of live heap bytes, 0 for no limit. -/
  maxHeapBytes : Nat := 0
  initialHeapBytes : Nat := 16777216
  operandStackSlots : Nat := OperandStack.defaultCapacity
  bootClassPath : List String := []
  classPath : List String := []
  libraryPath : List String := []
  /-- System properties that override the runtime's own. -/
  properties : List (String × String) := []
  trampolines : List String := StackWalker.standard.trampolines

structure Platform where
  osName : String
  osArch : String
  userName : String
  userHome : String
  workingDirectory : String
  files : FileTree

structure Host (η : Type) where
  exit : Int32 → η → η
  loadLibrary : String → η → Bool × η
  /-- Objects that the embedding program refers to. -/
  handles : η → List ObjectId

/-- Turns class file bytes into a definition; the expected name is given if there is one. -/
abbrev ClassFileParser (η : Type) := Option String → ByteArray → η → Except Failure ClassDef × η

structure ThreadStart where
  thread : ThreadId
  object : ObjectId
  key : ObjectId
  deriving DecidableEq, Repr

structure World (η : Type) where
  registry : Registry
  heap : Heap
  natives : NativeRegistry
  interned : List (String × ObjectId)
  records : Array ThreadRecord
  threads : ThreadTable
  starting : List ThreadStart
  clock : Nat
  /-- Moments at which a thread has asked to be woken. -/
  deadlines : List Nat
  /-- Objects that environments at rest refer to. -/
  resting : List ObjectId
  /-- Objects that running threads refer to, while one of them acts. -/
  inUse : List ObjectId
  /-- Objects from here on are made by the action under way. -/
  fresh : Nat
  /-- Offset of the protection domain in the mirror of a class. -/
  domainOffset : Nat
  options : Options
  platform : Platform
  host : Host η
  parser : Option (ClassFileParser η)
  outside : η

namespace World
variable {η : Type} (w : World η)

def walker : StackWalker := ⟨w.options.trampolines⟩

def classOf (o : ObjectId) : ClassId := w.heap.classOf o
def cls (c : ClassId) : Class := w.registry.cls c
def classNameOf (o : ObjectId) : String := (w.cls (w.classOf o)).name

def textOf (o : ObjectId) : String := w.heap.text w.registry o

def thrown (o : ObjectId) : Failure := .thrown o (w.classNameOf o)

def record (t : ThreadId) : ThreadRecord := w.records[t.index]?.getD default

def modifyRecord (t : ThreadId) (f : ThreadRecord → ThreadRecord) : World η :=
  { w with records := w.records.modify t.index f }

def addRecord (name : String) : ThreadId × World η :=
  (⟨w.records.size⟩, { w with records := w.records.push { name } })

def monitorOf (o : ObjectId) : Monitor := (w.heap.get o).monitor

def setMonitor (o : ObjectId) (m : Monitor) : World η :=
  { w with heap := w.heap.modify o ({ · with monitor := m }) }

def classRoots (x : LoadedClass) : List ObjectId :=
  x.cls.loader.toList ++ x.state.mirror.toList
    ++ Slot.objects x.state.statics
    ++ (x.state.phase.failure?.map Failure.objects).getD []

def threadRoots : List ObjectId :=
  (w.threads.entries.flatMap fun e =>
    (w.record e.2).object.toList ++ (w.record e.2).waitingOn.toList)
    ++ w.starting.flatMap fun s => [s.object, s.key]

def madeSince (size : Nat) : List ObjectId :=
  (List.range' size (w.heap.objects.size - size)).map ObjectId.mk

/-- The state in which an action starts while the running threads refer to `refs`. -/
def during (refs : List ObjectId) : World η :=
  { w with inUse := refs, fresh := w.heap.objects.size }

/-- Objects that are held from outside the heap. -/
def roots : List ObjectId :=
  w.host.handles w.outside ++ w.resting ++ w.inUse ++ w.madeSince w.fresh
    ++ w.registry.loaded.toList.flatMap classRoots ++ w.interned.map (·.2) ++ w.threadRoots

def reclaim : World η := { w with heap := w.heap.reclaim w.roots }

/-- Reclaims what nothing holds, if the heap would otherwise have to grow for `bytes` more. -/
def makeRoom (bytes : Nat) : World η :=
  if w.heap.accounting.liveBytes + bytes ≤ w.heap.accounting.size then w else w.reclaim

/-- Notes that a collection was asked for. Objects are reclaimed when nothing holds them, so there
is nothing else to do. -/
def noteCollection : World η :=
  { w with heap := { w.heap with accounting := w.heap.accounting.countCollection } }

/-- Moves the clock to the next deadline, none if there is none ahead. -/
def advance? : Option (World η) :=
  let ahead := w.deadlines.filter (w.clock < ·)
  ahead.min?.map fun t => { w with clock := t, deadlines := ahead }

/-- Asks to be woken `delay` from now; the moment is returned. -/
def addDeadline (delay : Nat) : Nat × World η :=
  (w.clock + delay, { w with deadlines := (w.clock + delay) :: w.deadlines })

end World
end ManagedRuntime
