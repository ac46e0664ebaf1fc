import ManagedRuntime.Thread.Blocking

/-!
Threads from creation to end. A thread object refers to the runtime's object for the thread, and is
detached from it when the thread ends.
-/
namespace ManagedRuntime
variable {η : Type}

def normalPriority : Int32 := 5

namespace Exec

def attachThread (name : String) : Exec η ThreadId := do
  let threadClass ← act (Atomic.bootClass "java/lang/Thread")
  let keyClass ← act (Atomic.bootClass "java/lang/VMThread")
  let object ← act (Atomic.newInstance threadClass)
  let key ← act (Atomic.newInstance keyClass)
  let text ← act (Atomic.newString name)
  act (Atomic.writeNamed object "vmThread" (.ref (some key)))
  act (Atomic.writeNamed object "name" (.ref (some text)))
  act (Atomic.writeNamed object "priority" (.int normalPriority))
  act (Atomic.writeNamed key "thread" (.ref (some object)))
  act (modifyGet fun w =>
    let added := w.addRecord name
    let w := added.2.modifyRecord added.1 ({ · with object := some object })
    (added.1, { w with threads := w.threads.insert key added.1 }))

def threadName (object : ObjectId) : Exec η String := do
  let given ← outcome (act (Atomic.readNamed object "name" none))
  act (Atomic.ask fun w =>
    match given.toOption.bind Value.object? with
    | some o => (w.heap.get o).string?.getD ("Thread-" ++ toString w.threads.size)
    | none => "Thread-" ++ toString w.threads.size)

def createThread (object : ObjectId) : Exec η Unit := do
  let keyClass ← act (Atomic.bootClass "java/lang/VMThread")
  let key ← act (Atomic.newInstance keyClass)
  act (Atomic.writeNamed key "thread" (.ref (some object)))
  act (Atomic.writeNamed object "vmThread" (.ref (some key)))
  let name ← threadName object
  act (modify fun w =>
    let added := w.addRecord name
    let w := added.2.modifyRecord added.1 ({ · with object := some object })
    { w with
      threads := w.threads.insert key added.1
      starting := ⟨added.1, object, key⟩ :: w.starting })

/-- What a created thread does: it runs, and at its end wakes whoever waits for it. -/
def threadProgram (start : ThreadStart) : Exec η Unit := do
  hold [start.object, start.key]
  releasing (discard (outcome (callVirtual start.object "run" "()V" [])))
  act (modify (·.modifyRecord start.thread ({ · with alive := false })))
  enterMonitor start.object
  discard (outcome (act (Atomic.writeNamed start.object "vmThread" .null)))
  discard (outcome (notifyAll start.object))
  discard (outcome (exitMonitor start.object))
  act (modify fun w => { w with threads := w.threads.erase start.key })

end Exec

def ThreadStart.task (capacity : Nat) (start : ThreadStart) : Task η Unit :=
  ((Exec.threadProgram start).runIn (.new start.thread capacity)).bind fun _ => .done ()

end ManagedRuntime
