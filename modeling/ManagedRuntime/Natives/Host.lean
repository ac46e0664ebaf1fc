import ManagedRuntime.Execution.Calls

/-!
Natives that reach beyond the runtime: memory figures, the host, and system properties.
-/
namespace ManagedRuntime
open Exec
variable {η : Type}

def libraryFileName (name : String) : String := "lib" ++ name ++ ".so"

def memoryFigure (figure : Accounting → Nat) (call : NativeCall) : Exec η Nat := do
  let n ← act (Atomic.ask fun w => figure w.reclaim.heap.accounting)
  finishLong call (.ofNat n)

def RuntimeNative.run (n : RuntimeNative) (call : NativeCall) : Exec η Nat := do
  match n with
  | freeMemory => memoryFigure Accounting.freeMemory call
  | totalMemory => memoryFigure Accounting.totalMemory call
  | maxMemory => memoryFigure Accounting.maxMemory call
  | gc =>
    act (modify World.noteCollection)
    finishVoid call
  | runFinalization => finishVoid call
  | exit =>
    let status ← intArg call 0
    act (Atomic.hostExit status)
    finishVoid call
  | nativeLoad =>
    let path ← stringArg call 0
    let loaded ← act (Atomic.hostLoad path)
    finishInt call (if loaded then 1 else 0)
  | mapLibraryName =>
    let name ← stringArg call 0
    let text ← act (Atomic.newString (libraryFileName name))
    finishRef call (some text)

/-- The properties that the runtime itself defines, in the order in which it sets them. -/
def defaultProperties (w : World η) : List (String × String) :=
  [("java.vm.name", "kiln"),
   ("java.vm.version", "0.2.0"),
   ("java.vm.vendor", "kiln"),
   ("java.vm.specification.version", "1.0"),
   ("java.class.path", Path.joinList w.options.classPath),
   ("java.boot.class.path", Path.joinList w.options.bootClassPath),
   ("java.library.path", Path.joinList w.options.libraryPath),
   ("os.name", w.platform.osName),
   ("os.arch", w.platform.osArch),
   ("file.separator", "/"),
   ("path.separator", ":"),
   ("line.separator", "\n"),
   ("user.name", w.platform.userName),
   ("user.home", w.platform.userHome),
   ("user.dir", w.platform.workingDirectory)]

/-- Sets properties one after the other through the method of their table. -/
def setProperties (table : ObjectId) : List (String × String) → Exec η Unit
  | [] => return
  | (key, value) :: rest => do
    releasing do
      let k ← act (Atomic.newString key)
      let v ← act (Atomic.newString value)
      discard (callVirtual table "setProperty"
        "(Ljava/lang/String;Ljava/lang/String;)Ljava/lang/Object;" [.ref (some k), .ref (some v)])
    setProperties table rest

def PropertiesNative.run (n : PropertiesNative) (call : NativeCall) : Exec η Nat := do
  let table ← objectArg call 0
  let properties ← act (Atomic.ask fun w =>
    match n with
    | preInit => defaultProperties w
    | postInit => w.options.properties)
  setProperties table properties
  finishVoid call

end ManagedRuntime
