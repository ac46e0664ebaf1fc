import ManagedRuntime.Boot.Basic
import ManagedRuntime.Execution.Machine
import ManagedRuntime.Thread.Lifecycle

/-!
Sessions: a runtime, the code that it runs, and the named environments in which an embedding program
calls into it. Only what the environments and the embedding program hold stays between two calls.
-/
namespace ManagedRuntime

structure Session (η : Type) : Type 1 where
  machine : Machine η
  code : Code η
  envs : List (String × Env)

namespace Session
variable {η α : Type} (s : Session η)

def world : World η := s.machine.world

def stackSlots : Nat := s.world.options.operandStackSlots

def ofWorld (code : Code η) (w : World η) : Session η := ⟨⟨w, []⟩, code, []⟩

/-- Gives thread `t` an environment of its own, in place of one of that name. -/
def addEnv (name : String) (t : ThreadId) : Session η :=
  { s with envs := (name, .new t s.stackSlots) :: s.envs.filter (·.1 ≠ name) }

def addBare (name : String) : Session η :=
  let added := s.world.addRecord name
  { s with machine.world := added.2 }.addEnv name added.1

def spawn (name : String) (x : Exec η Unit) : Session η :=
  let added := s.world.addRecord name
  let task := (x.runIn (.new added.1 s.stackSlots)).bind fun _ => .done ()
  { s with machine := ⟨added.2, s.machine.background ++ [task]⟩ }

def referencesBut (name : String) : List ObjectId :=
  (s.envs.filter (·.1 ≠ name)).flatMap (·.2.references)

def setEnv (name : String) (e : Env) : Session η :=
  { s with envs := s.envs.map fun x => if x.1 = name then (name, e) else x }

def stepLimit : Nat := 1000000000

/-- Runs `x` in an environment; none if there is no such environment and if the call does not
end. -/
def run (name : String) (x : Exec η α) : Option (Except Failure α × Session η) :=
  (s.envs.lookup name).bind fun env =>
    let machine := { s.machine with world.resting := s.referencesBut name }
    let start := ThreadStart.task s.stackSlots
    (Machine.run s.code start stepLimit (x.runIn env) machine).map fun r =>
      (r.1.1, { s with machine := r.2 }.setEnv name r.1.2.atRest)

def attach (name : String) : Option (Except Failure ThreadId × Session η) :=
  ((s.addEnv name ⟨0⟩).run name (Exec.attachThread name)).map fun r =>
    match r with
    | (.ok t, s) => (.ok t, s.addEnv name t)
    | r => r

end Session
end ManagedRuntime
