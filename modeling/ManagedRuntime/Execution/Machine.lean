import ManagedRuntime.Execution.Exec

/-!
Running tasks. The main task goes first; when it is blocked the other threads each take a step, and
when nobody can go on the clock moves to the next moment at which somebody asked to be woken. A run
takes as many steps as its fuel allows. What the other threads refer to stays during each step.
-/
namespace ManagedRuntime

structure Code (η : Type) where
  execute : Method → List Value → Exec η (Option Value)
  native : NativeFunction → NativeCall → Exec η Nat

inductive Progress (η α : Type) : Type 1 where
  | finished (a : α)
  | blocked
  | stepped (next : Task η α) (w : World η)

variable {η α : Type}

def Task.step (code : Code η) (others : List ObjectId) (w : World η) : Task η α → Progress η α
  | .done a => .finished a
  | .act env f next =>
    match f (w.during (env.references ++ others)) with
    | none => .blocked
    | some (b, w') => .stepped (next b) w'
  | .execute m args env next => .stepped (((code.execute m args).runIn env).bind next) w
  | .native f call env next => .stepped (((code.native f call).runIn env).bind next) w

/-- One step of every thread in the background: those that remain, the shared state, and whether
any thread got on. All other threads refer to `others`. -/
def stepAll (code : Code η) :
    List ObjectId → List (Task η Unit) → World η → List (Task η Unit) × World η × Bool
  | _, [], w => ([], w, false)
  | others, t :: ts, w =>
    match t.step code (others ++ ts.flatMap Task.references) w with
    | .finished () => let r := stepAll code others ts w; (r.1, r.2.1, true)
    | .blocked => let r := stepAll code (t.references ++ others) ts w; (t :: r.1, r.2)
    | .stepped t' w' =>
      let r := stepAll code (t'.references ++ others) ts w'
      (t' :: r.1, r.2.1, true)

structure Machine (η : Type) : Type 1 where
  world : World η
  background : List (Task η Unit)

namespace Machine

def startThreads (start : ThreadStart → Task η Unit) (m : Machine η) : Machine η :=
  ⟨{ m.world with starting := [] }, m.background ++ m.world.starting.reverse.map start⟩

/-- Runs `main` to its end; none if the fuel does not suffice or everything is blocked. -/
def run (code : Code η) (start : ThreadStart → Task η Unit) :
    Nat → Task η α → Machine η → Option (α × Machine η)
  | 0, _, _ => none
  | fuel + 1, main, m =>
    match main.step code (m.background.flatMap Task.references) m.world with
    | .finished a => some (a, m)
    | .stepped main' w => run code start fuel main' { m with world := w }
    | .blocked =>
      let m := m.startThreads start
      match stepAll code main.references m.background m.world with
      | (background, w, true) => run code start fuel main ⟨w, background⟩
      | (background, w, false) =>
        match w.advance? with
        | none => none
        | some w' => run code start fuel main ⟨w', background⟩

end Machine
end ManagedRuntime
