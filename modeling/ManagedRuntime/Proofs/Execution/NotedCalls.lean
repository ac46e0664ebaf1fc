import ManagedRuntime.Execution.Calls
import ManagedRuntime.Proofs.Execution.Annotated

/-!
Calls that put a note when they return: how, from which environment and to which. The calls of
natives that a call makes put their notes too. Main statement: without its notes each of them is the
runtime's own program.
-/
namespace ManagedRuntime
variable {η α β : Type}

/-- A call that has returned, with the environments before and after it. -/
inductive Return where
  | native (m : Method) (before : Env) (result : Except Failure Nat) (after : Env)
  | call (m : Method) (before : Env) (result : Except Failure (Option Value)) (after : Env)

namespace Noting

def returning (n : Env → Except Failure α → Env → Return) (x : Noting η Return α) :
    Noting η Return α := do
  let before ← get
  let r ← x.outcome
  note (n before r (← get))
  conclude r

def keeping (refs : α → List ObjectId) (x : Noting η Return α) : Noting η Return α := do
  let before := (← get).held
  let r ← x.outcome
  let kept := match r with
    | .ok a => refs a
    | .error f => f.objects
  modify ({ · with held := kept ++ before })
  conclude r

def onFrame (f : Frame) (x : Noting η Return α) : Noting η Return α := do
  modify (·.pushFrame f)
  let r ← x.outcome
  modify Env.popFrame
  conclude r

def invokeNative (m : Method) : Noting η Return Nat :=
  returning (.native m) (ofExec (Exec.invokeNative m))

def callOnStack (m : Method) (args : List Value) : Noting η Return (Option Value) := do
  let base := (← get).stack.size
  let slots := args.flatMap Value.slots
  if slots.length ≠ m.layout.argSlots then throw (.wrongArgumentSlots m.text slots.length)
  ofExec (Exec.pushArguments slots)
  match ← (invokeNative m).outcome with
  | .ok _ => ofExec (Exec.takeResult m base)
  | .error f =>
    modify fun e => { e.truncate base with pending := none }
    throw f

def runMethod (m : Method) (args : List Value) : Noting η Return (Option Value) :=
  keeping (fun v => Value.objects v.toList) do
    ofExec (Exec.hold (Value.objects args))
    onFrame .boundary
      (if m.isNative then callOnStack m args
        else onFrame (.real m) (ofExec (Exec.execute m args)))

def callMethod (m : Method) (args : List Value) : Noting η Return (Option Value) :=
  returning (.call m) do
    if m.isAbstract then throw (.abstractMethod m.text)
    if args.length ≠ m.arity then throw (.wrongArgumentCount m.text args.length)
    runMethod m args

def callVirtual (receiver : ObjectId) (name descriptor : String) (args : List Value) :
    Noting η Return (Option Value) := do
  let (found, className) ← ofExec (Exec.act (Atomic.ask fun w =>
    (w.registry.lookupMethod? (w.classOf receiver) name descriptor, w.classNameOf receiver)))
  match found with
  | none => throw (.noSuchMethod (className ++ "." ++ name ++ descriptor))
  | some m => callMethod m (.ref (some receiver) :: args)

theorem plain_returning (n : Env → Except Failure α → Env → Return) (x : Noting η Return α) :
    (returning n x).plain = x.plain := by
  have noted : (returning n x).plain = Exec.outcome x.plain >>= Exec.conclude := by
    simp only [returning, plain_bind, plain_outcome, plain_conclude]
    rfl
  exact noted.trans (outcome_bind_conclude _)

theorem plain_keeping (refs : α → List ObjectId) (x : Noting η Return α) :
    (keeping refs x).plain = Exec.keeping refs x.plain := by
  simp only [keeping, plain_bind, plain_outcome, plain_conclude]
  rfl

theorem plain_onFrame (f : Frame) (x : Noting η Return α) :
    (onFrame f x).plain = Exec.onFrame f x.plain := by
  simp only [onFrame, plain_bind, plain_outcome, plain_conclude]
  rfl

theorem plain_invokeNative (m : Method) :
    (invokeNative m : Noting η Return Nat).plain = Exec.invokeNative m := by
  rw [invokeNative, plain_returning, plain_ofExec]

theorem plain_callOnStack (m : Method) (args : List Value) :
    (callOnStack m args : Noting η Return _).plain = Exec.callOnStack m args := by
  unfold callOnStack Exec.callOnStack
  rw [plain_bind]
  refine congrArg _ (funext fun env => ?_)
  dsimp only
  split
  · rfl
  rw [plain_bind, plain_ofExec]
  refine congrArg _ (funext fun _ => ?_)
  rw [plain_bind, plain_outcome, plain_invokeNative]
  refine congrArg _ (funext fun r => ?_)
  cases r with
  | ok top => exact plain_ofExec _
  | error f => rfl

theorem plain_runMethod (m : Method) (args : List Value) :
    (runMethod m args : Noting η Return _).plain =
      Exec.keeping (fun v => Value.objects v.toList) (do
        Exec.hold (Value.objects args)
        Exec.onFrame .boundary
          (if m.isNative then Exec.callOnStack m args
            else Exec.onFrame (.real m) (Exec.execute m args))) := by
  rw [runMethod, plain_keeping, plain_bind, plain_ofExec]
  refine congrArg _ (funext fun _ => ?_)
  rw [plain_onFrame]
  split
  · rw [plain_callOnStack]
  · rw [plain_onFrame, plain_ofExec]

theorem plain_callMethod (m : Method) (args : List Value) :
    (callMethod m args : Noting η Return _).plain = Exec.callMethod m args := by
  rw [callMethod, plain_returning, Exec.callMethod]
  dsimp only
  by_cases abstract : m.isAbstract = true
  · rw [if_pos abstract, if_pos abstract]
    rfl
  · rw [if_neg abstract, if_neg abstract]
    split
    · rfl
    · exact plain_runMethod m args

theorem plain_callVirtual (receiver : ObjectId) (name descriptor : String) (args : List Value) :
    (callVirtual receiver name descriptor args : Noting η Return _).plain =
      Exec.callVirtual receiver name descriptor args := by
  unfold callVirtual Exec.callVirtual
  rw [plain_bind, plain_ofExec]
  refine congrArg _ (funext fun (found, className) => ?_)
  cases found with
  | none => rfl
  | some m => exact plain_callMethod m _

end Noting
end ManagedRuntime
