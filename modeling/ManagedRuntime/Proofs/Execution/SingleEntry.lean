import ManagedRuntime.Execution.Calls

/-!
How many bodies a program enters by itself; what those bodies enter in turn is not counted. Main
statement: a call enters one body at most, that of the method called.
-/
namespace ManagedRuntime
variable {η α β : Type} {P : Method → Prop} {n k : Nat}

inductive Task.AtMost (P : Method → Prop) : Nat → Task η α → Prop
  | done {n : Nat} {a : α} : AtMost P n (.done a)
  | act {n : Nat} {β : Type} {env : Env} {f : World η → Option (β × World η)} {next : β → Task η α}
      (rest : ∀ b, AtMost P n (next b)) : AtMost P n (.act env f next)
  | execute {n : Nat} {m : Method} {args : List Value} {env : Env}
      {next : Except Failure (Option Value) × Env → Task η α} (may : P m)
      (rest : ∀ r, AtMost P n (next r)) : AtMost P (n + 1) (.execute m args env next)
  | native {n : Nat} {f : NativeFunction} {call : NativeCall} {env : Env}
      {next : Except Failure Nat × Env → Task η α} (may : P call.method)
      (rest : ∀ r, AtMost P n (next r)) : AtMost P (n + 1) (.native f call env next)

theorem Task.AtMost.more {x : Task η α} (few : x.AtMost P n) (k : Nat) : x.AtMost P (n + k) := by
  induction few with
  | done => exact .done
  | act _ ih => exact .act ih
  | @execute n _ _ _ _ may _ ih =>
    rw [Nat.add_right_comm]
    exact .execute may ih
  | @native n _ _ _ _ may _ ih =>
    rw [Nat.add_right_comm]
    exact .native may ih

theorem Task.AtMost.bind {x : Task η α} {g : α → Task η β} (first : x.AtMost P n)
    (rest : ∀ a, (g a).AtMost P k) : (x.bind g).AtMost P (n + k) := by
  induction first with
  | @done n a =>
    rw [Nat.add_comm]
    exact (rest a).more n
  | act _ ih => exact .act ih
  | execute may _ ih =>
    rw [Nat.add_right_comm]
    exact .execute may ih
  | native may _ ih =>
    rw [Nat.add_right_comm]
    exact .native may ih

namespace Exec

def AtMost (P : Method → Prop) (n : Nat) (x : Exec η α) : Prop := ∀ env, (x.runIn env).AtMost P n

theorem atMost_conclude (r : Except Failure α) : AtMost P n (conclude r : Exec η α) :=
  fun _ => .done

theorem atMost_pure (a : α) : AtMost P n (pure a : Exec η α) := fun _ => .done

theorem atMost_throw (f : Failure) : AtMost P n (throw f : Exec η α) := fun _ => .done

theorem atMost_throw_bind (f : Failure) (g : α → Exec η β) : AtMost P n (throw f >>= g) :=
  fun _ => .done

theorem atMost_act (x : Atomic η α) : AtMost P n (act x) := fun _ => .act fun _ => .done

theorem atMost_get_bind {g : Env → Exec η β} (rest : ∀ e, AtMost P n (g e)) :
    AtMost P n (get >>= g) := fun env => rest env env

theorem atMost_modify_bind {f : Env → Env} {g : PUnit → Exec η β} (rest : AtMost P n (g ())) :
    AtMost P n (modify f >>= g) := fun env => rest (f env)

theorem atMost_bind {x : Exec η α} {g : α → Exec η β} (first : AtMost P n x)
    (rest : ∀ a, AtMost P k (g a)) : AtMost P (n + k) (x >>= g) := by
  intro env
  rw [show (x >>= g).runIn env = (x.runIn env).bind _ from rfl]
  refine (first env).bind fun (r, e) => ?_
  cases r with
  | error f => exact .done
  | ok a => exact rest a e

theorem atMost_after {x : Exec η α} {g : α → Exec η β} (first : AtMost P 0 x)
    (rest : ∀ a, AtMost P n (g a)) : AtMost P n (x >>= g) := by
  rw [← Nat.zero_add n]
  exact atMost_bind first rest

theorem atMost_before {x : Exec η α} {g : α → Exec η β} (first : AtMost P n x)
    (rest : ∀ a, AtMost P 0 (g a)) : AtMost P n (x >>= g) := atMost_bind first rest

theorem atMost_outcome {x : Exec η α} (few : AtMost P n x) : AtMost P n (outcome x) := by
  intro env
  rw [show (outcome x).runIn env = (x.runIn env).bind _ from rfl]
  exact (few env).bind fun _ => .done (n := 0)

theorem atMost_discard {x : Exec η α} (few : AtMost P n x) : AtMost P n (discard x) := by
  intro env
  rw [show (discard x).runIn env = (x.runIn env).bind _ from rfl]
  refine (few env).bind (k := 0) fun (r, e) => ?_
  cases r <;> exact .done

theorem atMost_keeping {refs : α → List ObjectId} {x : Exec η α} (few : AtMost P n x) :
    AtMost P n (keeping refs x) :=
  atMost_get_bind fun _ => atMost_before (atMost_outcome few) fun r =>
    atMost_modify_bind (atMost_conclude r)

theorem atMost_onFrame (f : Frame) {x : Exec η α} (few : AtMost P n x) :
    AtMost P n (onFrame f x) :=
  atMost_modify_bind (atMost_before (atMost_outcome few) fun r =>
    atMost_modify_bind (atMost_conclude r))

theorem atMost_truncatingTo (base : Nat) {x : Exec η α} (few : AtMost P n x) :
    AtMost P n (truncatingTo base x) := by
  refine atMost_before (atMost_outcome few) fun r => ?_
  cases r with
  | ok a => exact atMost_pure a
  | error f => exact atMost_modify_bind (atMost_throw f)

/-! A call, from the inside out. -/

theorem atMost_dispatch (m : Method) : AtMost (· = m) 1 (dispatch m : Exec η Nat) := by
  have runs (f : NativeFunction) (call : NativeCall) (same : call.method = m) :
      AtMost (· = m) 1 (native f call : Exec η Nat) := fun _ => .native same fun _ => .done
  have bound (base : Nat) : AtMost (· = m) 1 (runBound m base : Exec η Nat) := by
    refine atMost_after (atMost_act _) fun f => ?_
    refine atMost_before (atMost_onFrame _ (atMost_keeping (runs f _ rfl))) fun top => ?_
    refine atMost_get_bind fun e => ?_
    split
    · exact atMost_pure top
    · exact atMost_throw _
  refine atMost_get_bind fun e => ?_
  dsimp only
  split
  · exact atMost_throw_bind _ _
  · exact atMost_truncatingTo _ (bound _)

theorem atMost_callOnStack (m : Method) (args : List Value) :
    AtMost (· = m) 1 (callOnStack m args : Exec η _) := by
  have pushes (slots : List Slot) : AtMost (· = m) 0 (pushArguments slots : Exec η Unit) :=
    atMost_get_bind fun e => atMost_after (atMost_conclude _) fun _ => fun _ => .done
  have takes (base : Nat) : AtMost (· = m) 0 (takeResult m base : Exec η _) := by
    unfold takeResult
    split
    · exact atMost_modify_bind (atMost_pure none)
    · refine atMost_get_bind fun e => ?_
      split
      · exact atMost_throw _
      · exact atMost_modify_bind (atMost_pure _)
  have invokes : AtMost (· = m) 1 (invokeNative m : Exec η Nat) := by
    refine atMost_before (atMost_outcome (atMost_dispatch m)) fun r => ?_
    cases r with
    | ok top => exact atMost_pure top
    | error f => exact atMost_modify_bind (atMost_throw f)
  unfold callOnStack
  refine atMost_get_bind fun e => ?_
  dsimp only
  split
  · exact atMost_throw_bind _ _
  refine atMost_after (pushes _) fun _ => atMost_before (atMost_outcome invokes) fun r => ?_
  cases r with
  | ok top => exact takes _
  | error f => exact atMost_modify_bind (atMost_throw f)

theorem atMost_callMethod (m : Method) (args : List Value) :
    AtMost (· = m) 1 (callMethod m args : Exec η _) := by
  unfold callMethod
  dsimp only
  split
  · exact atMost_throw_bind _ _
  split
  · exact atMost_throw_bind _ _
  refine atMost_keeping (atMost_modify_bind (atMost_onFrame _ ?_))
  split
  · exact atMost_callOnStack m args
  · exact atMost_onFrame _ fun _ => .execute rfl fun _ => .done

end Exec
end ManagedRuntime
