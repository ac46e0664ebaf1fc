import ManagedRuntime.Loading.Resolution
import ManagedRuntime.Proofs.Execution.NotedCalls
import ManagedRuntime.Proofs.Execution.StackNeutrality
import ManagedRuntime.Reflect.Invocation
import Mathlib.Tactic.Choose

/-!
Pending failures. A program is polite if it takes what a failed native left pending before it calls
anything else and before it ends. Main statement: where all code is polite, a failure is pending
after a native if and only if the native failed with it, and nothing is pending after a call,
however deep they are nested.
-/
namespace ManagedRuntime
variable {η α β : Type}

def leftPending : Except Failure Nat → Option Failure
  | .ok _ => none
  | .error f => some f

def Return.Truthful : Return → Prop
  | .native _ _ r after => ∀ f, after.pending = some f ↔ r = .error f
  | .call _ _ _ after => after.pending = none

theorem truthful_native {m : Method} {before after : Env} {r : Except Failure Nat}
    (left : after.pending = leftPending r) : (Return.native m before r after).Truthful := by
  intro f
  rw [left]
  cases r <;> simp [leftPending]

/-- A task that asks for code with nothing pending, can rely on nothing being pending afterwards,
and puts true notes. When it is done `Q` holds of its result. -/
inductive Honest (Q : α → Prop) : Annotated η Return α → Prop where
  | done {a : α} (post : Q a) : Honest Q (.done a)
  | note {n : Return} {next : Annotated η Return α} (truthful : n.Truthful)
      (rest : Honest Q next) : Honest Q (.note n next)
  | act {β : Type} {env : Env} {f : World η → Option (β × World η)}
      {next : β → Annotated η Return α} (rest : ∀ b, Honest Q (next b)) :
      Honest Q (.act env f next)
  | execute {m : Method} {args : List Value} {env : Env}
      {next : Except Failure (Option Value) × Env → Annotated η Return α}
      (clear : env.pending = none) (rest : ∀ r e, e.pending = none → Honest Q (next (r, e))) :
      Honest Q (.execute m args env next)
  | native {f : NativeFunction} {call : NativeCall} {env : Env}
      {next : Except Failure Nat × Env → Annotated η Return α}
      (clear : env.pending = none) (rest : ∀ r e, e.pending = none → Honest Q (next (r, e))) :
      Honest Q (.native f call env next)

theorem Honest.bind {P : α → Prop} {Q : β → Prop} {x : Annotated η Return α}
    {g : α → Annotated η Return β} (first : Honest P x) (rest : ∀ a, P a → Honest Q (g a)) :
    Honest Q (x.bind g) := by
  induction first with
  | done post => exact rest _ post
  | note truthful _ ih => exact .note truthful ih
  | act _ ih => exact .act ih
  | execute clear _ ih => exact .execute clear ih
  | native clear _ ih => exact .native clear ih

namespace Noting
variable {p p' : Option Failure} {P : Except Failure β → Option Failure → Prop}
  {R : Except Failure α → Option Failure → Prop} {x : Noting η Return α}

def Leaves (p : Option Failure) (x : Noting η Return α)
    (R : Except Failure α → Option Failure → Prop) : Prop :=
  ∀ env, env.pending = p → Honest (fun q => R q.1 q.2.pending) (x.runIn env)

theorem leaves_conclude {r : Except Failure α} (post : R r p) :
    Leaves p (conclude r : Noting η Return α) R :=
  fun env pending => .done (show R r env.pending from pending ▸ post)

theorem leaves_bind {g : α → Noting η Return β} (first : Leaves p x R)
    (failed : ∀ f p', R (.error f) p' → P (.error f) p')
    (rest : ∀ a p', R (.ok a) p' → Leaves p' (g a) P) : Leaves p (x >>= g) P := by
  intro env pending
  refine (first env pending).bind fun (r, e) left => ?_
  cases r with
  | error f => exact .done (failed f _ left)
  | ok a => exact rest a _ left e rfl

theorem leaves_outcome_bind {g : Except Failure α → Noting η Return β} (first : Leaves p x R)
    (rest : ∀ r p', R r p' → Leaves p' (g r) P) : Leaves p (x.outcome >>= g) P := by
  intro env pending
  rw [runIn_outcome_bind]
  exact (first env pending).bind fun (r, e) left => rest r _ left e rfl

theorem leaves_get_bind {g : Env → Noting η Return β}
    (rest : ∀ env, env.pending = p → Leaves p (g env) P) : Leaves p (get >>= g) P :=
  fun env pending => rest env pending env pending

theorem leaves_modify_bind {f : Env → Env} {g : PUnit → Noting η Return β}
    (changes : ∀ env, env.pending = p → (f env).pending = p') (rest : Leaves p' (g ()) P) :
    Leaves p (modify f >>= g) P :=
  fun env pending => rest (f env) (changes env pending)

theorem leaves_returning {n : Env → Except Failure α → Env → Return} (first : Leaves p x R)
    (truthful : ∀ before r after, R r after.pending → (n before r after).Truthful) :
    Leaves p (returning n x) R := by
  refine leaves_get_bind fun before _ => leaves_outcome_bind first fun r p' left => ?_
  intro env pending
  subst pending
  exact .note (truthful before r env left) (.done left)

theorem leaves_act (a : Atomic η α) :
    Leaves p (ofExec (Exec.act a)) fun _ p' => p' = p := by
  intro env pending
  exact .act fun b => .done pending

theorem leaves_keeping {refs : α → List ObjectId} (first : Leaves p x R) :
    Leaves p (keeping refs x) R :=
  leaves_get_bind fun _ _ => leaves_outcome_bind first fun _ _ left =>
    leaves_modify_bind (fun _ same => same) (leaves_conclude left)

theorem leaves_onFrame {f : Frame} (first : Leaves p x R) : Leaves p (onFrame f x) R :=
  leaves_modify_bind (fun _ same => same) <| leaves_outcome_bind first fun _ _ left =>
    leaves_modify_bind (fun _ same => same) (leaves_conclude left)

theorem leaves_native (f : NativeFunction) (call : NativeCall) :
    Leaves none (ofExec (Exec.native f call) : Noting η Return Nat) fun _ p => p = none :=
  fun _ clear => .native clear fun _ _ after => .done after

theorem leaves_execute (m : Method) (args : List Value) :
    Leaves none (ofExec (Exec.execute m args) : Noting η Return _) fun _ p => p = none :=
  fun _ clear => .execute clear fun _ _ after => .done after

theorem ofExec_keeping (refs : α → List ObjectId) (x : Exec η α) :
    (ofExec (Exec.keeping refs x) : Noting η Return α) = keeping refs (ofExec x) := by
  unfold Exec.keeping keeping
  rw [ofExec_bind]
  refine congrArg _ (funext fun env => ?_)
  rw [ofExec_bind, ofExec_outcome]
  refine congrArg _ (funext fun r => ?_)
  rw [ofExec_bind]
  rfl

theorem ofExec_onFrame (f : Frame) (x : Exec η α) :
    (ofExec (Exec.onFrame f x) : Noting η Return α) = onFrame f (ofExec x) := by
  unfold Exec.onFrame Exec.thenPop onFrame
  rw [ofExec_bind]
  refine congrArg _ (funext fun _ => ?_)
  rw [ofExec_bind, ofExec_outcome]
  refine congrArg _ (funext fun r => ?_)
  rw [ofExec_bind]
  rfl

/-! Calls, from the inside out. -/

/-- A native body runs with nothing pending and leaves nothing pending. -/
theorem leaves_runBound (m : Method) (base : Nat) :
    Leaves none (ofExec (Exec.runBound m base) : Noting η Return Nat) fun _ p => p = none := by
  unfold Exec.runBound Exec.releasing
  rw [ofExec_bind]
  refine leaves_bind (leaves_act _) (fun _ _ same => same) fun f p same => ?_
  subst same
  rw [ofExec_bind, ofExec_onFrame, ofExec_keeping]
  refine leaves_bind (leaves_onFrame (leaves_keeping (leaves_native f _))) (fun _ _ same => same) ?_
  intro top p same
  subst same
  dsimp only
  rw [ofExec_bind]
  refine leaves_get_bind fun env _ => ?_
  split
  · exact leaves_conclude (r := .ok top) rfl
  · exact leaves_conclude (r := .error _) rfl

theorem leaves_dispatch (m : Method) :
    Leaves none (ofExec (Exec.dispatch m) : Noting η Return Nat) fun _ p => p = none := by
  unfold Exec.dispatch Exec.truncatingTo
  rw [ofExec_bind]
  refine leaves_get_bind fun env _ => ?_
  dsimp only
  split
  · exact leaves_conclude (r := .error _) rfl
  · rw [ofExec_bind, ofExec_outcome]
    refine leaves_outcome_bind (leaves_runBound m _) fun r p same => ?_
    subst same
    cases r with
    | ok top => exact leaves_conclude (r := .ok top) rfl
    | error f =>
      dsimp only
      rw [ofExec_bind]
      exact leaves_modify_bind (fun _ same => same) (leaves_conclude (r := .error f) rfl)

theorem leaves_invokeNative (m : Method) :
    Leaves none (invokeNative m : Noting η Return Nat) fun r p => p = leftPending r := by
  refine leaves_returning ?_ fun _ _ _ left => truthful_native left
  unfold Exec.invokeNative
  rw [ofExec_bind, ofExec_outcome]
  refine leaves_outcome_bind (leaves_dispatch m) fun r p same => ?_
  subst same
  cases r with
  | ok top => exact leaves_conclude (r := .ok top) rfl
  | error f =>
    dsimp only
    rw [ofExec_bind]
    exact leaves_modify_bind (fun _ _ => rfl) (leaves_conclude (r := .error f) rfl)

theorem leaves_pushArguments (slots : List Slot) :
    Leaves p (ofExec (Exec.pushArguments slots) : Noting η Return Unit) fun _ p' => p' = p := by
  unfold Exec.pushArguments
  rw [ofExec_bind]
  refine leaves_get_bind fun env _ => ?_
  rw [ofExec_bind]
  have ensured : Leaves p (conclude (env.stack.ensure slots.length) : Noting η Return Unit)
      fun _ p' => p' = p := leaves_conclude rfl
  refine leaves_bind ensured (fun _ _ same => same) fun _ p' same => ?_
  subst same
  intro env pending
  cases pushed : (env.stack.pushAll slots).1 with
  | ok _ => exact .done (by simpa [pushed] using pending)
  | error f => exact .done (by simpa [pushed] using pending)

theorem leaves_takeResult (m : Method) (base : Nat) :
    Leaves p (ofExec (Exec.takeResult m base) : Noting η Return _) fun _ p' => p' = p := by
  unfold Exec.takeResult
  split
  · rw [ofExec_bind]
    exact leaves_modify_bind (fun _ same => same) (leaves_conclude (r := .ok none) rfl)
  · rw [ofExec_bind]
    refine leaves_get_bind fun env _ => ?_
    split
    · exact leaves_conclude (r := .error _) rfl
    · rw [ofExec_bind]
      exact leaves_modify_bind (fun _ same => same) (leaves_conclude (r := .ok (some _)) rfl)

/-- A failed native has left its failure pending, and the call takes it. -/
theorem leaves_callOnStack (m : Method) (args : List Value) :
    Leaves none (callOnStack m args : Noting η Return _) fun _ p => p = none := by
  unfold callOnStack
  refine leaves_get_bind fun env _ => ?_
  dsimp only
  split
  · exact leaves_conclude (r := .error _) rfl
  refine leaves_bind (leaves_pushArguments _) (fun _ _ same => same) fun _ p same => ?_
  subst same
  refine leaves_outcome_bind (leaves_invokeNative m) fun r p left => ?_
  subst left
  cases r with
  | ok top => exact leaves_takeResult m _
  | error f => exact leaves_modify_bind (fun _ _ => rfl) (leaves_conclude (r := .error f) rfl)

theorem leaves_runMethod (m : Method) (args : List Value) :
    Leaves none (runMethod m args : Noting η Return _) fun _ p => p = none := by
  refine leaves_keeping (leaves_modify_bind (fun _ same => same) (leaves_onFrame ?_))
  split
  · exact leaves_callOnStack m args
  · exact leaves_onFrame (leaves_execute m args)

theorem leaves_callMethod (m : Method) (args : List Value) :
    Leaves none (callMethod m args : Noting η Return _) fun _ p => p = none := by
  refine leaves_returning ?_ fun _ _ _ left => left
  dsimp only
  split
  · exact leaves_conclude (r := .error _) rfl
  · split
    · exact leaves_conclude (r := .error _) rfl
    · exact leaves_runMethod m args

end Noting

/-! Polite programs. -/

/-- A task that goes on where `p` is pending. Only by taking it can it change that, and it does so
before it calls anything and before it is done. When it is done `Q` holds of its result. -/
inductive Polite (Q : α → Prop) : Option Failure → Annotated η Return α → Prop where
  | done {a : α} (post : Q a) : Polite Q none (.done a)
  | act {p : Option Failure} {β : Type} {env : Env} {f : World η → Option (β × World η)}
      {next : β → Annotated η Return α} (pending : env.pending = p)
      (rest : ∀ b, Polite Q p (next b)) : Polite Q p (.act env f next)
  | take {p : Option Failure} {x : Annotated η Return α} (rest : Polite Q none x) : Polite Q p x
  | call {m : Method} {args : List Value} {env : Env}
      {next : Except Failure (Option Value) × Env → Annotated η Return α}
      (clear : env.pending = none)
      (rest : ∀ r e, e.pending = none → Polite Q none (next (r, e))) :
      Polite Q none (((Noting.callMethod m args).runIn env).bind next)
  | invoke {m : Method} {env : Env} {next : Except Failure Nat × Env → Annotated η Return α}
      (clear : env.pending = none)
      (rest : ∀ r e, e.pending = leftPending r → Polite Q (leftPending r) (next (r, e))) :
      Polite Q none (((Noting.invokeNative m).runIn env).bind next)

theorem Polite.honest {Q : α → Prop} {p : Option Failure} {x : Annotated η Return α}
    (polite : Polite Q p x) : Honest Q x := by
  induction polite with
  | done post => exact .done post
  | act pending _ ih => exact .act ih
  | take _ ih => exact ih
  | call clear _ ih =>
    exact (Noting.leaves_callMethod _ _ _ clear).bind fun (r, e) left => ih r e left
  | invoke clear _ ih =>
    exact (Noting.leaves_invokeNative _ _ clear).bind fun (r, e) left => ih r e left

theorem Polite.bind {P : α → Prop} {Q : β → Prop} {p : Option Failure} {x : Annotated η Return α}
    {g : α → Annotated η Return β} (first : Polite P p x)
    (rest : ∀ a, P a → Polite Q none (g a)) : Polite Q p (x.bind g) := by
  induction first with
  | done post => exact rest _ post
  | act pending _ ih => exact .act pending ih
  | take _ ih => exact .take ih
  | call clear _ ih =>
    rw [Annotated.bind_assoc]
    exact .call clear ih
  | invoke clear _ ih =>
    rw [Annotated.bind_assoc]
    exact .invoke clear ih

def Noting.IsPolite (x : Noting η Return α) : Prop :=
  ∀ env, env.pending = none → Polite (fun q => q.2.pending = none) none (x.runIn env)

namespace Noting
variable {x : Noting η Return α}

theorem isPolite_conclude (r : Except Failure α) : (conclude r : Noting η Return α).IsPolite :=
  fun _ clear => .done clear

theorem isPolite_bind {g : α → Noting η Return β} (first : x.IsPolite)
    (rest : ∀ a, (g a).IsPolite) :
    (x >>= g).IsPolite := by
  intro env clear
  refine (first env clear).bind fun (r, e) after => ?_
  cases r with
  | error f => exact .done after
  | ok a => exact rest a e after

theorem isPolite_outcome (polite : x.IsPolite) : x.outcome.IsPolite :=
  fun env clear => (polite env clear).bind fun _ after => .done after

theorem isPolite_get_bind {g : Env → Noting η Return β} (rest : ∀ env, (g env).IsPolite) :
    (get >>= g).IsPolite := fun env clear => rest env env clear

theorem isPolite_modify {f : Env → Env} (still : ∀ env, (f env).pending = env.pending) :
    (modify f : Noting η Return PUnit).IsPolite :=
  fun env clear => .done ((still env).trans clear)

theorem isPolite_await (f : World η → Option (Except Failure α × World η)) :
    (ofExec (Exec.await f) : Noting η Return α).IsPolite :=
  fun _ clear => .act clear fun _ => .done clear

theorem isPolite_callMethod (m : Method) (args : List Value) :
    (callMethod m args : Noting η Return _).IsPolite := by
  intro env clear
  rw [← Annotated.bind_done ((callMethod m args).runIn env)]
  exact .call clear fun _ _ after => .done after

theorem isPolite_finish (call : NativeCall) (v : Option Value) :
    (ofExec (Exec.finish call v) : Noting η Return Nat).IsPolite := by
  unfold Exec.finish
  rw [ofExec_bind]
  refine isPolite_bind (fun env clear => .done clear) fun _ => ?_
  rw [ofExec_bind]
  exact isPolite_get_bind fun env => isPolite_conclude (.ok env.stack.size)

/-- A call of a native whose failure, if it fails, is taken. -/
theorem isPolite_invoking {m : Method} {g : Except Failure Nat → Noting η Return β}
    (rest : ∀ r, (g r).IsPolite) :
    ((invokeNative m).outcome >>= fun r => modify ({ · with pending := none }) >>= fun _ => g r :
      Noting η Return β).IsPolite := by
  intro env clear
  rw [runIn_outcome_bind]
  exact .invoke clear fun r e _ => .take (rest r { e with pending := none } rfl)

end Noting

/-! The runtime's own programs. -/

namespace Exec
variable {x : Exec η α}

def IsPolite (x : Exec η α) : Prop := ∃ y : Noting η Return α, y.plain = x ∧ y.IsPolite

theorem isPolite_conclude (r : Except Failure α) : (conclude r : Exec η α).IsPolite :=
  ⟨.conclude r, rfl, Noting.isPolite_conclude r⟩

theorem isPolite_pure (a : α) : (pure a : Exec η α).IsPolite := isPolite_conclude (.ok a)

theorem isPolite_throw (f : Failure) : (throw f : Exec η α).IsPolite := isPolite_conclude (.error f)

theorem isPolite_bind {g : α → Exec η β} (first : x.IsPolite) (rest : ∀ a, (g a).IsPolite) :
    (x >>= g).IsPolite := by
  obtain ⟨y, rfl, polite⟩ := first
  choose h plain politely using rest
  refine ⟨y >>= h, ?_, Noting.isPolite_bind polite politely⟩
  rw [Noting.plain_bind, funext plain]

theorem isPolite_outcome (polite : x.IsPolite) : (outcome x).IsPolite := by
  obtain ⟨y, rfl, polite⟩ := polite
  exact ⟨y.outcome, y.plain_outcome, Noting.isPolite_outcome polite⟩

theorem isPolite_discard (polite : x.IsPolite) : (discard x : Exec η PUnit).IsPolite := by
  obtain ⟨y, rfl, polite⟩ := polite
  refine ⟨discard y, y.plain_discard, fun env clear => ?_⟩
  refine (polite env clear).bind fun (r, e) after => ?_
  cases r <;> exact .done after

theorem isPolite_get_bind {g : Env → Exec η β} (rest : ∀ env, (g env).IsPolite) :
    (get >>= g).IsPolite := by
  choose h plain politely using rest
  refine ⟨get >>= h, ?_, Noting.isPolite_get_bind politely⟩
  rw [Noting.plain_bind, funext plain]
  rfl

theorem isPolite_modify {f : Env → Env} (still : ∀ env, (f env).pending = env.pending) :
    (modify f : Exec η PUnit).IsPolite := ⟨modify f, rfl, Noting.isPolite_modify still⟩

theorem isPolite_await (f : World η → Option (Except Failure α × World η)) :
    (await f).IsPolite := ⟨_, Noting.plain_ofExec _, Noting.isPolite_await f⟩

theorem isPolite_act (a : Atomic η α) : (act a).IsPolite := isPolite_await _

theorem isPolite_keeping {refs : α → List ObjectId} (polite : x.IsPolite) :
    (keeping refs x).IsPolite :=
  isPolite_get_bind fun _ => isPolite_bind (isPolite_outcome polite) fun r =>
    isPolite_bind (isPolite_modify fun _ => rfl) fun _ => isPolite_conclude r

theorem isPolite_callMethod (m : Method) (args : List Value) :
    (callMethod m args : Exec η _).IsPolite :=
  ⟨_, Noting.plain_callMethod m args, Noting.isPolite_callMethod m args⟩

theorem isPolite_callVirtual (receiver : ObjectId) (name descriptor : String)
    (args : List Value) : (callVirtual receiver name descriptor args : Exec η _).IsPolite := by
  refine isPolite_bind (isPolite_act _) fun (found, className) => ?_
  cases found with
  | none => exact isPolite_throw _
  | some m => exact isPolite_callMethod m _

theorem isPolite_callInitializer (name : String) (m : Method) :
    (callInitializer name m : Exec η Unit).IsPolite := by
  have call : (releasing (discard (callMethod m []) : Exec η Unit)).IsPolite :=
    isPolite_keeping (isPolite_discard (isPolite_callMethod m []))
  refine isPolite_bind (isPolite_outcome call) fun r => ?_
  cases r with
  | ok a => exact isPolite_pure ()
  | error f =>
    refine isPolite_bind (isPolite_act _) fun unwrapped => ?_
    split
    · exact isPolite_throw f
    · exact isPolite_throw _

theorem isPolite_runInitializer (c : ClassId) : (runInitializer c : Exec η Unit).IsPolite := by
  refine isPolite_bind (isPolite_act _) fun x => ?_
  split
  · exact isPolite_pure ()
  · exact isPolite_callInitializer _ _

theorem isPolite_initializeClass (c : ClassId) : (initializeClass c : Exec η Unit).IsPolite := by
  have within (n : Nat) (c : ClassId) : (initializeWithin n c : Exec η Unit).IsPolite := by
    induction n generalizing c with
    | zero => exact isPolite_pure ()
    | succ n ih =>
      have asks : (requestInit c : Exec η InitDecision).IsPolite :=
        isPolite_get_bind fun _ => isPolite_await _
      refine isPolite_bind asks fun decision => ?_
      cases decision with
      | available => exact isPolite_pure ()
      | failed f => exact isPolite_bind (isPolite_act _) fun x => isPolite_throw _
      | proceed =>
        refine isPolite_bind (isPolite_outcome (isPolite_bind (isPolite_act _) fun x => ?_)) ?_
        · split
          · exact isPolite_runInitializer c
          · exact isPolite_bind (ih _) fun _ => isPolite_runInitializer c
        · exact fun r => isPolite_bind (isPolite_act _) fun _ => isPolite_conclude r
  exact within _ c

theorem isPolite_askLoader (loader : ObjectId) (name : String) :
    (askLoader loader name : Exec η ClassId).IsPolite := by
  refine isPolite_keeping (isPolite_bind (isPolite_act _) fun text => ?_)
  refine isPolite_bind (isPolite_outcome (isPolite_callVirtual _ _ _ _)) fun answer => ?_
  split
  · exact isPolite_throw _
  · split
    · exact isPolite_act _
    · exact isPolite_throw _

theorem isPolite_findPlainClass (name : String) (loader : Reference) :
    (findPlainClass name loader : Exec η ClassId).IsPolite := by
  have boot : (findBootClass name : Exec η _).IsPolite := by
    refine isPolite_bind (isPolite_act _) fun found => ?_
    split
    · exact isPolite_pure _
    · refine isPolite_bind (isPolite_act _) fun bytes => ?_
      split
      · exact isPolite_pure none
      · refine isPolite_bind (isPolite_act _) fun d => ?_
        rw [map_eq_pure_bind]
        exact isPolite_bind (isPolite_act _) fun c => isPolite_pure _
  refine isPolite_bind (isPolite_act _) fun found => ?_
  split
  · exact isPolite_pure _
  · split
    · exact isPolite_askLoader _ _
    · refine isPolite_bind boot fun found => ?_
      split
      · exact isPolite_pure _
      · exact isPolite_throw _

theorem isPolite_findClass (name : String) (loader : Reference) :
    (findClass name loader : Exec η ClassId).IsPolite := by
  have element : (loadElement name loader : Exec η Unit).IsPolite := by
    unfold loadElement
    split
    · exact isPolite_pure ()
    · dsimp only
      split
      · exact isPolite_throw _
      · exact isPolite_discard (isPolite_findPlainClass _ _)
  unfold findClass
  split
  · refine isPolite_bind element fun _ => isPolite_bind (isPolite_act _) fun found => ?_
    split
    · exact isPolite_pure _
    · exact isPolite_throw _
  · exact isPolite_findPlainClass name loader

theorem isPolite_invokeMember (c : ClassId) (slot : Nat) (receiver args : Reference) :
    (invokeMember c slot receiver args : Exec η Reference).IsPolite := by
  have target (m : Method) : (invocationTarget c m receiver : Exec η _).IsPolite := by
    unfold invocationTarget
    split
    · exact isPolite_bind (isPolite_initializeClass c) fun _ => isPolite_pure _
    · exact isPolite_bind (isPolite_act _) fun o => isPolite_bind (isPolite_act _) fun m =>
        isPolite_pure _
  have called (m : Method) (values : List Value) : (callTarget m values : Exec η _).IsPolite := by
    refine isPolite_bind (isPolite_outcome (isPolite_callMethod m values)) fun r => ?_
    split
    · exact isPolite_pure _
    · exact isPolite_throw _
  refine isPolite_bind (isPolite_act _) fun m => isPolite_bind (target m) fun (m, this) => ?_
  refine isPolite_bind (isPolite_act _) fun loader => ?_
  refine isPolite_bind (isPolite_act _) fun values => ?_
  refine isPolite_bind (isPolite_modify fun _ => rfl) fun _ => ?_
  refine isPolite_bind (called m _) fun v => ?_
  split
  · exact isPolite_pure none
  · exact isPolite_act _

end Exec

theorem Noting.IsPolite.thread {x : Noting η Return α} (polite : x.IsPolite) (env : Env)
    (clear : env.pending = none) :
    Polite (fun _ => True) none ((x.runIn env).bind fun _ => .done ()) :=
  (polite env clear).bind fun _ _ => .done trivial

structure AnnotatedCode.IsPolite (code : AnnotatedCode η Return) : Prop where
  execute : ∀ m args, (code.execute m args).IsPolite
  native : ∀ f call, (code.native f call).IsPolite

namespace Pool
variable {code : AnnotatedCode η Return} {meant : ThreadId → Moment η Return → Return → Prop}
  {p q : Pool η Return} {t : ThreadId}

structure Truthful (p : Pool η Return) : Prop where
  notes : ∀ t n, (t, n) ∈ p.moment.notes → n.Truthful
  honest : ∀ t, Honest (fun _ => True) (p.tasks t)

theorem Truthful.goOn (truthful : p.Truthful) {σ : Moment η Return}
    {next : Annotated η Return Unit} (notes : ∀ u n, (u, n) ∈ σ.notes → n.Truthful)
    (honest : Honest (fun _ => True) next) : (p.goOn t σ next).Truthful where
  notes := notes
  honest := forall_goOn honest fun u _ => truthful.honest u

theorem Truthful.step (truthful : p.Truthful) (polite : code.IsPolite)
    (step : Step code meant t p q) : q.Truthful := by
  have honest := truthful.honest t
  cases step with
  | note here =>
    rw [here] at honest
    cases honest with
    | note true_ rest =>
      refine truthful.goOn (fun u n noted => ?_) rest
      rcases List.mem_cons.mp noted with same | earlier
      · cases same
        exact true_
      · exact truthful.notes u n earlier
  | act refs here =>
    rw [here] at honest
    cases honest with
    | act rest => exact truthful.goOn truthful.notes (rest _)
  | @execute m args env next here =>
    rw [here] at honest
    cases honest with
    | execute clear rest =>
      have body := (polite.execute m args env clear).honest
      exact truthful.goOn truthful.notes (body.bind fun (r, e) after => rest r e after)
  | @native f call env next here =>
    rw [here] at honest
    cases honest with
    | native clear rest =>
      have body := (polite.native f call env clear).honest
      exact truthful.goOn truthful.notes (body.bind fun (r, e) after => rest r e after)

theorem Truthful.run (truthful : p.Truthful) (polite : code.IsPolite) (run : Run code meant p q) :
    q.Truthful := by
  induction run with
  | refl => exact truthful
  | step _ step ih => exact ih.step polite step

/-- Whatever polite threads do, each note of theirs is true: after a native a failure is pending if
and only if it is the one that the native failed with, and after a call nothing is pending. Without
the notes the calls are the runtime's own; looking for a class and calling reflectively are polite. -/
theorem pending_truthful (polite : code.IsPolite) (fresh : p.moment.notes = [])
    (threads : ∀ t, Polite (fun _ => True) none (p.tasks t)) (run : Run code meant p q) :
    (∀ t n, (t, n) ∈ q.moment.notes → n.Truthful) ∧
      (∀ m, (Noting.invokeNative m : Noting η Return Nat).plain = Exec.invokeNative m) ∧
      (∀ m args, (Noting.callMethod m args : Noting η Return _).plain = Exec.callMethod m args) ∧
      (∀ o name descriptor args,
        (Noting.callVirtual o name descriptor args : Noting η Return _).plain =
          Exec.callVirtual o name descriptor args) ∧
      (∀ name loader, (Exec.findClass name loader : Exec η ClassId).IsPolite) ∧
      ∀ c slot receiver args,
        (Exec.invokeMember c slot receiver args : Exec η Reference).IsPolite := by
  have start : p.Truthful := by
    refine ⟨fun t n noted => ?_, fun t => (threads t).honest⟩
    rw [fresh] at noted
    cases noted
  exact ⟨(start.run polite run).notes, Noting.plain_invokeNative, Noting.plain_callMethod,
    Noting.plain_callVirtual, Exec.isPolite_findClass, Exec.isPolite_invokeMember⟩

end Pool

/-! A native that calls another one, which fails. -/

def failingMethod : Method := { Exec.objectMethod with name := "fail", slot := 1 }

def twoNatives : World Unit :=
  { Boot.initialWorld .silent .empty 0 with
    natives := ⟨[⟨"test/Lib", "get", none, .embedded 0⟩, ⟨"test/Lib", "fail", none, .embedded 1⟩]⟩ }

def swallowingCode : AnnotatedCode Unit Return where
  execute m _ := Noting.conclude (.error (.noCode m.text))
  native f call :=
    match f with
    | .embedded 0 =>
      (Noting.invokeNative failingMethod).outcome >>= fun _ =>
        modify ({ · with pending := none }) >>= fun _ => .ofExec (Exec.finishRef call none)
    | _ => Noting.conclude (.error .nullReference)

theorem isPolite_swallowingCode : swallowingCode.IsPolite where
  execute m _ := Noting.isPolite_conclude _
  native f call := by
    have fails := Noting.isPolite_conclude (η := Unit) (α := Nat) (.error .nullReference)
    have swallows := Noting.isPolite_invoking (η := Unit) (m := failingMethod) fun _ =>
      Noting.isPolite_finish call (some (.ref none))
    match f with
    | .embedded 0 => exact swallows
    | .embedded (_ + 1) => exact fails
    | .core _ => exact fails

def swallowing : Pool Unit Return where
  moment := ⟨twoNatives, []⟩
  tasks t := ((Noting.callMethod Exec.objectMethod []).runIn (.new t 8)).bind fun _ => .done ()

def Return.failed : Return → Bool
  | .native _ _ r _ => r.toBool.not
  | .call _ _ r _ => r.toBool.not

theorem swallowed_not_pending :
    ∃ q, Pool.Run swallowingCode (fun _ _ _ => True) swallowing q ∧
      q.moment.notes.map (·.2.failed) = [false, false, true] ∧
      ∀ t n, (t, n) ∈ q.moment.notes → n.Truthful := by
  have driven : (swallowing.drive swallowingCode (fun _ _ _ => True)
      (List.replicate 7 ⟨0⟩)).map (fun q => q.moment.notes.map (·.2.failed)) =
      some [false, false, true] := by
    decide +kernel
  obtain ⟨q, drove, returns⟩ := Option.map_eq_some_iff.mp driven
  have run := Pool.run_of_drive drove
  have threads (t : ThreadId) : Polite (fun _ => True) none (swallowing.tasks t) := by
    dsimp only [swallowing]
    exact (Noting.isPolite_callMethod Exec.objectMethod []).thread (.new t 8) rfl
  obtain ⟨truthful, -⟩ := Pool.pending_truthful isPolite_swallowingCode rfl threads run
  exact ⟨q, run, returns, truthful⟩

end ManagedRuntime
