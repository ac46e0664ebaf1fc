import ManagedRuntime.Proofs.Execution.SingleEntry
import ManagedRuntime.Proofs.Reflect.Dispatch
import ManagedRuntime.Proofs.Reflect.Remarked

/-!
Callers: programs that ask for classes and call methods of their own choice, but class initialisers
only reflectively and with a remark. Main statements: the natives of reflected members are callers,
whatever positions they are given, and what they call has the name of the method at the position.
-/
namespace ManagedRuntime
variable {η α β γ : Type}

def Method.initializes? (m : Method) : Option ClassId :=
  if m.name = "<clinit>" then some m.owner else none

inductive Remark.Calls : Remark → Method → Prop
  | invokes {n m : Method} (named : m.name = n.name) : Calls (.invokes n m) m
  | constructs {m : Method} : Calls (.constructs m) m

/-- A task that asks for classes, minds them otherwise, and runs no class initialiser but in a call
that is remarked. When it is done `Q` holds of its result. -/
inductive Caller (Q : α → Prop) : Annotated η Report α → Prop where
  | done {a : α} (post : Q a) : Caller Q (.done a)
  | act {β : Type} {env : Env} {f : World η → Option (β × World η)}
      {next : β → Annotated η Report α} (minds : ActionWithin World.Minds f)
      (rest : ∀ w b v, w.registry.Built → f w = some (b, v) → Caller Q (next b)) :
      Caller Q (.act env f next)
  | execute {m : Method} {args : List Value} {env : Env}
      {next : Except Failure (Option Value) × Env → Annotated η Report α}
      (other : m.initializes? = none) (rest : ∀ r, Caller Q (next r)) :
      Caller Q (.execute m args env next)
  | native {f : NativeFunction} {call : NativeCall} {env : Env}
      {next : Except Failure Nat × Env → Annotated η Report α}
      (other : call.method.initializes? = none) (rest : ∀ r, Caller Q (next r)) :
      Caller Q (.native f call env next)
  | request {c : ClassId} {env : Env} {next : Except Failure Unit × Env → Annotated η Report α}
      (rest : ∀ r, Caller Q (next r)) : Caller Q (((Reporting.request c).runIn env).bind next)
  | call {k : Remark} {m : Method} {β : Type} {x : Task η β} {next : β → Annotated η Report α}
      (calls : k.Calls m) (minds : x.Within World.Minds) (once : x.AtMost (· = m) 1)
      (rest : ∀ b, Caller Q (next b)) :
      Caller Q (.note (.remarks k) ((Annotated.ofTask x).bind next))

theorem Caller.bind {P : α → Prop} {Q : β → Prop} {x : Annotated η Report α}
    {g : α → Annotated η Report β} (first : Caller P x) (rest : ∀ a, P a → Caller Q (g a)) :
    Caller Q (x.bind g) := by
  induction first with
  | done post => exact rest _ post
  | act minds _ ih => exact .act minds ih
  | execute other _ ih => exact .execute other ih
  | native other _ ih => exact .native other ih
  | request _ ih =>
    rw [Annotated.bind_assoc]
    exact .request ih
  | call calls minds once _ ih =>
    rw [Annotated.bind, Annotated.bind_assoc]
    exact .call calls minds once ih

theorem Caller.bystander {Q : α → Prop} {x : Annotated η Report α} (caller : Caller Q x) :
    Bystander x := by
  induction caller with
  | done => exact .done
  | act minds _ ih => exact .act minds ih
  | execute _ _ ih => exact .execute ih
  | native _ _ ih => exact .native ih
  | request _ ih => exact .request ih
  | call _ minds _ _ ih => exact .remark ((Bystander.ofTask minds).bind ih)

/-- A dispatched method has the name of the one that was asked for. -/
theorem Registry.Built.target_name {r : Registry} {c : ClassId} {m target : Method}
    (built : r.Built) (selected : r.virtualTarget c m = .ok target) : target.name = m.name := by
  by_cases virtual : Virtual m
  · exact ((built.virtualTarget_eq_ok_iff virtual).mp selected).2.1
  · rw [virtualTarget_of_not_virtual virtual] at selected
    cases selected
    rfl

namespace Reporting
open Noting
variable {P : α → Prop} {Q : β → Prop}

def IsCaller (P : α → Prop) (x : Noting η Report α) : Prop :=
  ∀ env, Caller (fun r => ∀ a, r.1 = .ok a → P a) (x.runIn env)

theorem isCaller_conclude {r : Except Failure α} (post : ∀ a, r = .ok a → P a) :
    IsCaller P (conclude r : Noting η Report α) := fun _ => .done post

theorem isCaller_pure {a : α} (post : P a) : IsCaller P (pure a : Noting η Report α) :=
  isCaller_conclude fun _ same => Except.ok.inj same ▸ post

theorem isCaller_throw (f : Failure) : IsCaller P (throw f : Noting η Report α) :=
  isCaller_conclude nofun

theorem isCaller_throw_bind (f : Failure) (g : α → Noting η Report β) :
    IsCaller Q ((throw f : Noting η Report α) >>= g) := isCaller_throw f

theorem isCaller_bind {x : Noting η Report α} {g : α → Noting η Report β} (first : IsCaller P x)
    (rest : ∀ a, P a → IsCaller Q (g a)) : IsCaller Q (x >>= g) := by
  intro env
  rw [show (x >>= g).runIn env = (x.runIn env).bind _ from rfl]
  refine (first env).bind fun (r, e) post => ?_
  cases r with
  | error f => exact isCaller_throw f e
  | ok a => exact rest a (post a rfl) e

theorem isCaller_request (c : ClassId) :
    IsCaller (fun _ => True) (request c : Noting η Report Unit) := by
  intro env
  rw [← Annotated.bind_done ((request c).runIn env)]
  exact .request fun _ => .done fun _ _ => trivial

theorem isCaller_call {k : Remark} {m : Method} {x : Exec η α} (calls : k.Calls m)
    (minds : x.Within World.Minds) (once : x.AtMost (· = m) 1) :
    IsCaller (fun _ => True) (remark k >>= fun _ => ofExec x) := by
  intro env
  refine (?_ : Caller _ (.note (.remarks k) (Annotated.ofTask (x.runIn env))))
  rw [← Annotated.bind_done (Annotated.ofTask (x.runIn env))]
  exact .call calls (minds env) (once env) fun _ => .done fun _ _ => trivial

end Reporting

/-! Programs that call nothing. -/

namespace Exec
open Reporting Noting
variable {P : α → Prop} {Q : β → Prop}

def Calm (P : α → Prop) (x : Exec η α) : Prop := IsCaller P (ofExec x)

theorem calm_conclude {r : Except Failure α} (post : ∀ a, r = .ok a → P a) :
    Calm P (conclude r : Exec η α) := fun _ => .done post

theorem calm_pure {a : α} (post : P a) : Calm P (pure a : Exec η α) :=
  calm_conclude fun _ same => Except.ok.inj same ▸ post

theorem calm_throw (f : Failure) : Calm P (throw f : Exec η α) := calm_conclude nofun

theorem calm_throw_bind (f : Failure) (g : α → Exec η β) :
    Calm Q ((throw f : Exec η α) >>= g) := calm_throw f

theorem calm_onEnv {f : Env → Except Failure α × Env} : Calm (fun _ => True) (onEnv f : Exec η α) :=
  fun _ => .done fun _ _ => trivial

theorem calm_bind {x : Exec η α} {g : α → Exec η β} (first : Calm P x)
    (rest : ∀ a, P a → Calm Q (g a)) : Calm Q (x >>= g) := by
  unfold Calm
  rw [ofExec_bind]
  exact isCaller_bind first rest

theorem calm_get_bind {g : Env → Exec η β} (rest : ∀ e, Calm Q (g e)) : Calm Q (get >>= g) :=
  fun env => rest env env

theorem calm_modify_bind {f : Env → Env} {g : PUnit → Exec η β} (rest : Calm Q (g ())) :
    Calm Q (modify f >>= g) := fun env => rest (f env)

theorem calm_act {x : Atomic η α} (minds : x.Within World.Minds)
    (post : ∀ w a v, w.registry.Built → x.runOn w = (.ok a, v) → P a) : Calm P (act x) := by
  refine fun env => .act (fun w b v step => ?_) fun w b v built step => .done fun a same => ?_
  · have kept := minds w
    cases step
    exact kept
  · obtain ⟨⟨r, u⟩, ran, made⟩ := Option.map_eq_some_iff.mp step
    cases made
    cases same
    exact post w a u built (Option.some.inj ran)

theorem calm_hold (refs : List ObjectId) : Calm (fun _ => True) (hold refs : Exec η Unit) :=
  calm_modify_bind (calm_pure trivial)

theorem calm_minding {x : Atomic η α} (minds : x.Within World.Minds) :
    Calm (fun _ => True) (act x) := calm_act minds fun _ _ _ _ _ => trivial

theorem calm_ask (f : World η → α) : Calm (fun _ => True) (act (Atomic.ask f)) :=
  calm_minding (Atomic.minds_ask f)

theorem calm_keeping {refs : α → List ObjectId} {x : Exec η α} (calm : Calm P x) :
    Calm P (keeping refs x) := by
  refine calm_get_bind fun e => calm_bind (P := fun r => ∀ a, r = .ok a → P a) ?_ fun r post =>
    calm_modify_bind (calm_conclude post)
  intro env
  refine (?_ : Caller _ (Annotated.ofTask ((x.runIn env).bind _)))
  rw [Annotated.ofTask_bind]
  exact (calm env).bind fun (r, e) post => .done fun q same => Except.ok.inj same ▸ post

/-! Arguments and results of natives. -/

theorem calm_arg (call : NativeCall) (index : Nat) :
    Calm (fun _ => True) (arg call index : Exec η Value) := by
  unfold arg
  split
  · exact calm_throw _
  · refine calm_get_bind fun e => ?_
    dsimp only
    split
    · exact calm_modify_bind (calm_pure trivial)
    · exact calm_throw _

theorem calm_unexpected (call : NativeCall) (index : Nat) (expected : String) (found : Value) :
    Calm P (unexpected call index expected found : Exec η α) :=
  calm_bind (calm_ask _) fun _ _ => calm_throw _

theorem calm_intArg (call : NativeCall) (index : Nat) :
    Calm (fun _ => True) (intArg call index : Exec η Int32) := by
  refine calm_bind (calm_arg call index) fun v _ => ?_
  cases v <;> first | exact calm_pure trivial | exact calm_unexpected _ _ _ _

theorem calm_slotArg (call : NativeCall) (index : Nat) :
    Calm (fun _ => True) (slotArg call index : Exec η Nat) := by
  refine calm_bind (calm_intArg call index) fun i _ => ?_
  dsimp only
  split
  · exact calm_throw_bind _ _
  · exact calm_pure trivial

theorem calm_referenceArg (call : NativeCall) (index : Nat) :
    Calm (fun _ => True) (referenceArg call index : Exec η Reference) := by
  refine calm_bind (calm_arg call index) fun v _ => ?_
  cases v <;> first | exact calm_pure trivial | exact calm_unexpected _ _ _ _

theorem calm_mirroredClass (o : ObjectId) :
    Calm (fun _ => True) (act (Atomic.mirroredClass o) : Exec η ClassId) := by
  refine calm_minding (Atomic.minds_get_bind fun w => ?_)
  split
  · exact Atomic.minds_pure _
  · exact Atomic.minds_throw _

theorem calm_classArg (call : NativeCall) (index : Nat) :
    Calm (fun _ => True) (classArg call index : Exec η ClassId) := by
  refine calm_keeping (calm_bind (P := fun _ => True) ?_ fun o _ => calm_mirroredClass o)
  refine calm_bind (calm_referenceArg call index) fun r _ => ?_
  cases r with
  | none => exact calm_throw _
  | some o => exact calm_pure trivial

theorem calm_finish (call : NativeCall) (result : Option Value) :
    Calm (fun _ => True) (finish call result : Exec η Nat) :=
  calm_bind calm_onEnv fun _ _ => calm_get_bind fun _ => calm_pure trivial

end Exec

/-! Reflection. -/

namespace Reporting
open Noting
open Exec (Calm calm_act calm_minding calm_ask calm_hold calm_bind calm_pure calm_throw)

theorem isCaller_locateField (c : ClassId) (slot : Nat) (receiver : Reference) :
    IsCaller (fun _ => True) (locateField c slot receiver : Noting η Report _) := by
  refine isCaller_bind (calm_ask _) fun x _ => ?_
  split
  · exact isCaller_throw _
  · split
    · exact isCaller_bind (isCaller_request c) fun _ _ => isCaller_pure trivial
    · exact isCaller_bind (calm_minding (Atomic.minds_receiverOf c receiver)) fun _ _ =>
        isCaller_pure trivial

theorem isCaller_getField (c : ClassId) (slot : Nat) (receiver : Reference) :
    IsCaller (fun _ => True) (getField c slot receiver : Noting η Report _) :=
  isCaller_bind (isCaller_locateField c slot receiver) fun p _ =>
    isCaller_bind (calm_minding (Atomic.minds_readPlace p)) fun v _ =>
      calm_minding (Atomic.minds_box v)

theorem isCaller_getPrimitiveField (c : ClassId) (slot : Nat) (receiver : Reference)
    (want : Primitive) :
    IsCaller (fun _ => True) (getPrimitiveField c slot receiver want : Noting η Report _) := by
  refine isCaller_bind (isCaller_locateField c slot receiver) fun p _ => ?_
  dsimp only
  split
  · exact isCaller_throw_bind _ _
  · refine isCaller_bind (calm_minding (Atomic.minds_readPlace p)) fun v _ => ?_
    split
    · exact isCaller_pure trivial
    · exact isCaller_throw _

theorem isCaller_setField (c : ClassId) (slot : Nat) (receiver : Reference) (given : Option ClassId)
    (value : Reference) :
    IsCaller (fun _ => True) (setField c slot receiver given value : Noting η Report _) :=
  isCaller_bind (isCaller_locateField c slot receiver) fun p _ =>
    isCaller_bind (calm_ask _) fun _ _ =>
      isCaller_bind (calm_minding (Atomic.minds_convert _ _ _ _ _)) fun v _ =>
        calm_minding (Atomic.minds_writePlace p v)

theorem isCaller_setPrimitiveField (c : ClassId) (slot : Nat) (receiver : Reference)
    (value : Value) :
    IsCaller (fun _ => True) (setPrimitiveField c slot receiver value : Noting η Report _) := by
  refine isCaller_bind (isCaller_locateField c slot receiver) fun p _ => ?_
  split
  · exact calm_minding (Atomic.minds_writePlace p _)
  · exact isCaller_throw _

theorem isCaller_invocationTarget (c : ClassId) (m : Method) (receiver : Reference) :
    IsCaller (fun r => r.1.name = m.name)
      (invocationTarget c m receiver : Noting η Report _) := by
  unfold invocationTarget
  split
  · exact isCaller_bind (isCaller_request c) fun _ _ => isCaller_pure rfl
  · refine isCaller_bind (calm_minding (Atomic.minds_receiverOf c receiver)) fun o _ => ?_
    refine isCaller_bind (P := fun target => target.name = m.name) ?_ fun target named =>
      isCaller_pure named
    let choose : Atomic η Method := do
      let w ← get
      w.registry.virtualTarget (w.classOf o) m
    have read (w : World η) :
        choose.runOn w = (w.registry.virtualTarget (w.classOf o) m, w) := by
      rw [Atomic.runOn_get_bind]
      cases w.registry.virtualTarget (w.classOf o) m <;> rfl
    refine calm_act (fun w => ?_) fun w target v built ran => ?_
    · rw [read]
      exact .refl w
    · rw [read] at ran
      exact built.target_name (Prod.mk.inj ran).1

theorem within_callTarget (m : Method) (args : List Value) :
    Exec.Within World.Minds (Exec.callTarget m args : Exec η _) := by
  refine Exec.within_bind (Exec.within_outcome (Exec.within_callMethod Atomic.minds_link m args))
    fun r => ?_
  cases r with
  | ok v => exact Exec.within_pure v
  | error f => exact Exec.within_throw _

theorem atMost_callTarget (m : Method) (args : List Value) :
    Exec.AtMost (· = m) 1 (Exec.callTarget m args : Exec η _) := by
  refine Exec.atMost_before (Exec.atMost_outcome (Exec.atMost_callMethod m args)) fun r => ?_
  cases r with
  | ok v => exact Exec.atMost_pure v
  | error f => exact Exec.atMost_throw _

theorem isCaller_invokeMember (c : ClassId) (slot : Nat) (receiver args : Reference) :
    IsCaller (fun _ => True) (invokeMember c slot receiver args : Noting η Report _) := by
  refine isCaller_bind (calm_minding (Atomic.minds_methodAt c slot)) fun m _ => ?_
  refine isCaller_bind (isCaller_invocationTarget c m receiver) fun (target, this) named => ?_
  refine isCaller_bind (calm_ask _) fun loader _ => ?_
  refine isCaller_bind (calm_minding (Atomic.minds_convertArguments _ _ _)) fun values _ => ?_
  refine isCaller_bind (calm_hold _) fun _ _ => ?_
  refine isCaller_call (.invokes named) ?_ ?_
  · refine Exec.within_bind (within_callTarget target _) fun v => ?_
    cases v with
    | none => exact Exec.within_pure none
    | some v => exact Exec.within_act (Atomic.minds_box v)
  · refine Exec.atMost_before (atMost_callTarget target _) fun v => ?_
    cases v with
    | none => exact Exec.atMost_pure none
    | some v => exact Exec.atMost_act _

theorem isCaller_construct (c : ClassId) (slot : Nat) (args : Reference) :
    IsCaller (fun _ => True) (construct c slot args : Noting η Report _) := by
  refine isCaller_bind (calm_minding (Atomic.minds_methodAt c slot)) fun m _ => ?_
  refine isCaller_bind (calm_ask _) fun x _ => ?_
  dsimp only
  split
  · exact isCaller_throw_bind _ _
  refine isCaller_bind (calm_minding (Atomic.minds_convertArguments _ _ _)) fun values _ => ?_
  refine isCaller_bind (calm_hold _) fun _ _ => isCaller_bind (isCaller_request c) fun _ _ => ?_
  refine isCaller_bind (calm_minding (Atomic.minds_newInstance c)) fun o _ => ?_
  rw [← bind_assoc]
  refine isCaller_bind (isCaller_call .constructs ?_ ?_) fun _ _ => isCaller_pure trivial
  · exact Exec.within_keeping (Exec.within_discard (within_callTarget m _))
  · exact Exec.atMost_keeping (Exec.atMost_discard (atMost_callTarget m _))

theorem isCaller_memberNative (n : MemberNative) (call : NativeCall) :
    IsCaller (fun _ => True) (memberNative n call : Noting η Report Nat) := by
  have reference (index : Nat) :
      IsCaller (fun _ => True) (ofExec (Exec.referenceArg call index) : Noting η Report _) :=
    Exec.calm_referenceArg call index
  have cls (index : Nat) :
      IsCaller (fun _ => True) (ofExec (Exec.classArg call index) : Noting η Report _) :=
    Exec.calm_classArg call index
  have position (index : Nat) :
      IsCaller (fun _ => True) (ofExec (Exec.slotArg call index) : Noting η Report _) :=
    Exec.calm_slotArg call index
  have ends (result : Option Value) :
      IsCaller (fun _ => True) (ofExec (Exec.finish call result) : Noting η Report _) :=
    Exec.calm_finish call result
  cases n with
  | fieldModifiers =>
    refine calm_bind (Exec.calm_classArg call 1) fun c _ =>
      calm_bind (Exec.calm_slotArg call 2) fun slot _ => calm_bind (calm_ask _) fun x _ => ?_
    split
    · exact Exec.calm_finish call _
    · exact calm_throw _
  | methodModifiers =>
    exact calm_bind (Exec.calm_classArg call 1) fun c _ =>
      calm_bind (Exec.calm_slotArg call 2) fun slot _ =>
        calm_bind (calm_minding (Atomic.minds_methodAt c slot)) fun m _ => Exec.calm_finish call _
  | getField =>
    exact isCaller_bind (reference 1) fun receiver _ => isCaller_bind (cls 2) fun c _ =>
      isCaller_bind (position 4) fun slot _ =>
        isCaller_bind (isCaller_getField c slot receiver) fun r _ => ends _
  | setField =>
    refine isCaller_bind (reference 1) fun receiver _ => isCaller_bind (cls 2) fun c _ =>
      isCaller_bind (position 4) fun slot _ => isCaller_bind (P := fun _ => True) ?_ fun given _ =>
        isCaller_bind (reference 5) fun value _ =>
          isCaller_bind (isCaller_setField c slot receiver given value) fun _ _ => ends _
    refine Exec.calm_keeping (calm_bind (Exec.calm_referenceArg call 3) fun r _ => ?_)
    cases r with
    | none => exact calm_pure trivial
    | some o =>
      dsimp only
      rw [← bind_pure_comp]
      exact calm_bind (Exec.calm_mirroredClass o) fun _ _ => calm_pure trivial
  | getPrimitiveField =>
    unfold memberNative
    dsimp only
    split
    · exact isCaller_throw _
    · exact isCaller_bind (reference 1) fun receiver _ => isCaller_bind (cls 2) fun c _ =>
        isCaller_bind (position 4) fun slot _ =>
          isCaller_bind (isCaller_getPrimitiveField c slot receiver _) fun v _ => ends _
  | setPrimitiveField =>
    exact isCaller_bind (reference 1) fun receiver _ => isCaller_bind (cls 2) fun c _ =>
      isCaller_bind (position 4) fun slot _ =>
        isCaller_bind (Exec.calm_arg call 5) fun value _ =>
          isCaller_bind (isCaller_setPrimitiveField c slot receiver value) fun _ _ => ends _
  | invoke =>
    exact isCaller_bind (reference 1) fun receiver _ => isCaller_bind (reference 2) fun args _ =>
      isCaller_bind (cls 3) fun c _ => isCaller_bind (position 4) fun slot _ =>
        isCaller_bind (isCaller_invokeMember c slot receiver args) fun r _ => ends _
  | construct =>
    exact isCaller_bind (reference 1) fun args _ => isCaller_bind (cls 2) fun c _ =>
      isCaller_bind (position 3) fun slot _ =>
        isCaller_bind (isCaller_construct c slot args) fun o _ => ends _

end Reporting

structure AnnotatedCode.IsCaller (code : AnnotatedCode η Report) : Prop where
  execute : ∀ m args, Reporting.IsCaller (fun _ => True) (code.execute m args)
  native : ∀ f call, Reporting.IsCaller (fun _ => True) (code.native f call)

end ManagedRuntime
