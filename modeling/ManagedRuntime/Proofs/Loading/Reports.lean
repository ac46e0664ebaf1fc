import ManagedRuntime.Proofs.World.Minding

/-!
Requests for initialised classes, with reports of what becomes of each class: when a thread takes it
in hand, calls its initialiser, sees it fail, and is told the outcome, and what all others are told.
A bystander is a program that asks for classes and otherwise minds them. Main statements: without its
reports a request is the runtime's own program, and a call is a bystander, whatever method is called.
-/
namespace ManagedRuntime
variable {η α β : Type}

inductive Remark where
  /-- A reflective call of `n` is about to run `m`. -/
  | invokes (n m : Method)
  /-- The reflective making of an object is about to run `m` on it. -/
  | constructs (m : Method)
  /-- The body of `m`, or the function bound to it, is about to run. -/
  | enters (m : Method)

inductive Report where
  | asks (c : ClassId) (thread : ThreadId)
  | begins (c : ClassId)
  | starts (c : ClassId)
  /-- The initialiser that was called has failed. -/
  | fails (c : ClassId) (f : Failure)
  /-- What the thread in charge is told. -/
  | receives (c : ClassId) (r : Except Failure Unit)
  /-- What a thread is told that finds the class in hand or done. -/
  | answers (c : ClassId) (r : Except Failure Unit)
  | remarks (k : Remark)

namespace Reporting
open Noting

def answering (c : ClassId) (x : Noting η Report Unit) : Noting η Report Unit := do
  let r ← x.outcome
  note (.answers c r)
  conclude r

def raising (name : String) (f : Failure) : Noting η Report Unit := do
  if ← ofExec (Exec.act (Atomic.ask (Exec.isError · f))) then throw f
  else throw (.exceptionInInitializer name f)

def callInitializer (c : ClassId) (name : String) (m : Method) : Noting η Report Unit := do
  match ← (ofExec (Exec.releasing (discard (Exec.callMethod m [])))).outcome with
  | .ok () => return
  | .error f =>
    note (.fails c f)
    raising name f

def runInitializer (c : ClassId) : Noting η Report Unit := do
  let x ← ofExec (Exec.act (Atomic.ask (·.cls c)))
  match x.initializer? with
  | none => return
  | some m =>
    note (.starts c)
    callInitializer c x.name m

def superclassFirst (ask : ClassId → Noting η Report Unit) (c : ClassId) :
    Noting η Report Unit := do
  match (← ofExec (Exec.act (Atomic.ask (·.cls c)))).superclass with
  | none => runInitializer c
  | some s =>
    ask s
    runInitializer c

def finishing (c : ClassId) (r : Except Failure Unit) : Noting η Report Unit := do
  ofExec (Exec.act (modify (Exec.setPhase c (.finish r))))
  note (.receives c r)
  conclude r

def requestWithin : Nat → ClassId → Noting η Report Unit
  | 0, _ => return
  | n + 1, c => do
    match ← ofExec (Exec.requestInit c) with
    | .available => answering c (pure ())
    | .failed f => answering c do
      let x ← ofExec (Exec.act (Atomic.ask (·.cls c)))
      throw (.noClassDefFoundFrom x.name f)
    | .proceed =>
      note (.begins c)
      let r ← outcome (superclassFirst (requestWithin n) c)
      finishing c r

def request (c : ClassId) : Noting η Report Unit := do
  let me := (← get).thread
  note (.asks c me)
  requestWithin (c.index + 1) c

theorem plain_answering (c : ClassId) (x : Noting η Report Unit) :
    (answering c x).plain = x.plain := by
  rw [answering, plain_bind, plain_outcome]
  exact outcome_bind_conclude x.plain

theorem plain_callInitializer (c : ClassId) (name : String) (m : Method) :
    (callInitializer c name m : Noting η Report Unit).plain = Exec.callInitializer name m := by
  rw [callInitializer, plain_bind, plain_outcome, plain_ofExec, Exec.callInitializer]
  congr
  funext r
  cases r with
  | ok a => rfl
  | error f =>
    refine (plain_bind (ofExec (Exec.act (Atomic.ask (Exec.isError · f)))) _).trans ?_
    rw [plain_ofExec]
    congr
    funext unwrapped
    cases unwrapped <;> rfl

theorem plain_runInitializer (c : ClassId) :
    (runInitializer c : Noting η Report Unit).plain = Exec.runInitializer c := by
  rw [runInitializer, plain_bind, plain_ofExec, Exec.runInitializer]
  congr
  funext x
  cases x.initializer? with
  | none => rfl
  | some m => exact plain_callInitializer c x.name m

theorem plain_requestWithin (n : Nat) (c : ClassId) :
    (requestWithin n c : Noting η Report Unit).plain = Exec.initializeWithin n c := by
  induction n generalizing c with
  | zero => rfl
  | succ n ih =>
    rw [requestWithin, plain_bind, plain_ofExec, Exec.initializeWithin]
    congr
    funext decision
    cases decision with
    | available => exact plain_answering c (pure ())
    | failed f =>
      refine (plain_answering c _).trans ?_
      rw [plain_bind, plain_ofExec]
      rfl
    | proceed =>
      refine (plain_bind (outcome (superclassFirst (requestWithin n) c)) (finishing c)).trans ?_
      simp only [superclassFirst, plain_bind, plain_outcome, plain_ofExec]
      congr
      · funext x
        cases x.superclass with
        | none => exact plain_runInitializer c
        | some s => rw [plain_bind, ih, plain_runInitializer]
      · funext r
        exact (plain_bind _ _).trans (congrArg (· >>= _) (plain_ofExec _))

theorem plain_request (c : ClassId) :
    (request c : Noting η Report Unit).plain = Exec.initializeClass c := by
  funext env
  exact congrFun (plain_requestWithin (c.index + 1) c) env

end Reporting

/-- A task that asks for classes, and whose own actions mind them. -/
inductive Bystander : Annotated η Report α → Prop where
  | done {a : α} : Bystander (.done a)
  | remark {k : Remark} {next : Annotated η Report α} (rest : Bystander next) :
      Bystander (.note (.remarks k) next)
  | act {β : Type} {env : Env} {f : World η → Option (β × World η)}
      {next : β → Annotated η Report α} (minds : ActionWithin World.Minds f)
      (rest : ∀ w b v, w.registry.Built → f w = some (b, v) → Bystander (next b)) :
      Bystander (.act env f next)
  | execute {m : Method} {args : List Value} {env : Env}
      {next : Except Failure (Option Value) × Env → Annotated η Report α}
      (rest : ∀ r, Bystander (next r)) : Bystander (.execute m args env next)
  | native {f : NativeFunction} {call : NativeCall} {env : Env}
      {next : Except Failure Nat × Env → Annotated η Report α}
      (rest : ∀ r, Bystander (next r)) : Bystander (.native f call env next)
  | request {c : ClassId} {env : Env} {next : Except Failure Unit × Env → Annotated η Report α}
      (rest : ∀ r, Bystander (next r)) :
      Bystander (((Reporting.request c).runIn env).bind next)

theorem Bystander.bind {x : Annotated η Report α} {g : α → Annotated η Report β}
    (first : Bystander x) (rest : ∀ a, Bystander (g a)) : Bystander (x.bind g) := by
  induction first with
  | done => exact rest _
  | remark _ ih => exact .remark ih
  | act minds _ ih => exact .act minds ih
  | execute _ ih => exact .execute ih
  | native _ ih => exact .native ih
  | request _ ih =>
    rw [Annotated.bind_assoc]
    exact .request ih

theorem Bystander.ofTask {x : Task η α} (minds : x.Within World.Minds) :
    Bystander (.ofTask x) := by
  induction minds with
  | done => exact .done
  | act minds _ ih => exact .act minds fun _ b _ _ _ => ih b
  | execute _ ih => exact .execute ih
  | native _ ih => exact .native ih

namespace Reporting
open Noting

def IsBystander (x : Noting η Report α) : Prop := ∀ env, Bystander (x.runIn env)

theorem isBystander_throw (f : Failure) : IsBystander (throw f : Noting η Report α) :=
  fun _ => .done

theorem isBystander_request (c : ClassId) : IsBystander (request c : Noting η Report Unit) := by
  intro env
  rw [← Annotated.bind_done ((request c).runIn env)]
  exact .request fun _ => .done

theorem isBystander_bind {x : Noting η Report α} {g : α → Noting η Report β}
    (first : IsBystander x) (rest : ∀ a, IsBystander (g a)) : IsBystander (x >>= g) := by
  intro env
  rw [show (x >>= g).runIn env = (x.runIn env).bind _ from rfl]
  refine (first env).bind fun (r, e) => ?_
  cases r with
  | error f => exact isBystander_throw f e
  | ok a => exact rest a e

theorem isBystander_callMethod (m : Method) (args : List Value) :
    IsBystander (ofExec (Exec.callMethod m args) : Noting η Report _) :=
  fun env => .ofTask (Exec.within_callMethod Atomic.minds_link m args env)

end Reporting

structure AnnotatedCode.IsBystander (code : AnnotatedCode η Report) : Prop where
  execute : ∀ m args, Reporting.IsBystander (code.execute m args)
  native : ∀ f call, Reporting.IsBystander (code.native f call)

end ManagedRuntime
