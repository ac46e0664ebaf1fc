import ManagedRuntime.Execution.Calls
import ManagedRuntime.Proofs.Execution.Annotated
import ManagedRuntime.Proofs.Execution.Runs
import Mathlib.Logic.Relation

/-!
Failures on the way, and how a program ends after one. A note is put where a part of a program fails,
and where a body fails that the program has asked for. Main statement: a call that the runtime makes
does nothing any more once the body it has asked for has failed, and ends with the failure of the body.
-/
namespace ManagedRuntime
variable {η ν α β : Type}

inductive Origin where
  /-- The body of a method, or a native in its place. -/
  | body
  /-- A call as a whole. -/
  | call
  /-- Making a string. -/
  | text
  /-- Reading a class file. -/
  | parser
  /-- Defining the class that was read. -/
  | definition
  /-- Taking an answer for a class. -/
  | answer
  deriving DecidableEq

structure Raised where
  origin : Origin
  failure : Failure
  deriving DecidableEq

namespace Annotated
variable {K : ν → α → Prop} {t : Annotated η ν α}

/-- Behind each of its notes the task only ends, with what `K` allows after the note. -/
inductive Concludes (K : ν → α → Prop) : Annotated η ν α → Prop
  | done {a : α} : Concludes K (.done a)
  | note {n : ν} {next : Annotated η ν α} {a : α} (ends : next.plain = .done a) (holds : K n a)
      (rest : Concludes K next) : Concludes K (.note n next)
  | act {β : Type} {env : Env} {f : World η → Option (β × World η)}
      {next : β → Annotated η ν α} (rest : ∀ b, Concludes K (next b)) :
      Concludes K (.act env f next)
  | execute {m : Method} {args : List Value} {env : Env}
      {next : Except Failure (Option Value) × Env → Annotated η ν α}
      (rest : ∀ r, Concludes K (next r)) : Concludes K (.execute m args env next)
  | native {f : NativeFunction} {call : NativeCall} {env : Env}
      {next : Except Failure Nat × Env → Annotated η ν α}
      (rest : ∀ r, Concludes K (next r)) : Concludes K (.native f call env next)

theorem Concludes.bind {g : α → Annotated η ν β} {K' : ν → β → Prop} (first : t.Concludes K)
    (rest : ∀ a, (g a).Concludes K')
    (after : ∀ n a, K n a → ∃ b, (g a).plain = .done b ∧ K' n b) : (t.bind g).Concludes K' := by
  induction first with
  | done => exact rest _
  | note ends holds _ ih =>
    obtain ⟨b, same, holds'⟩ := after _ _ holds
    refine .note ?_ holds' ih
    rw [plain_bind, ends]
    exact same
  | act _ ih => exact .act ih
  | execute _ ih => exact .execute ih
  | native _ ih => exact .native ih

theorem concludes_ofTask (t : Task η α) : (ofTask t : Annotated η ν α).Concludes K := by
  induction t with
  | done a => exact .done
  | act env f next ih => exact .act ih
  | execute m args env next ih => exact .execute ih
  | native f call env next ih => exact .native ih

/-! Getting on. -/

section steps
variable (code : Code η) (rely : World η → World η → Prop)

inductive Step : World η × Annotated η ν α → World η × Annotated η ν α → Prop where
  | note {w : World η} {n : ν} {next : Annotated η ν α} : Step (w, .note n next) (w, next)
  | act {w x v : World η} {β : Type} {env : Env} {f : World η → Option (β × World η)}
      {next : β → Annotated η ν α} {b : β} (refs : List ObjectId) (change : rely w x)
      (ran : f (x.during (env.references ++ refs)) = some (b, v)) :
      Step (w, .act env f next) (v, next b)
  | execute {w v : World η} {m : Method} {args : List Value} {env : Env}
      {next : Except Failure (Option Value) × Env → Annotated η ν α}
      {r : Except Failure (Option Value) × Env}
      (ran : Task.Runs code rely w ((code.execute m args).runIn env) r v) :
      Step (w, .execute m args env next) (v, next r)
  | native {w v : World η} {f : NativeFunction} {call : NativeCall} {env : Env}
      {next : Except Failure Nat × Env → Annotated η ν α} {r : Except Failure Nat × Env}
      (ran : Task.Runs code rely w ((code.native f call).runIn env) r v) :
      Step (w, .native f call env next) (v, next r)

abbrev Leads (x y : World η × Annotated η ν α) : Prop := Relation.ReflTransGen (Step code rely) x y

end steps

variable {code : Code η} {rely : World η → World η → Prop} {w v : World η}

/-- What the task leads to are the runs of the task without its notes. -/
theorem leads_done_iff {a : α} :
    Leads code rely (w, t) (v, .done a) ↔ Task.Runs code rely w t.plain a v := by
  constructor
  · have each (y : World η × Annotated η ν α) (leads : Leads code rely y (v, .done a)) :
        Task.Runs code rely y.1 y.2.plain a v := by
      induction leads using Relation.ReflTransGen.head_induction_on with
      | refl => exact .done _ _
      | head step _ ih =>
        cases step with
        | note => exact ih
        | act refs change ran => exact .act refs change ran ih
        | execute ran => exact .execute (ran.bind ih)
        | native ran => exact .native (ran.bind ih)
    exact each (w, t)
  · intro run
    induction t generalizing w with
    | done b =>
      obtain ⟨rfl, rfl⟩ := Task.runs_done_iff.mp run
      exact .refl
    | note n next ih => exact .head .note (ih run)
    | act env f next ih =>
      obtain ⟨x, refs, b, u, change, ran, rest⟩ := Task.runs_act_iff.mp run
      exact .head (.act refs change ran) (ih b rest)
    | execute m args env next ih =>
      obtain ⟨r, u, first, rest⟩ := Task.runs_bind_iff.mp (Task.runs_execute_iff.mp run)
      exact .head (.execute first) (ih r rest)
    | native f call env next ih =>
      obtain ⟨r, u, first, rest⟩ := Task.runs_bind_iff.mp (Task.runs_native_iff.mp run)
      exact .head (.native first) (ih r rest)

theorem Concludes.step {y z : World η × Annotated η ν α} (concludes : y.2.Concludes K)
    (step : Step code rely y z) : z.2.Concludes K := by
  cases step with
  | note =>
    cases concludes with
    | note _ _ rest => exact rest
  | act =>
    cases concludes with
    | act rest => exact rest _
  | execute =>
    cases concludes with
    | execute rest => exact rest _
  | native =>
    cases concludes with
    | native rest => exact rest _

theorem Concludes.leads {y z : World η × Annotated η ν α} (concludes : y.2.Concludes K)
    (leads : Leads code rely y z) : z.2.Concludes K := by
  induction leads with
  | refl => exact concludes
  | tail _ step ih => exact ih.step step

/-- Whatever has led to a note, nothing but the end comes after it. -/
theorem Concludes.after {n : ν} {next : Annotated η ν α} (concludes : t.Concludes K)
    (leads : Leads code rely (w, t) (v, .note n next)) : ∃ a, next.plain = .done a ∧ K n a := by
  have here := concludes.leads leads
  cases here with
  | note ends holds _ => exact ⟨_, ends, holds⟩

def nextNote? (code : Code η) : Nat → World η × Annotated η ν α →
    Option (World η × ν × Annotated η ν α)
  | 0, _ => none
  | _ + 1, (_, .done _) => none
  | _ + 1, (w, .note n next) => some (w, n, next)
  | fuel + 1, (w, .act env f next) =>
    (f (w.during (env.references ++ []))).bind fun r => nextNote? code fuel (r.2, next r.1)
  | fuel + 1, (w, .execute m args env next) =>
    (((code.execute m args).runIn env).runAlone code fuel w).bind fun r =>
      nextNote? code fuel (r.2, next r.1)
  | fuel + 1, (w, .native f call env next) =>
    (((code.native f call).runIn env).runAlone code fuel w).bind fun r =>
      nextNote? code fuel (r.2, next r.1)

theorem leads_of_nextNote? (refl : ∀ w, rely w w) {fuel : Nat} {n : ν} {next : Annotated η ν α}
    (found : nextNote? code fuel (w, t) = some (v, n, next)) :
    Leads code rely (w, t) (v, .note n next) := by
  induction fuel generalizing w t with
  | zero => cases found
  | succ fuel ih =>
    cases t with
    | done a => cases found
    | note m rest =>
      cases found
      exact .refl
    | act env f rest =>
      obtain ⟨⟨b, u⟩, ran, found⟩ := Option.bind_eq_some_iff.mp found
      exact .head (.act [] (refl w) ran) (ih found)
    | execute m args env rest =>
      obtain ⟨⟨r, u⟩, ran, found⟩ := Option.bind_eq_some_iff.mp found
      exact .head (.execute (Task.runs_of_runAlone refl ran)) (ih found)
    | native f call env rest =>
      obtain ⟨⟨r, u⟩, ran, found⟩ := Option.bind_eq_some_iff.mp found
      exact .head (.native (Task.runs_of_runAlone refl ran)) (ih found)

/-! Bodies that fail. -/

def noting (origin : Origin) (r : Except Failure β) (t : Annotated η Raised α) :
    Annotated η Raised α :=
  match r with
  | .ok _ => t
  | .error f => .note ⟨origin, f⟩ t

def notingBodies : Task η α → Annotated η Raised α
  | .done a => .done a
  | .act env f next => .act env f fun b => notingBodies (next b)
  | .execute m args env next =>
    .execute m args env fun r => noting .body r.1 (notingBodies (next r))
  | .native f call env next =>
    .native f call env fun r => noting .body r.1 (notingBodies (next r))

theorem plain_noting (origin : Origin) (r : Except Failure β) (t : Annotated η Raised α) :
    (noting origin r t).plain = t.plain := by
  cases r <;> rfl

theorem noting_bind (origin : Origin) (r : Except Failure γ) (t : Annotated η Raised α)
    (g : α → Annotated η Raised β) : (noting origin r t).bind g = noting origin r (t.bind g) := by
  cases r <;> rfl

theorem plain_notingBodies (t : Task η α) : (notingBodies t).plain = t := by
  induction t with
  | done a => rfl
  | act env f next ih => simp [notingBodies, plain, ih]
  | execute m args env next ih | native f call env next ih =>
    simp [notingBodies, plain, plain_noting, ih]

theorem notingBodies_bind (t : Task η α) (g : α → Task η β) :
    notingBodies (t.bind g) = (notingBodies t).bind fun a => notingBodies (g a) := by
  induction t with
  | done a => rfl
  | act env f next ih => simp [notingBodies, bind, Task.bind, ih]
  | execute m args env next ih | native f call env next ih =>
    simp [notingBodies, bind, Task.bind, noting_bind, ih]

inductive Tells : Annotated η Raised α → Prop
  | done {a : α} : Tells (.done a)
  | note {n : Raised} {next : Annotated η Raised α} (rest : Tells next) : Tells (.note n next)
  | act {β : Type} {env : Env} {f : World η → Option (β × World η)}
      {next : β → Annotated η Raised α} (rest : ∀ b, Tells (next b)) : Tells (.act env f next)
  | execute {m : Method} {args : List Value} {env : Env}
      {next : Except Failure (Option Value) × Env → Annotated η Raised α}
      (told : ∀ f e, ∃ t, next (.error f, e) = .note ⟨.body, f⟩ t) (rest : ∀ r, Tells (next r)) :
      Tells (.execute m args env next)
  | native {f : NativeFunction} {call : NativeCall} {env : Env}
      {next : Except Failure Nat × Env → Annotated η Raised α}
      (told : ∀ f e, ∃ t, next (.error f, e) = .note ⟨.body, f⟩ t) (rest : ∀ r, Tells (next r)) :
      Tells (.native f call env next)

theorem Tells.bind {t : Annotated η Raised α} {g : α → Annotated η Raised β} (first : t.Tells)
    (rest : ∀ a, (g a).Tells) : (t.bind g).Tells := by
  have goes_on {t : Annotated η Raised α} {f : Failure}
      (told : ∃ s, t = .note ⟨.body, f⟩ s) : ∃ s, t.bind g = .note ⟨.body, f⟩ s := by
    obtain ⟨s, rfl⟩ := told
    exact ⟨s.bind g, rfl⟩
  induction first with
  | done => exact rest _
  | note _ ih => exact .note ih
  | act _ ih => exact .act ih
  | execute told _ ih => exact .execute (fun f e => goes_on (told f e)) ih
  | native told _ ih => exact .native (fun f e => goes_on (told f e)) ih

theorem tells_notingBodies (t : Task η α) : (notingBodies t).Tells := by
  have noted {β : Type} {r : Except Failure β} {t : Annotated η Raised α} (tells : t.Tells) :
      (noting .body r t).Tells := by
    cases r with
    | ok b => exact tells
    | error f => exact .note tells
  induction t with
  | done a => exact .done
  | act env f next ih => exact .act ih
  | execute m args env next ih => exact .execute (fun f e => ⟨_, rfl⟩) fun r => noted (ih r)
  | native f call env next ih => exact .native (fun f e => ⟨_, rfl⟩) fun r => noted (ih r)

end Annotated

namespace Noting
variable {P Q : Failure → Failure → Prop}

def raising (origin : Origin) (x : Noting η Raised α) : Noting η Raised α := do
  match ← x.outcome with
  | .ok a => return a
  | .error f =>
    note ⟨origin, f⟩
    throw f

def raisingBodies (x : Exec η α) : Noting η Raised α :=
  ExceptT.mk fun env => .notingBodies (x.runIn env)

def releasing (x : Noting η Raised α) : Noting η Raised α := do
  let before := (← get).held
  let r ← x.outcome
  let kept := match r with
    | .ok _ => []
    | .error f => f.objects
  modify ({ · with held := kept ++ before })
  conclude r

theorem plain_raising (origin : Origin) (x : Noting η Raised α) :
    (raising origin x).plain = x.plain := by
  refine Eq.trans ?_ (outcome_bind_conclude x.plain)
  rw [raising, plain_bind, plain_outcome]
  refine congrArg _ (funext fun r => ?_)
  cases r <;> rfl

theorem plain_raisingBodies (x : Exec η α) : (raisingBodies x).plain = x := by
  funext env
  exact Annotated.plain_notingBodies _

theorem plain_releasing (x : Noting η Raised α) : (releasing x).plain = Exec.releasing x.plain := by
  simp only [releasing, Exec.releasing, Exec.keeping, plain_bind, plain_outcome, plain_conclude]
  rfl

/-- After each failure that the program notes it does nothing any more, and fails with a failure that
stands to that one as `P` says. -/
def Concludes (P : Failure → Failure → Prop) (x : Noting η Raised α) : Prop :=
  ∀ env, (x.runIn env).Concludes fun n r => ∃ g, r.1 = .error g ∧ P n.failure g

def Fails (x : Noting η Raised α) (f : Failure) : Prop :=
  ∀ env, ∃ e, (x.runIn env).plain = .done (.error f, e)

theorem concludes_ofExec (x : Exec η α) : (ofExec x : Noting η Raised α).Concludes P :=
  fun _ => Annotated.concludes_ofTask _

theorem concludes_bind {x : Noting η Raised α} {g : α → Noting η Raised β} (first : x.Concludes P)
    (rest : ∀ a, (g a).Concludes P) : (x >>= g).Concludes P := by
  intro env
  rw [show (x >>= g).runIn env = (x.runIn env).bind _ from rfl]
  refine (first env).bind (fun (r, e) => ?_) fun n (r, e) holds => ?_
  · cases r with
    | error f => exact .done
    | ok a => exact rest a e
  · obtain ⟨f, rfl, kept⟩ := holds
    exact ⟨(.error f, e), rfl, f, rfl, kept⟩

theorem concludes_discard {x : Noting η Raised α} (concludes : x.Concludes P) :
    (discard x).Concludes P := by
  intro env
  refine (concludes env).bind (fun (r, e) => ?_) fun n (r, e) holds => ?_
  · cases r <;> exact .done
  · obtain ⟨f, rfl, kept⟩ := holds
    exact ⟨(.error f, e), rfl, f, rfl, kept⟩

theorem concludes_outcome_bind {x : Noting η Raised α} {g : Except Failure α → Noting η Raised β}
    (first : x.Concludes P) (rest : ∀ r, (g r).Concludes Q)
    (after : ∀ f h, P f h → ∃ h', (g (.error h)).Fails h' ∧ Q f h') :
    (x.outcome >>= g).Concludes Q := by
  intro env
  rw [runIn_outcome_bind]
  refine (first env).bind (fun (r, e) => rest r e) fun n (r, e) holds => ?_
  obtain ⟨h, rfl, kept⟩ := holds
  obtain ⟨h', fails, kept'⟩ := after n.failure h kept
  obtain ⟨e', ends⟩ := fails e
  exact ⟨(.error h', e'), ends, h', rfl, kept'⟩

theorem concludes_raising {x : Noting η Raised α} (refl : ∀ f, P f f) (origin : Origin)
    (concludes : x.Concludes P) : (raising origin x).Concludes P := by
  refine concludes_outcome_bind concludes (fun r => ?_) fun f h kept => ?_
  · cases r with
    | ok a => exact concludes_ofExec (pure a)
    | error f => exact fun env => .note rfl ⟨f, rfl, refl f⟩ .done
  · exact ⟨h, fun env => ⟨env, rfl⟩, kept⟩

theorem concludes_releasing {x : Noting η Raised α} (concludes : x.Concludes P) :
    (releasing x).Concludes P := by
  apply concludes_bind (concludes_ofExec get)
  intro before
  refine concludes_outcome_bind concludes (fun r => ?_) fun f h kept => ?_
  · exact concludes_bind (concludes_ofExec (modify _)) fun _ => concludes_ofExec (Exec.conclude r)
  · exact ⟨h, fun env => ⟨_, rfl⟩, kept⟩

def Tells (x : Noting η Raised α) : Prop := ∀ env, (x.runIn env).Tells

theorem tells_raisingBodies (x : Exec η α) : (raisingBodies x).Tells :=
  fun _ => Annotated.tells_notingBodies _

theorem tells_conclude (r : Except Failure α) : (conclude r : Noting η Raised α).Tells :=
  fun _ => .done

theorem tells_act (x : Atomic η α) : (ofExec (Exec.act x) : Noting η Raised α).Tells :=
  fun _ => .act fun _ => .done

theorem tells_bind {x : Noting η Raised α} {g : α → Noting η Raised β} (first : x.Tells)
    (rest : ∀ a, (g a).Tells) : (x >>= g).Tells := by
  intro env
  apply (first env).bind
  rintro ⟨r, e⟩
  cases r with
  | error f => exact .done
  | ok a => exact rest a e

theorem tells_discard {x : Noting η Raised α} (tells : x.Tells) : (discard x).Tells := by
  intro env
  apply (tells env).bind
  rintro ⟨r, e⟩
  cases r <;> exact .done

theorem tells_outcome_bind {x : Noting η Raised α} {g : Except Failure α → Noting η Raised β}
    (first : x.Tells) (rest : ∀ r, (g r).Tells) : (x.outcome >>= g).Tells := by
  intro env
  rw [runIn_outcome_bind]
  exact (first env).bind fun (r, e) => rest r e

theorem tells_raising {x : Noting η Raised α} (origin : Origin) (tells : x.Tells) :
    (raising origin x).Tells := by
  apply tells_outcome_bind tells
  intro r
  cases r with
  | ok a => exact tells_conclude (.ok a)
  | error f => exact fun env => .note .done

theorem tells_releasing {x : Noting η Raised α} (tells : x.Tells) : (releasing x).Tells := by
  apply tells_bind (fun _ => .done : Tells (ofExec get))
  intro before
  exact tells_outcome_bind tells fun r _ => .done

end Noting

/-! Bodies that a call asks for. -/

namespace Exec
open Noting
variable {P : Failure → Failure → Prop} {x : Exec η α}

/-- After a failure of a body that it has asked for, the program does nothing any more, and fails as
`P` says. -/
def Passes (P : Failure → Failure → Prop) (x : Exec η α) : Prop := (raisingBodies x).Concludes P

theorem raisingBodies_bind (x : Exec η α) (g : α → Exec η β) :
    raisingBodies (x >>= g) = raisingBodies x >>= fun a => raisingBodies (g a) := by
  funext env
  refine (Annotated.notingBodies_bind (x.runIn env) _).trans (congrArg (Annotated.bind _) ?_)
  funext ⟨r, e⟩
  cases r <;> rfl

theorem raisingBodies_outcome (x : Exec η α) :
    raisingBodies (outcome x) = (raisingBodies x).outcome := by
  funext env
  exact Annotated.notingBodies_bind (x.runIn env) _

theorem passes_conclude (r : Except Failure α) : Passes P (conclude r : Exec η α) :=
  fun _ => .done

theorem passes_onEnv (f : Env → Except Failure α × Env) : Passes P (onEnv f : Exec η α) :=
  fun _ => .done

theorem passes_act (x : Atomic η α) : Passes P (act x) :=
  fun _ => .act fun _ => .done

theorem passes_bind {g : α → Exec η β} (first : Passes P x) (rest : ∀ a, Passes P (g a)) :
    Passes P (x >>= g) := by
  unfold Passes
  rw [raisingBodies_bind]
  exact concludes_bind first rest

theorem passes_get_bind {g : Env → Exec η α} (each : ∀ env, Passes P (g env)) :
    Passes P (get >>= g) := fun env => each env env

theorem passes_modify_bind {f : Env → Env} {g : PUnit → Exec η α} (rest : Passes P (g ())) :
    Passes P (modify f >>= g) := fun env => rest (f env)

theorem passes_outcome_bind {g : Except Failure α → Exec η β} (first : Passes P x)
    (rest : ∀ r, Passes P (g r))
    (after : ∀ f env, ∃ e, (g (.error f)).runIn env = .done (.error f, e)) :
    Passes P (outcome x >>= g) := by
  unfold Passes
  rw [raisingBodies_bind, raisingBodies_outcome]
  refine concludes_outcome_bind first rest fun f h kept => ⟨h, fun env => ?_, kept⟩
  obtain ⟨e, ends⟩ := after h env
  refine ⟨e, Eq.trans ?_ ends⟩
  exact Annotated.plain_notingBodies _

theorem passes_execute (refl : ∀ f, P f f) (m : Method) (args : List Value) :
    Passes P (execute m args : Exec η _) := by
  intro env
  apply Annotated.Concludes.execute
  rintro ⟨r, e⟩
  cases r with
  | ok v => exact .done
  | error f => exact .note rfl ⟨f, rfl, refl f⟩ .done

theorem passes_native (refl : ∀ f, P f f) (f : NativeFunction) (call : NativeCall) :
    Passes P (native f call : Exec η Nat) := by
  intro env
  apply Annotated.Concludes.native
  rintro ⟨r, e⟩
  cases r with
  | ok top => exact .done
  | error f => exact .note rfl ⟨f, rfl, refl f⟩ .done

theorem passes_keeping (refs : α → List ObjectId) (passes : Passes P x) :
    Passes P (keeping refs x) := by
  refine passes_get_bind fun before => passes_outcome_bind passes (fun r => ?_) fun f env => ⟨_, rfl⟩
  exact passes_modify_bind (passes_conclude r)

theorem passes_onFrame (f : Frame) (passes : Passes P x) : Passes P (onFrame f x) := by
  refine passes_modify_bind (passes_outcome_bind passes (fun r => ?_) fun f env => ⟨_, rfl⟩)
  exact passes_modify_bind (passes_conclude r)

theorem passes_truncatingTo (base : Nat) (passes : Passes P x) :
    Passes P (truncatingTo base x) := by
  refine passes_outcome_bind passes (fun r => ?_) fun f env => ⟨_, rfl⟩
  cases r with
  | ok a => exact passes_conclude (.ok a)
  | error f => exact passes_modify_bind (passes_conclude (.error f))

theorem passes_runBound (refl : ∀ f, P f f) (m : Method) (base : Nat) :
    Passes P (runBound m base : Exec η Nat) := by
  refine passes_bind (passes_act _) fun f => passes_bind ?_ fun top => ?_
  · exact passes_onFrame _ (passes_keeping _ (passes_native refl f _))
  · apply passes_get_bind
    intro env
    split
    · exact passes_conclude (.ok top)
    · exact passes_conclude (.error _)

theorem passes_invokeNative (refl : ∀ f, P f f) (m : Method) :
    Passes P (invokeNative m : Exec η Nat) := by
  refine passes_outcome_bind ?_ (fun r => ?_) fun f env => ⟨_, rfl⟩
  · apply passes_get_bind
    intro env
    dsimp only
    split
    · exact passes_conclude (.error _)
    · exact passes_truncatingTo _ (passes_runBound refl m _)
  · cases r with
    | ok top => exact passes_conclude (.ok top)
    | error f => exact passes_modify_bind (passes_conclude (.error f))

theorem passes_takeResult (m : Method) (base : Nat) :
    Passes P (takeResult m base : Exec η _) := by
  unfold takeResult
  split
  · exact passes_modify_bind (passes_conclude (.ok none))
  · apply passes_get_bind
    intro env
    split
    · exact passes_conclude (.error _)
    · exact passes_modify_bind (passes_conclude (.ok _))

theorem passes_callOnStack (refl : ∀ f, P f f) (m : Method) (args : List Value) :
    Passes P (callOnStack m args : Exec η _) := by
  apply passes_get_bind
  intro env
  dsimp only
  split
  · exact passes_conclude (.error _)
  refine passes_bind (passes_get_bind fun env => ?_) fun _ => ?_
  · exact passes_bind (passes_conclude _) fun _ => passes_onEnv _
  · refine passes_outcome_bind (passes_invokeNative refl m) (fun r => ?_) fun f env => ⟨_, rfl⟩
    cases r with
    | ok top => exact passes_takeResult m _
    | error f => exact passes_modify_bind (passes_conclude (.error f))

theorem passes_callMethod (refl : ∀ f, P f f) (m : Method) (args : List Value) :
    Passes P (callMethod m args : Exec η _) := by
  have body : Passes P (if m.isNative then callOnStack m args
      else onFrame (.real m) (execute m args) : Exec η _) := by
    split
    · exact passes_callOnStack refl m args
    · exact passes_onFrame _ (passes_execute refl m args)
  unfold callMethod
  dsimp only
  by_cases abstract : m.isAbstract = true
  · rw [if_pos abstract]
    exact passes_conclude (.error _)
  rw [if_neg abstract]
  by_cases count : args.length ≠ m.arity
  · rw [if_pos count]
    exact passes_conclude (.error _)
  · rw [if_neg count]
    exact passes_keeping _ (passes_modify_bind (passes_onFrame _ body))

theorem passes_callVirtual (refl : ∀ f, P f f) (receiver : ObjectId) (name descriptor : String)
    (args : List Value) : Passes P (callVirtual receiver name descriptor args : Exec η _) := by
  apply passes_bind (passes_act _)
  rintro ⟨found, className⟩
  cases found with
  | none => exact passes_conclude (.error _)
  | some m => exact passes_callMethod refl m _

end Exec
end ManagedRuntime
