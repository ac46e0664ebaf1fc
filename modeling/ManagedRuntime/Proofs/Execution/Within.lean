import ManagedRuntime.Loading.Initialization
import ManagedRuntime.Proofs.World.Running

/-!
Programs whose own actions keep to a relation between shared states. What such a program asks to be
run is not its own. Main statements: a call keeps to the relation if the binding of natives does,
whatever method is called, and an initialisation does if changes of phases do too.
-/
namespace ManagedRuntime
variable {η α β : Type} {R : World η → World η → Prop}

def ActionWithin (R : World η → World η → Prop) (f : World η → Option (β × World η)) : Prop :=
  ∀ w b w', f w = some (b, w') → R w w'

inductive Task.Within (R : World η → World η → Prop) : Task η α → Prop where
  | done {a : α} : Within R (.done a)
  | act {β : Type} {env : Env} {f : World η → Option (β × World η)} {next : β → Task η α}
      (keeps : ActionWithin R f) (rest : ∀ b, Within R (next b)) : Within R (.act env f next)
  | execute {m : Method} {args : List Value} {env : Env}
      {next : Except Failure (Option Value) × Env → Task η α} (rest : ∀ r, Within R (next r)) :
      Within R (.execute m args env next)
  | native {f : NativeFunction} {call : NativeCall} {env : Env}
      {next : Except Failure Nat × Env → Task η α} (rest : ∀ r, Within R (next r)) :
      Within R (.native f call env next)

theorem Task.Within.bind {x : Task η α} {g : α → Task η β} (first : x.Within R)
    (rest : ∀ a, (g a).Within R) : (x.bind g).Within R := by
  induction first with
  | done => exact rest _
  | act keeps _ ih => exact .act keeps ih
  | execute _ ih => exact .execute ih
  | native _ ih => exact .native ih

def Atomic.Within (R : World η → World η → Prop) (x : Atomic η α) : Prop :=
  ∀ w, R w (x.runOn w).2

theorem Atomic.Within.bind {x : Atomic η α} {g : α → Atomic η β}
    (trans : ∀ {w v u}, R w v → R v u → R w u) (first : x.Within R)
    (rest : ∀ a, (g a).Within R) : (x >>= g).Within R := by
  intro w
  have before := first w
  rw [runOn_bind]
  generalize x.runOn w = result at before ⊢
  rcases result with ⟨f | a, v⟩
  · exact before
  · exact trans before (rest a v)

namespace Exec

def Within (R : World η → World η → Prop) (x : Exec η α) : Prop := ∀ env, (x.runIn env).Within R

theorem within_conclude (r : Except Failure α) : Within R (conclude r : Exec η α) := fun _ => .done

theorem within_pure (a : α) : Within R (pure a : Exec η α) := fun _ => .done

theorem within_throw (f : Failure) : Within R (throw f : Exec η α) := fun _ => .done

theorem within_modify (f : Env → Env) : Within R (modify f : Exec η PUnit) := fun _ => .done

theorem within_onEnv (f : Env → Except Failure α × Env) : Within R (onEnv f : Exec η α) :=
  fun _ => .done

theorem within_bind {x : Exec η α} {g : α → Exec η β} (first : Within R x)
    (rest : ∀ a, Within R (g a)) : Within R (x >>= g) := by
  intro env
  rw [show (x >>= g).runIn env = (x.runIn env).bind _ from rfl]
  refine (first env).bind fun (r, e) => ?_
  cases r with
  | error f => exact .done
  | ok a => exact rest a e

theorem within_throw_bind (f : Failure) (g : α → Exec η β) : Within R (throw f >>= g) :=
  fun _ => .done

theorem within_get_bind {g : Env → Exec η β} (rest : ∀ e, Within R (g e)) :
    Within R (get >>= g) := fun env => rest env env

theorem within_outcome {x : Exec η α} (keeps : Within R x) : Within R (outcome x) := by
  intro env
  rw [show (outcome x).runIn env = (x.runIn env).bind _ from rfl]
  exact (keeps env).bind fun _ => .done

theorem within_discard {x : Exec η α} (keeps : Within R x) : Within R (discard x) := by
  intro env
  rw [show (discard x).runIn env = (x.runIn env).bind _ from rfl]
  refine (keeps env).bind fun (r, e) => ?_
  cases r <;> exact .done

theorem within_await {f : World η → Option (Except Failure α × World η)}
    (keeps : ∀ w r w', f w = some (r, w') → R w w') : Within R (await f) := by
  intro env
  refine .act (fun w b w' step => ?_) fun b => .done
  obtain ⟨⟨r, v⟩, found, same⟩ := Option.map_eq_some_iff.mp step
  cases same
  exact keeps w r v found

theorem within_act {x : Atomic η α} (keeps : x.Within R) : Within R (act x) := by
  refine within_await fun w r w' step => ?_
  have kept := keeps w
  rwa [Option.some.inj step] at kept

theorem within_ask (refl : ∀ w, R w w) (f : World η → α) : Within R (act (Atomic.ask f)) :=
  within_act refl

theorem within_execute (m : Method) (args : List Value) : Within R (execute m args : Exec η _) :=
  fun _ => .execute fun _ => .done

theorem within_native (f : NativeFunction) (call : NativeCall) :
    Within R (native f call : Exec η _) := fun _ => .native fun _ => .done

theorem within_keeping {refs : α → List ObjectId} {x : Exec η α} (keeps : Within R x) :
    Within R (keeping refs x) :=
  within_get_bind fun _ => within_bind (within_outcome keeps) fun r =>
    within_bind (within_modify _) fun _ => within_conclude r

theorem within_onFrame (f : Frame) {x : Exec η α} (keeps : Within R x) : Within R (onFrame f x) :=
  within_bind (within_modify _) fun _ => within_bind (within_outcome keeps) fun r =>
    within_bind (within_modify _) fun _ => within_conclude r

theorem within_truncatingTo (base : Nat) {x : Exec η α} (keeps : Within R x) :
    Within R (truncatingTo base x) := by
  refine within_bind (within_outcome keeps) fun r => ?_
  cases r with
  | ok a => exact within_pure a
  | error f => exact within_bind (within_modify _) fun _ => within_throw f

theorem within_takeResult (m : Method) (base : Nat) : Within R (takeResult m base : Exec η _) := by
  unfold takeResult
  split
  · exact within_bind (within_modify _) fun _ => within_pure none
  · refine within_get_bind fun e => ?_
    split
    · exact within_throw _
    · exact within_bind (within_modify _) fun _ => within_pure _

/-! A call, from the inside out. -/

section calls
variable (link : ∀ m : Method, (Atomic.link m : Atomic η _).Within R)
include link

theorem within_runBound (m : Method) (base : Nat) : Within R (runBound m base : Exec η Nat) := by
  unfold runBound
  refine within_bind (within_act (link m)) fun f => ?_
  refine within_bind (within_onFrame _ (within_keeping (within_native f _))) fun top => ?_
  refine within_get_bind fun e => ?_
  split
  · exact within_pure top
  · exact within_throw _

theorem within_dispatch (m : Method) : Within R (dispatch m : Exec η Nat) := by
  unfold dispatch
  refine within_get_bind fun e => ?_
  dsimp only
  split
  · exact within_throw_bind _ _
  · exact within_truncatingTo _ (within_runBound link m _)

theorem within_invokeNative (m : Method) : Within R (invokeNative m : Exec η Nat) := by
  refine within_bind (within_outcome (within_dispatch link m)) fun r => ?_
  cases r with
  | ok top => exact within_pure top
  | error f => exact within_bind (within_modify _) fun _ => within_throw f

theorem within_callOnStack (m : Method) (args : List Value) :
    Within R (callOnStack m args : Exec η _) := by
  have pushes (slots : List Slot) : Within R (pushArguments slots : Exec η Unit) :=
    within_get_bind fun e => within_bind (within_conclude _) fun _ => within_onEnv _
  unfold callOnStack
  refine within_get_bind fun e => ?_
  dsimp only
  split
  · exact within_throw_bind _ _
  refine within_bind (pushes _) fun _ =>
    within_bind (within_outcome (within_invokeNative link m)) fun r => ?_
  cases r with
  | ok top => exact within_takeResult m _
  | error f => exact within_bind (within_modify _) fun _ => within_throw f

theorem within_callMethod (m : Method) (args : List Value) :
    Within R (callMethod m args : Exec η _) := by
  unfold callMethod
  dsimp only
  split
  · exact within_throw_bind _ _
  split
  · exact within_throw_bind _ _
  refine within_keeping (within_bind (within_modify _) fun _ => within_onFrame _ ?_)
  split
  · exact within_callOnStack link m args
  · exact within_onFrame _ (within_execute m args)

theorem within_callVirtual (refl : ∀ w, R w w) (receiver : ObjectId) (name descriptor : String)
    (args : List Value) : Within R (callVirtual receiver name descriptor args : Exec η _) := by
  refine within_bind (within_ask refl _) fun (found, className) => ?_
  cases found with
  | none => exact within_throw _
  | some m => exact within_callMethod link m _

/-! An initialisation. -/

variable (refl : ∀ w, R w w)
include refl

theorem within_callInitializer (name : String) (m : Method) :
    Within R (callInitializer name m : Exec η Unit) := by
  have call : Within R (discard (callMethod m []) : Exec η Unit) :=
    within_discard (within_callMethod link m [])
  unfold callInitializer
  refine within_bind (within_outcome (within_keeping call)) fun r => ?_
  cases r with
  | ok a => exact within_pure ()
  | error f =>
    refine within_bind (within_ask refl _) fun unwrapped => ?_
    split
    · exact within_throw f
    · exact within_throw _

theorem within_runInitializer (c : ClassId) : Within R (runInitializer c : Exec η Unit) := by
  refine within_bind (within_ask refl _) fun x => ?_
  split
  · exact within_pure ()
  · exact within_callInitializer link refl _ _

theorem within_initializeClass (phase : ∀ c p (w : World η), R w (setPhase c p w)) (c : ClassId) :
    Within R (initializeClass c : Exec η Unit) := by
  have within (n : Nat) (c : ClassId) : Within R (initializeWithin n c : Exec η Unit) := by
    induction n generalizing c with
    | zero => exact within_pure ()
    | succ n ih =>
      have asks : Within R (requestInit c : Exec η InitDecision) := by
        refine within_get_bind fun e => within_await fun w r w' step => ?_
        obtain ⟨⟨decision, p⟩, -, same⟩ := Option.map_eq_some_iff.mp step
        cases same
        exact phase c p w
      refine within_bind asks fun decision => ?_
      cases decision with
      | available => exact within_pure ()
      | failed f => exact within_bind (within_ask refl _) fun x => within_throw _
      | proceed =>
        refine within_bind (within_outcome ?_) fun r => ?_
        · refine within_bind (within_ask refl _) fun x => ?_
          split
          · exact within_runInitializer link refl c
          · exact within_bind (ih _) fun _ => within_runInitializer link refl c
        · exact within_bind (within_act fun w => phase c (.finish r) w) fun _ => within_conclude r
  exact within _ c

end calls

end Exec
end ManagedRuntime
