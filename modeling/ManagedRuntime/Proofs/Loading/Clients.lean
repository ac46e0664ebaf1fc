import ManagedRuntime.Proofs.Class.Links
import ManagedRuntime.Proofs.Execution.Within
import ManagedRuntime.Proofs.Loading.Requests

/-!
Clients of initialisation: programs whose own actions leave the phases of classes alone, and which
may ask for any class at any time. Main statement: a call is one, whatever method is called.
-/
namespace ManagedRuntime
variable {η α β : Type}

namespace Registry
variable {r r' r'' : Registry}

structure Quiet (r r' : Registry) : Prop where
  ordered : r.Ordered → r'.Ordered
  size : r.loaded.size ≤ r'.loaded.size
  cls : ∀ c : ClassId, c.index < r.loaded.size → r'.cls c = r.cls c
  phase : ∀ c : ClassId, c.index < r.loaded.size → (r'.state c).phase = (r.state c).phase
  added : ∀ c : ClassId, r.loaded.size ≤ c.index → c.index < r'.loaded.size →
    (r'.state c).phase = (ClassState.initial (r'.cls c)).phase

theorem Quiet.refl (r : Registry) : Quiet r r where
  ordered := id
  size := Nat.le_refl _
  cls _ _ := rfl
  phase _ _ := rfl
  added c outside there := by omega

theorem Quiet.modifyState {c : ClassId} {f : ClassState → ClassState}
    (keeps : (f (r.state c)).phase = (r.state c).phase) : Quiet r (r.modifyState c f) where
  ordered ordered := ordered.modifyState c f
  size := Nat.le_of_eq (size_modifyState c f).symm
  cls d _ := cls_modifyState c f d
  phase d _ := by
    rw [state_modifyState]
    split
    · rename_i same
      rw [same.1]
      exact keeps
    · rfl
  added d outside there := by
    rw [size_modifyState] at there
    omega

end Registry

def QuietAction (f : World η → Option (β × World η)) : Prop :=
  ∀ w b w', f w = some (b, w') → w.registry.Quiet w'.registry

def Quietly (w v : World η) : Prop := w.registry.Quiet v.registry

theorem Quietly.refl (w : World η) : Quietly w w := Registry.Quiet.refl w.registry

/-- A task whose own actions leave the phases alone, and which asks for classes. -/
inductive Client : Annotated η InitNote α → Prop where
  | done {a : α} : Client (.done a)
  | act {β : Type} {env : Env} {f : World η → Option (β × World η)}
      {next : β → Annotated η InitNote α} (quiet : QuietAction f) (rest : ∀ b, Client (next b)) :
      Client (.act env f next)
  | execute {m : Method} {args : List Value} {env : Env}
      {next : Except Failure (Option Value) × Env → Annotated η InitNote α}
      (rest : ∀ r, Client (next r)) : Client (.execute m args env next)
  | native {f : NativeFunction} {call : NativeCall} {env : Env}
      {next : Except Failure Nat × Env → Annotated η InitNote α}
      (rest : ∀ r, Client (next r)) : Client (.native f call env next)
  | request {c : ClassId} {env : Env} {next : Except Failure Unit × Env → Annotated η InitNote α}
      (rest : ∀ r, Client (next r)) : Client (((Noting.request c).runIn env).bind next)

theorem Client.bind {x : Annotated η InitNote α} {g : α → Annotated η InitNote β}
    (first : Client x) (rest : ∀ a, Client (g a)) : Client (x.bind g) := by
  induction first with
  | done => exact rest _
  | act quiet _ ih => exact .act quiet ih
  | execute _ ih => exact .execute ih
  | native _ ih => exact .native ih
  | request _ ih =>
    rw [Annotated.bind_assoc]
    exact .request ih

theorem Client.ofTask {x : Task η α} (quiet : x.Within Quietly) : Client (.ofTask x) := by
  induction quiet with
  | done => exact .done
  | act quiet _ ih => exact .act quiet ih
  | execute _ ih => exact .execute ih
  | native _ ih => exact .native ih

theorem Atomic.quietly_link (m : Method) : (link m : Atomic η _).Within Quietly := by
  intro w
  unfold link
  rw [runOn_get_bind]
  split
  · exact .refl _
  · split
    · rename_i f _
      let bind (s : ClassState) : ClassState := { s with bound := (m.slot, f) :: s.bound }
      have keeps : (bind (w.registry.state m.owner)).phase = (w.registry.state m.owner).phase := rfl
      exact .modifyState keeps
    · exact .refl _
    · exact .refl _

namespace Noting

def IsClient (x : Noting η InitNote α) : Prop := ∀ env, Client (x.runIn env)

theorem isClient_pure (a : α) : IsClient (pure a : Noting η InitNote α) := fun _ => .done

theorem isClient_throw (f : Failure) : IsClient (throw f : Noting η InitNote α) := fun _ => .done

theorem isClient_request (c : ClassId) : IsClient (request c : Noting η InitNote Unit) := by
  intro env
  rw [← Annotated.bind_done ((request c).runIn env)]
  exact .request fun _ => .done

theorem isClient_bind {x : Noting η InitNote α} {g : α → Noting η InitNote β}
    (first : IsClient x) (rest : ∀ a, IsClient (g a)) : IsClient (x >>= g) := by
  intro env
  rw [show (x >>= g).runIn env = (x.runIn env).bind _ from rfl]
  refine (first env).bind fun (r, e) => ?_
  cases r with
  | error f => exact .done
  | ok a => exact rest a e

theorem isClient_callMethod (m : Method) (args : List Value) :
    IsClient (ofExec (Exec.callMethod m args) : Noting η InitNote _) :=
  fun env => .ofTask (Exec.within_callMethod Atomic.quietly_link m args env)

end Noting

structure AnnotatedCode.IsClient (code : AnnotatedCode η InitNote) : Prop where
  execute : ∀ m args, (code.execute m args).IsClient
  native : ∀ f call, (code.native f call).IsClient

end ManagedRuntime
