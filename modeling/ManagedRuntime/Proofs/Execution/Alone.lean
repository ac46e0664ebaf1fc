import ManagedRuntime.Loading.Initialization
import ManagedRuntime.Proofs.Execution.Calls

/-!
Programs of a thread that no other thread disturbs. Main statement: such a program ends with what
follows from its parts, one after the other; the initialisation of a class that is initialised does
nothing.
-/
namespace ManagedRuntime

structure World.Like {η : Type} (w u : World η) : Prop where
  registry : u.registry = w.registry
  heap : u.heap = w.heap

theorem World.Like.during {η : Type} (w : World η) (refs : List ObjectId) :
    w.Like (w.during refs) := ⟨rfl, rfl⟩

theorem World.Like.trans {η : Type} {w v u : World η} (first : w.Like v) (second : v.Like u) :
    w.Like u := ⟨second.registry.trans first.registry, second.heap.trans first.heap⟩

theorem Registry.modifyState_same {r : Registry} {c : ClassId} {f : ClassState → ClassState}
    (same : f (r.state c) = r.state c) : r.modifyState c f = r := by
  have each : r.loaded.modify c.index (fun x => { x with state := f x.state }) = r.loaded := by
    apply Array.ext_getElem?
    intro i
    rw [Array.getElem?_modify]
    split
    · rename_i here
      subst here
      cases found : r.loaded[c.index]? with
      | none => rfl
      | some x =>
        have state : r.state c = x.state := by rw [Registry.state, found]; rfl
        rw [state] at same
        rw [Option.map_some, same]
    · rfl
  rw [modifyState, each]

namespace Exec
variable {η α β : Type} {code : Code η} {w : World η}

def Undisturbed (w x : World η) : Prop := x = w

theorem undisturbed_refl (w : World η) : Undisturbed w w := rfl

/-- The program ends when nobody disturbs it, and however it ends, outcome and shared state are such.
-/
structure Gives (code : Code η) (w : World η) (x : Exec η α)
    (P : Except Failure α → World η → Prop) : Prop where
  ends : ∀ env, ∃ r e u, Ends code Undisturbed w env x r e u
  all : ∀ env r e u, Ends code Undisturbed w env x r e u → P r u

variable {P : Except Failure α → World η → Prop} {Q : Except Failure β → World η → Prop}

theorem Gives.weaken {x : Exec η α} {P' : Except Failure α → World η → Prop} (gives : Gives code w x P)
    (implies : ∀ r u, P r u → P' r u) : Gives code w x P' :=
  ⟨gives.ends, fun env r e u ends => implies r u (gives.all env r e u ends)⟩

theorem gives_conclude {r : Except Failure α} (holds : P r w) : Gives code w (conclude r) P where
  ends env := ⟨r, env, w, ends_conclude.mpr ⟨rfl, rfl, rfl⟩⟩
  all env q e u ends := by
    obtain ⟨rfl, -, rfl⟩ := ends_conclude.mp ends
    exact holds

theorem gives_pure {a : α} (holds : P (.ok a) w) : Gives code w (pure a) P :=
  gives_conclude (r := .ok a) holds

theorem gives_throw {f : Failure} (holds : P (.error f) w) : Gives code w (throw f) P :=
  gives_conclude (r := .error f) holds

theorem gives_await {f : World η → Option (Except Failure α × World η)}
    (ran : ∀ refs, ∃ r u, f (w.during refs) = some (r, u) ∧ P r u) : Gives code w (await f) P where
  ends env := by
    obtain ⟨r, u, step, -⟩ := ran (env.references ++ [])
    exact ⟨r, _, u, ends_await.mpr ⟨w, [], rfl, step, rfl⟩⟩
  all env r e u ends := by
    obtain ⟨x, refs, rfl, step, -⟩ := ends_await.mp ends
    obtain ⟨r', u', step', holds⟩ := ran (env.references ++ refs)
    cases step.symm.trans step'
    exact holds

theorem gives_act {x : Atomic η α}
    (ran : ∀ refs, P (x.runOn (w.during refs)).1 (x.runOn (w.during refs)).2) :
    Gives code w (act x) P :=
  gives_await fun refs => ⟨_, _, rfl, ran refs⟩

theorem gives_ask {f : World η → α} (holds : ∀ refs, P (.ok (f (w.during refs))) (w.during refs)) :
    Gives code w (act (Atomic.ask f)) P :=
  gives_act holds

theorem gives_bind {x : Exec η α} {g : α → Exec η β} (first : Gives code w x P)
    (rest : ∀ a u, P (.ok a) u → Gives code u (g a) Q)
    (failed : ∀ f u, P (.error f) u → Q (.error f) u) : Gives code w (x >>= g) Q where
  ends env := by
    obtain ⟨r, e, u, ends⟩ := first.ends env
    have holds := first.all env r e u ends
    cases r with
    | error f => exact ⟨.error f, e, u, ends_bind.mpr (.inl ⟨f, ends, rfl⟩)⟩
    | ok a =>
      obtain ⟨r', e', u', ends'⟩ := (rest a u holds).ends e
      exact ⟨r', e', u', ends_bind.mpr (.inr ⟨a, e, u, ends, ends'⟩)⟩
  all env r e u ends := by
    rcases ends_bind.mp ends with ⟨f, ends', rfl⟩ | ⟨a, d, v, ends', rest'⟩
    · exact failed f u (first.all env _ e u ends')
    · exact (rest a v (first.all env _ d v ends')).all d r e u rest'

theorem gives_get_bind {g : Env → Exec η β} (each : ∀ env, Gives code w (g env) Q) :
    Gives code w (get >>= g) Q where
  ends env := by
    obtain ⟨r, e, u, ends⟩ := (each env).ends env
    exact ⟨r, e, u, ends_get_bind.mpr ends⟩
  all env r e u ends := (each env).all env r e u (ends_get_bind.mp ends)

theorem gives_initializeClass {c : ClassId} (initialized : (w.registry.state c).phase = .initialized) :
    Gives code w (initializeClass c) fun r u => r = .ok () ∧ w.Like u := by
  unfold initializeClass initializeWithin requestInit
  refine gives_bind (P := fun r u => r = .ok .available ∧ w.Like u) ?_ ?_ ?_
  · apply gives_get_bind
    intro env
    apply gives_await
    intro refs
    have request : ((w.during refs).registry.state c).phase.request? env.thread =
        some (.available, .initialized) := by
      rw [show (w.during refs).registry = w.registry from rfl, initialized]
      rfl
    have same : w.registry.modifyState c ({ · with phase := .initialized }) = w.registry := by
      apply Registry.modifyState_same
      rw [← initialized]
    exact ⟨.ok .available, setPhase c .initialized (w.during refs), by rw [request]; rfl, rfl, same, rfl⟩
  · intro a u ⟨same, like⟩
    cases same
    exact gives_pure ⟨rfl, like⟩
  · intro f u ⟨same, _⟩
    cases same

end Exec
end ManagedRuntime
