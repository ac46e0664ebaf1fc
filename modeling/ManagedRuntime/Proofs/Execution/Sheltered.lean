import ManagedRuntime.Proofs.Execution.Unaided

/-!
Programs that have nothing run and that make objects. Until such a program ends no other thread knows
the objects that it makes, so what others may do to the shared state depends on what the program has
made so far. Main statement: if others keep to that in a run, the run is one of a program that has
nothing run, and what the program was to bring about holds at its end.
-/
namespace ManagedRuntime
variable {η α β : Type} {rely : List ObjectId → World η → World η → Prop}
  {other does : World η → World η → Prop} {own : List ObjectId} {w : World η}

namespace Task

/-- The task has nothing run and never waits. Objects `own` are its own, and so are those that it
makes; others change the shared state as `rely` allows for these objects, and at the end `T` holds of
them. -/
def Sheltered (rely : List ObjectId → World η → World η → Prop)
    (T : List ObjectId → α → World η → Prop) : Task η α → List ObjectId → World η → Prop
  | .done a, own, w => T own a w
  | .act env f next, own, w => ∀ x refs, rely own w x →
      ∃ b v, f (x.during (env.references ++ refs)) = some (b, v) ∧
        Sheltered rely T (next b) (v.madeSince x.heap.objects.size ++ own) v
  | .execute .., _, _ => False
  | .native .., _, _ => False

variable {S T : List ObjectId → α → World η → Prop} {t : Task η α}

theorem Sheltered.imp (sheltered : t.Sheltered rely S own w)
    (implies : ∀ mine a u, S mine a u → T mine a u) : t.Sheltered rely T own w := by
  induction t generalizing own w with
  | done a => exact implies own a w sheltered
  | act env f next ih =>
    intro x refs change
    obtain ⟨b, v, ran, rest⟩ := sheltered x refs change
    exact ⟨b, v, ran, ih b rest⟩
  | execute | native => exact sheltered

theorem Sheltered.bind {g : α → Task η β} {T : List ObjectId → β → World η → Prop}
    (sheltered : t.Sheltered rely (fun mine a u => (g a).Sheltered rely T mine u) own w) :
    (t.bind g).Sheltered rely T own w := by
  induction t generalizing own w with
  | done a => exact sheltered
  | act env f next ih =>
    intro x refs change
    obtain ⟨b, v, ran, rest⟩ := sheltered x refs change
    exact ⟨b, v, ran, ih b rest⟩
  | execute | native => exact sheltered.elim

/-- Others may do less than what the task can stand. -/
theorem Unaided.sheltered {T : α → World η → Prop} {mine : List ObjectId}
    (unaided : t.Unaided other does T w) (more : own ⊆ mine)
    (allows : ∀ mine x y, own ⊆ mine → rely mine x y → other x y) :
    t.Sheltered rely (fun mine a u => own ⊆ mine ∧ T a u) mine w := by
  induction t generalizing mine w with
  | done a => exact ⟨more, unaided⟩
  | act env f next ih =>
    intro x refs change
    obtain ⟨b, v, ran, -, rest⟩ := unaided x refs (allows mine w x more change)
    exact ⟨b, v, ran, ih b rest (List.subset_append_of_subset_right _ more)⟩
  | execute | native => exact unaided.elim

theorem Sheltered.unaided (sheltered : t.Sheltered rely T own w)
    (allows : ∀ mine x y, other x y → rely mine x y) :
    t.Unaided other (fun _ _ => True) (fun a u => ∃ mine, T mine a u) w := by
  induction t generalizing own w with
  | done a => exact ⟨own, sheltered⟩
  | act env f next ih =>
    intro x refs change
    obtain ⟨b, v, ran, rest⟩ := sheltered x refs (allows own w x change)
    exact ⟨b, v, ran, trivial, ih b rest⟩
  | execute | native => exact sheltered

end Task

namespace Exec
variable {env : Env} {T : Except Failure α → List ObjectId → Env → World η → Prop}

def Sheltered (rely : List ObjectId → World η → World η → Prop) (own : List ObjectId) (w : World η)
    (env : Env) (x : Exec η α) (T : Except Failure α → List ObjectId → Env → World η → Prop) : Prop :=
  (x.runIn env).Sheltered rely (fun mine r u => T r.1 mine r.2 u) own w

theorem Sheltered.weaken {S : Except Failure α → List ObjectId → Env → World η → Prop} {x : Exec η α}
    (sheltered : Sheltered rely own w env x S) (implies : ∀ r mine e u, S r mine e u → T r mine e u) :
    Sheltered rely own w env x T :=
  Task.Sheltered.imp sheltered fun mine r u => implies r.1 mine r.2 u

theorem sheltered_pure {a : α} (holds : T (.ok a) own env w) :
    Sheltered rely own w env (pure a) T := holds

theorem sheltered_bind {x : Exec η α} {g : α → Exec η β}
    {T : Except Failure β → List ObjectId → Env → World η → Prop}
    (first : Sheltered rely own w env x fun r mine d v =>
      match r with
      | .ok a => Sheltered rely mine v d (g a) T
      | .error f => T (.error f) mine d v) : Sheltered rely own w env (x >>= g) T := by
  refine Task.Sheltered.bind (Task.Sheltered.imp first fun mine r u holds => ?_)
  obtain ⟨f | a, d⟩ := r
  · exact holds
  · exact holds

theorem sheltered_discard {x : Exec η α}
    {T : Except Failure PUnit → List ObjectId → Env → World η → Prop}
    (sheltered : Sheltered rely own w env x fun r mine d v => T (r.map fun _ => ()) mine d v) :
    Sheltered rely own w env (discard x) T := by
  refine Task.Sheltered.bind (Task.Sheltered.imp sheltered fun mine r u holds => ?_)
  obtain ⟨f | a, d⟩ := r <;> exact holds

theorem sheltered_act {x : Atomic η α}
    (acts : ∀ y refs, rely own w y → ∃ r u, x.runOn (y.during refs) = (r, u) ∧
      T r (u.madeSince y.heap.objects.size ++ own)
        (env.hold (u.madeSince y.heap.objects.size)) u) :
    Sheltered rely own w env (act x) T := by
  intro y refs change
  obtain ⟨r, u, ran, holds⟩ := acts y (env.references ++ refs) change
  refine ⟨(r, u.madeSince y.heap.objects.size), u, ?_, holds⟩
  dsimp only
  rw [ran]
  rfl

theorem Unaided.sheltered {x : Exec η α} {T : Except Failure α → Env → World η → Prop}
    (unaided : Unaided other does w env x T)
    (allows : ∀ mine x y, own ⊆ mine → rely mine x y → other x y) :
    Sheltered rely own w env x fun r mine d u => own ⊆ mine ∧ T r d u :=
  Task.Unaided.sheltered unaided (List.Subset.refl own) allows

theorem Sheltered.unaided {x : Exec η α} (sheltered : Sheltered rely own w env x T)
    (allows : ∀ mine x y, other x y → rely mine x y) :
    Unaided other (fun _ _ => True) w env x fun r d u => ∃ mine, T r mine d u :=
  Task.Sheltered.unaided sheltered allows

end Exec
end ManagedRuntime
