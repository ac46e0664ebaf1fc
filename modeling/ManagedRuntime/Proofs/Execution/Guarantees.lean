import ManagedRuntime.Proofs.Execution.Unaided
import ManagedRuntime.Proofs.World.Reached

/-!
Programs that may have to wait while other threads change the shared state. Main statements: what
each action of such a program does follows from its parts, and the changes that a runtime makes uphold
the classes that there are and the classes of objects.
-/
namespace ManagedRuntime
variable {η α β : Type} {rely does : World η → World η → Prop} {w v u : World η}

namespace Heap.Alike
variable {h g : Heap}

theorem cls_push (alike : h.Alike g) (x : Object) (accounting : Accounting) {o : ObjectId}
    (made : o.index < h.objects.size) :
    (get ⟨g.objects.push x, accounting⟩ o).cls = (h.get o).cls := by
  rw [get_push, if_neg (by rw [alike.size]; exact Nat.ne_of_lt made)]
  exact alike.cls o

theorem size_push (alike : h.Alike g) (x : Object) :
    h.objects.size ≤ (g.objects.push x).size := by
  rw [Array.size_push, alike.size]
  exact Nat.le_succ _

end Heap.Alike

namespace World

/-- A sane state has become a sane one, no class has gone or changed, and objects that were there
are of the classes that they were of. -/
structure Upholds (w u : World η) : Prop where
  tame : Tame w u
  objects : w.heap.objects.size ≤ u.heap.objects.size
  classOf : ∀ o : ObjectId, o.index < w.heap.objects.size → u.classOf o = w.classOf o

theorem Upholds.refl (w : World η) : w.Upholds w := ⟨.refl w, Nat.le_refl _, fun _ _ => rfl⟩

theorem Upholds.trans (first : w.Upholds v) (second : v.Upholds u) : w.Upholds u where
  tame := first.tame.trans second.tame
  objects := Nat.le_trans first.objects second.objects
  classOf o made := (second.classOf o (Nat.lt_of_lt_of_le made first.objects)).trans
    (first.classOf o made)

theorem Upholds.during (w : World η) (refs : List ObjectId) : w.Upholds (w.during refs) :=
  ⟨fun sane => ⟨sane.during refs, .refl _⟩, Nat.le_refl _, fun _ _ => rfl⟩

/-- A step that changes neither classes nor the number of objects can be undone by others. -/
theorem Upholds.back (upholds : w.Upholds v) (sane : w.Sane) (registry : v.registry = w.registry)
    (objects : v.heap.objects.size = w.heap.objects.size) : v.Upholds w where
  tame _ := ⟨sane, registry ▸ .refl _⟩
  objects := Nat.le_of_eq objects
  classOf o made := (upholds.classOf o (objects ▸ made)).symm

theorem Upholds.allocate {x : Object} (tame : Tame w ((Atomic.allocate x).runOn w).2) :
    w.Upholds ((Atomic.allocate x).runOn w).2 := by
  have comes := Atomic.allocate_cases w x
  generalize (Atomic.allocate x).runOn w = result at tame comes ⊢
  cases comes with
  | made alike _ => exact ⟨tame, alike.size_push x, fun o made => alike.cls_push x _ made⟩
  | exhausted alike _ => exact ⟨tame, Nat.le_of_eq alike.size.symm, fun o _ => alike.cls o⟩

theorem Change.upholds (change : Change w v) : w.Upholds v := by
  have tame := change.tame
  cases change with
  | allocate => exact .allocate tame
  | @mirror c there =>
    have comes := Atomic.mirroring w c
    generalize (Atomic.mirror c).runOn w = result at tame comes ⊢
    cases comes with
    | recorded | missing => exact .refl w
    | @made _ _ x _ alike => exact ⟨tame, alike.size_push x, fun o made => alike.cls_push x _ made⟩
    | exhausted alike => exact ⟨tame, Nat.le_of_eq alike.size.symm, fun o _ => alike.cls o⟩
  | @contents o f cls same =>
    refine ⟨tame, Nat.le_of_eq Array.size_modify.symm, fun p made => ?_⟩
    unfold World.classOf Heap.classOf
    rw [Heap.get_modify]
    split
    · rename_i here
      rw [← here.1, cls]
    · rfl
  | arrayClass | arrayOf | define | state | collection | interned | threads | outside =>
    exact ⟨tame, Nat.le_refl _, fun _ _ => rfl⟩

theorem Changes.upholds (changes : Changes w v) : w.Upholds v := by
  induction changes with
  | refl => exact .refl w
  | tail _ change ih => exact ih.trans change.upholds

end World

namespace Task
variable {S T : α → World η → Prop} {t : Task η α}

/-- The task has nothing run. While others change the shared state as `rely` allows, each of its
actions, once it can happen, does to that state what `does` allows, and at the end `T` holds. -/
def Guarantees (rely does : World η → World η → Prop) (T : α → World η → Prop) :
    Task η α → World η → Prop
  | .done a, w => T a w
  | .act env f next, w => ∀ x refs b v, rely w x →
      f (x.during (env.references ++ refs)) = some (b, v) →
      does x v ∧ Guarantees rely does T (next b) v
  | .execute .., _ => False
  | .native .., _ => False

theorem Unaided.guarantees (unaided : t.Unaided rely does T w) : t.Guarantees rely does T w := by
  induction t generalizing w with
  | done a => exact unaided
  | act env f next ih =>
    intro x refs b v change step
    obtain ⟨b', v', ran, done, rest⟩ := unaided x refs change
    cases step.symm.trans ran
    exact ⟨done, ih b rest⟩
  | execute | native => exact unaided.elim

theorem Guarantees.imp (guarantees : t.Guarantees rely does S w) (implies : ∀ a u, S a u → T a u) :
    t.Guarantees rely does T w := by
  induction t generalizing w with
  | done a => exact implies a w guarantees
  | act env f next ih =>
    intro x refs b v change step
    obtain ⟨done, rest⟩ := guarantees x refs b v change step
    exact ⟨done, ih b rest⟩
  | execute | native => exact guarantees

theorem Guarantees.bind {g : α → Task η β} {T : β → World η → Prop}
    (guarantees : t.Guarantees rely does (fun a u => (g a).Guarantees rely does T u) w) :
    (t.bind g).Guarantees rely does T w := by
  induction t generalizing w with
  | done a => exact guarantees
  | act env f next ih =>
    intro x refs b v change step
    obtain ⟨done, rest⟩ := guarantees x refs b v change step
    exact ⟨done, ih b rest⟩
  | execute | native => exact guarantees.elim

end Task

namespace Exec
variable {env : Env} {T : Except Failure α → Env → World η → Prop}

def Guarantees (rely does : World η → World η → Prop) (w : World η) (env : Env) (x : Exec η α)
    (T : Except Failure α → Env → World η → Prop) : Prop :=
  (x.runIn env).Guarantees rely does (fun r u => T r.1 r.2 u) w

theorem Unaided.guarantees {x : Exec η α} (unaided : Unaided rely does w env x T) :
    Guarantees rely does w env x T := Task.Unaided.guarantees unaided

theorem guarantees_bind {x : Exec η α} {g : α → Exec η β}
    {T : Except Failure β → Env → World η → Prop}
    (first : Guarantees rely does w env x fun r d v =>
      match r with
      | .ok a => Guarantees rely does v d (g a) T
      | .error f => T (.error f) d v) : Guarantees rely does w env (x >>= g) T := by
  refine Task.Guarantees.bind (Task.Guarantees.imp first fun r u holds => ?_)
  obtain ⟨f | a, d⟩ := r <;> exact holds

theorem guarantees_get_bind {g : Env → Exec η β} {T : Except Failure β → Env → World η → Prop}
    (rest : Guarantees rely does w env (g env) T) : Guarantees rely does w env (get >>= g) T :=
  rest

/-- An action for which the thread may have to wait. -/
theorem guarantees_await {f : World η → Option (Except Failure α × World η)}
    (acts : ∀ y refs r v, rely w y → f (y.during (env.references ++ refs)) = some (r, v) →
      does y v ∧ T r (env.hold (v.madeSince y.heap.objects.size)) v) :
    Guarantees rely does w env (await f) T := by
  intro y refs b v change step
  obtain ⟨⟨r, u⟩, ran, same⟩ := Option.map_eq_some_iff.mp step
  cases same
  exact acts y refs r u change ran

theorem Guarantees.after_await {x : World η} {a : α}
    {f : World η → Option (Except Failure α × World η)} {g : α → Exec η β}
    {T : Except Failure β → Env → World η → Prop}
    (guarantees : Guarantees rely does w env (await f >>= g) T) (refs : List ObjectId)
    (change : rely w x) (step : f (x.during (env.references ++ refs)) = some (.ok a, v)) :
    does x v ∧ Guarantees rely does v (env.hold (v.madeSince x.heap.objects.size)) (g a) T :=
  guarantees x refs (.ok a, v.madeSince x.heap.objects.size) v change
    (Option.map_eq_some_iff.mpr ⟨(.ok a, v), step, rfl⟩)

end Exec
end ManagedRuntime
