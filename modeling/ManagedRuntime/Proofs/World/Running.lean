import ManagedRuntime.World.Atomic

/-!
What atomic actions do when they are run. A failure in a sequence keeps what was done before it.
-/
namespace ManagedRuntime.Atomic
variable {η α β : Type} (w : World η)

theorem runOn_bind (x : Atomic η α) (g : α → Atomic η β) :
    (x >>= g).runOn w =
      match x.runOn w with
      | (.ok a, v) => (g a).runOn v
      | (.error f, v) => (.error f, v) := by
  have unfolded : (x >>= g).runOn w =
    (ExceptT.bindCont g (x.runOn w).1 : StateM (World η) _).run (x.runOn w).2 := rfl
  rw [unfolded]
  rcases x.runOn w with ⟨_ | a, v⟩ <;> rfl

theorem runOn_bind_eq_ok {w v : World η} {x : Atomic η α} {g : α → Atomic η β} {b : β} :
    (x >>= g).runOn w = (.ok b, v) ↔
      ∃ a u, x.runOn w = (.ok a, u) ∧ (g a).runOn u = (.ok b, v) := by
  rw [runOn_bind]
  constructor
  · intro ended
    split at ended
    · rename_i a u ran
      exact ⟨a, u, ran, ended⟩
    · cases ended
  · rintro ⟨a, u, ran, ended⟩
    rw [ran]
    exact ended

@[simp] theorem runOn_get_bind (g : World η → Atomic η β) :
    ((get : Atomic η (World η)) >>= g).runOn w = (g w).runOn w := rfl

@[simp] theorem runOn_ask_bind (f : World η → α) (g : α → Atomic η β) :
    (ask f >>= g).runOn w = (g (f w)).runOn w := rfl

@[simp] theorem runOn_ofFunction (f : World η → Except Failure α × World η) :
    (ofFunction f).runOn w = f w := rfl

theorem runOn_writeField (o : ObjectId) (offset : Nat) (v : Value) :
    (writeField o offset v).runOn w =
      match w.heap.writeField? o offset v with
      | some heap => (.ok true, { w with heap })
      | none => (.ok false, w) := by
  rw [writeField, runOn_get_bind]
  cases w.heap.writeField? o offset v <;> rfl

theorem runOn_writeStatic (c : ClassId) (offset : Nat) (v : Value) :
    (writeStatic c offset v).runOn w =
      match w.registry.writeStatic? c offset v with
      | some registry => (.ok true, { w with registry })
      | none => (.ok false, w) := by
  rw [writeStatic, runOn_get_bind]
  cases w.registry.writeStatic? c offset v <;> rfl

end ManagedRuntime.Atomic
