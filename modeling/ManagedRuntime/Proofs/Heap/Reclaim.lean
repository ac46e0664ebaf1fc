import ManagedRuntime.Proofs.World.Running

/-!
Reclamation takes objects off the books and touches nothing in them. Main statements: every object
keeps its class and its contents when memory is reclaimed, and an allocation either adds its object
at the end of the heap or fails because its bytes do not fit.
-/
namespace ManagedRuntime

namespace Heap
variable {g h k : Heap}

/-- The same objects and the same limit, but other objects may be live. -/
structure Alike (h g : Heap) : Prop where
  size : g.objects.size = h.objects.size
  cls : ∀ o, (g.get o).cls = (h.get o).cls
  fields : ∀ o, (g.get o).fields = (h.get o).fields
  payload : ∀ o, (g.get o).payload = (h.get o).payload
  limit : g.accounting.maxBytes = h.accounting.maxBytes

theorem Alike.refl (h : Heap) : Alike h h := ⟨rfl, fun _ => rfl, fun _ => rfl, fun _ => rfl, rfl⟩

theorem Alike.trans (first : Alike h g) (second : Alike g k) : Alike h k where
  size := second.size.trans first.size
  cls o := (second.cls o).trans (first.cls o)
  fields o := (second.fields o).trans (first.fields o)
  payload o := (second.payload o).trans (first.payload o)
  limit := second.limit.trans first.limit

theorem get_modify (o : ObjectId) (f : Object → Object) (p : ObjectId) :
    (h.modify o f).get p = if o = p ∧ p.index < h.objects.size then f (h.get p) else h.get p := by
  unfold get modify
  rw [Array.getElem?_modify]
  by_cases same : o = p
  · subst same
    by_cases there : o.index < h.objects.size <;> simp [there]
  · have apart : o.index ≠ p.index := fun index => same (by cases o; cases p; cases index; rfl)
    rw [if_neg apart, if_neg fun both => same both.1]

theorem get_push (h : Heap) (o : Object) (accounting : Accounting) (p : ObjectId) :
    get ⟨h.objects.push o, accounting⟩ p =
      if p.index = h.objects.size then o else h.get p := by
  unfold get
  rw [Array.getElem?_push]
  split <;> rfl

theorem reclaimOne_alike (h : Heap) (i : Nat) : Alike h (h.reclaimOne i) := by
  unfold reclaimOne
  dsimp only
  split
  · have same (o : ObjectId) :
        get ⟨h.objects.modify i ({ · with live := false }), h.accounting.release (h.get ⟨i⟩).bytes⟩ o =
          if (⟨i⟩ : ObjectId) = o ∧ o.index < h.objects.size then { h.get o with live := false }
          else h.get o :=
      h.get_modify ⟨i⟩ ({ · with live := false }) o
    refine ⟨by simp, fun o => ?_, fun o => ?_, fun o => ?_, rfl⟩ <;> rw [same] <;> split <;> rfl
  · exact .refl h

theorem reclaimRound_alike (h : Heap) (roots : List ObjectId) : Alike h (h.reclaimRound roots) := by
  unfold reclaimRound
  dsimp only
  generalize h.referenced roots = marks
  have each (is : List Nat) (g : Heap) : Alike g
      (is.foldl (fun g i => if (marks[i]?).getD true then g else g.reclaimOne i) g) := by
    induction is generalizing g with
    | nil => exact .refl g
    | cons i is ih =>
      rw [List.foldl_cons]
      split
      · exact ih g
      · exact (reclaimOne_alike g i).trans (ih _)
  exact each _ h

theorem reclaim_alike (h : Heap) (roots : List ObjectId) : Alike h (h.reclaim roots) := by
  have rounds (n : Nat) (g : Heap) : Alike g (reclaimRounds roots n g) := by
    induction n generalizing g with
    | zero => exact .refl g
    | succ n ih =>
      rw [reclaimRounds]
      split
      · exact reclaimRound_alike g roots
      · exact (reclaimRound_alike g roots).trans (ih _)
  exact rounds _ h

end Heap

namespace World
variable {η : Type} (w : World η)

theorem makeRoom_cases (bytes : Nat) :
    ∃ heap, w.makeRoom bytes = { w with heap } ∧ w.heap.Alike heap := by
  unfold makeRoom
  split
  · exact ⟨w.heap, rfl, .refl _⟩
  · exact ⟨_, rfl, w.heap.reclaim_alike w.roots⟩

end World

namespace Atomic
variable {η : Type}

inductive Allocates (w : World η) (o : Object) : Except Failure ObjectId × World η → Prop
  | made {heap : Heap} {accounting : Accounting} (alike : w.heap.Alike heap)
      (limit : accounting.maxBytes = w.heap.accounting.maxBytes) : Allocates w o
        (.ok ⟨w.heap.objects.size⟩, { w with heap := ⟨heap.objects.push o, accounting⟩ })
  | exhausted {heap : Heap} (alike : w.heap.Alike heap)
      (full : heap.accounting.fits o.bytes = false) :
      Allocates w o (.error (.heapExhausted o.bytes heap.accounting.liveBytes
        heap.accounting.maxBytes), { w with heap })

theorem allocate_cases (w : World η) (o : Object) : Allocates w o ((allocate o).runOn w) := by
  obtain ⟨heap, room, alike⟩ := w.makeRoom_cases o.bytes
  have ran : (allocate o).runOn w =
      ((heap.allocate o).1, { w with heap := (heap.allocate o).2 }) := by
    rw [show (allocate o).runOn w = (((w.makeRoom o.bytes).heap.allocate o).1,
      { w.makeRoom o.bytes with heap := ((w.makeRoom o.bytes).heap.allocate o).2 }) from rfl, room]
  rw [ran]
  unfold Heap.allocate Accounting.reserve
  cases fits : heap.accounting.fits o.bytes with
  | true =>
    rw [if_pos rfl]
    dsimp only
    rw [alike.size]
    exact .made alike alike.limit
  | false =>
    rw [if_neg Bool.false_ne_true]
    exact .exhausted alike fits

theorem allocate_unlimited {w : World η} (unlimited : w.heap.accounting.maxBytes = 0) (x : Object) :
    ∃ heap accounting, w.heap.Alike heap ∧
      accounting.maxBytes = w.heap.accounting.maxBytes ∧
      (allocate x).runOn w = (.ok ⟨w.heap.objects.size⟩,
        { w with heap := ⟨heap.objects.push x, accounting⟩ }) := by
  have comes := allocate_cases w x
  generalize (allocate x).runOn w = result at comes ⊢
  cases comes with
  | made alike limit => exact ⟨_, _, alike, limit, rfl⟩
  | exhausted alike full =>
    rw [Accounting.fits, alike.limit, unlimited] at full
    cases full

end Atomic
end ManagedRuntime
