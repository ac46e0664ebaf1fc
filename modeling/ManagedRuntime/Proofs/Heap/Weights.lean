import Mathlib.Algebra.Ring.Nat
import ManagedRuntime.Proofs.Heap.Reclaim

/-!
Sums over the live objects of a heap: how many there are, and how many bytes they have.
-/
namespace ManagedRuntime.Heap

def weighAll (f : Object → Nat) (xs : List Object) : Nat :=
  (xs.map fun x => if x.live then f x else 0).sum

variable {f : Object → Nat} {h : Heap}

def weigh (f : Object → Nat) (h : Heap) : Nat := weighAll f h.objects.toList

def liveCount (h : Heap) : Nat := h.weigh fun _ => 1

def liveSizes (h : Heap) : Nat := h.weigh Object.bytes

theorem liveCount_eq_countP (h : Heap) : h.liveCount = h.objects.countP (·.live) := by
  have counted (xs : List Object) : weighAll (fun _ => 1) xs = xs.countP (·.live) := by
    induction xs with
    | nil => rfl
    | cons x xs ih =>
      unfold weighAll at ih ⊢
      rw [List.map_cons, List.sum_cons, List.countP_cons, ih, Nat.add_comm]
  rw [← Array.countP_toList]
  exact counted _

theorem weigh_push (x : Object) (accounting : Accounting) :
    weigh f ⟨h.objects.push x, accounting⟩ = h.weigh f + if x.live then f x else 0 := by
  simp [weigh, weighAll]

theorem weighAll_modify (g : Object → Object) (xs : List Object) {i : Nat} (there : i < xs.length) :
    weighAll f (xs.modify i g) + (if xs[i].live then f xs[i] else 0) =
      weighAll f xs + if (g xs[i]).live then f (g xs[i]) else 0 := by
  induction xs generalizing i with
  | nil => cases there
  | cons x xs ih =>
    cases i with
    | zero =>
      simp only [weighAll, List.modify_zero_cons, List.map_cons, List.sum_cons,
        List.getElem_cons_zero]
      omega
    | succ i =>
      have rest := ih (Nat.lt_of_succ_lt_succ there)
      simp only [weighAll, List.modify_succ_cons, List.map_cons, List.sum_cons,
        List.getElem_cons_succ] at rest ⊢
      omega

theorem get_eq_getElem {o : ObjectId} (there : o.index < h.objects.size) :
    h.get o = h.objects[o.index] := by
  simp [get, there]

theorem weigh_modify {o : ObjectId} (there : o.index < h.objects.size) (g : Object → Object) :
    (h.modify o g).weigh f + (if (h.get o).live then f (h.get o) else 0) =
      h.weigh f + if (g (h.get o)).live then f (g (h.get o)) else 0 := by
  rw [get_eq_getElem there]
  unfold weigh modify
  rw [Array.toList_modify]
  exact weighAll_modify g h.objects.toList there

theorem weigh_drop {o : ObjectId} (there : o.index < h.objects.size) (live : (h.get o).live = true)
    (f : Object → Nat) :
    (h.modify o ({ · with live := false })).weigh f + f (h.get o) = h.weigh f := by
  have weighed := weigh_modify (f := f) there ({ · with live := false })
  rwa [if_pos live, if_neg Bool.false_ne_true] at weighed

theorem weigh_le {g : Object → Nat} (le : ∀ x, f x ≤ g x) (h : Heap) : h.weigh f ≤ h.weigh g := by
  have below (xs : List Object) : weighAll f xs ≤ weighAll g xs := by
    induction xs with
    | nil => exact Nat.le_refl 0
    | cons x xs ih =>
      have head : (if x.live then f x else 0) ≤ if x.live then g x else 0 := by
        split
        · exact le x
        · exact Nat.le_refl 0
      simpa only [weighAll, List.map_cons, List.sum_cons] using Nat.add_le_add head ih
  exact below _

theorem liveCount_le_liveSizes (h : Heap) : h.liveCount ≤ h.liveSizes :=
  weigh_le (fun x => by simp only [Object.bytes, Accounting.headerBytes]; omega) h

end ManagedRuntime.Heap
