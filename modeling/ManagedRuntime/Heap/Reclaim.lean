import ManagedRuntime.Heap.Basic

/-!
Reclamation by reference counts: an object stays as long as something outside the heap or an object
that stays refers to it. Objects that refer to each other in a circle stay.
-/
namespace ManagedRuntime.Heap

def mark (marks : Array Bool) (refs : List ObjectId) : Array Bool :=
  refs.foldl (fun ms o => ms.set! o.index true) marks

/-- The objects that are referred to by `roots` or by a live object. -/
def referenced (h : Heap) (roots : List ObjectId) : Array Bool :=
  h.objects.foldl (fun ms o => if o.live then mark ms o.references else ms)
    (mark (Array.replicate h.objects.size false) roots)

def reclaimOne (h : Heap) (i : Nat) : Heap :=
  let o := h.get ⟨i⟩
  if o.live then
    ⟨h.objects.modify i ({ · with live := false }), h.accounting.release o.bytes⟩
  else h

def reclaimRound (h : Heap) (roots : List ObjectId) : Heap :=
  let marks := h.referenced roots
  (List.range h.objects.size).foldl
    (fun g i => if (marks[i]?).getD true then g else g.reclaimOne i) h

/-- Rounds until one reclaims nothing. Each reclaims an object or is the last. -/
def reclaimRounds (roots : List ObjectId) : Nat → Heap → Heap
  | 0, h => h
  | n + 1, h =>
    let g := h.reclaimRound roots
    if g.accounting.liveObjects = h.accounting.liveObjects then g else reclaimRounds roots n g

def reclaim (h : Heap) (roots : List ObjectId) : Heap :=
  reclaimRounds roots h.objects.size h

end ManagedRuntime.Heap
