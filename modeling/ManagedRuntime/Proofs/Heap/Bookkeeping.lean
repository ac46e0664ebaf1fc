import Mathlib.Algebra.BigOperators.Group.Multiset.Basic
import Mathlib.Order.Bounds.Basic
import ManagedRuntime.Proofs.Heap.Weights

/-!
Allocations and drops by several threads, one access to a shared counter at a time. A reservation
reads the number of live bytes, compares, and swaps the sum in if the number is still the one read;
the peak and the number of objects follow, and only then is the object there. A drop gives back the
bytes that the object's token has recorded, then the object. Main statement: in between all of these
accesses the counters are what the live objects and the operations under way make them.
-/
namespace ManagedRuntime

namespace Accounting

/-- Counters are words. Additions and subtractions wrap around. -/
def wordSize : Nat := 2 ^ 64

def addWord (a b : Nat) : Nat := (a + b) % wordSize

def subWord (a b : Nat) : Nat := (a + (wordSize - b)) % wordSize

def saturatingAdd (a b : Nat) : Nat := min (a + b) (wordSize - 1)

theorem saturatingAdd_eq {a b : Nat} (small : a + b < wordSize) : saturatingAdd a b = a + b :=
  Nat.min_eq_left (Nat.le_sub_one_of_lt small)

theorem subWord_eq {a b : Nat} (le : b ≤ a) (small : a < wordSize) : subWord a b = a - b := by
  unfold subWord
  rw [show a + (wordSize - b) = (a - b) + wordSize by omega, Nat.add_mod_right]
  exact Nat.mod_eq_of_lt (by omega)

theorem addWord_mod (n : Nat) : addWord (n % wordSize) 1 = (n + 1) % wordSize := by
  unfold addWord wordSize
  omega

theorem subWord_mod (n : Nat) : subWord ((n + 1) % wordSize) 1 = n % wordSize := by
  unfold subWord wordSize
  omega

def Exceeds (a : Accounting) (bytes : Nat) : Prop :=
  a.maxBytes ≠ 0 ∧ a.maxBytes < saturatingAdd a.liveBytes bytes

instance (a : Accounting) (bytes : Nat) : Decidable (a.Exceeds bytes) :=
  inferInstanceAs (Decidable (_ ∧ _))

theorem exceeds_iff {a : Accounting} {bytes : Nat} (small : a.liveBytes + bytes < wordSize) :
    a.Exceeds bytes ↔ a.fits bytes = false := by
  unfold Exceeds fits
  rw [saturatingAdd_eq small]
  simp

end Accounting

namespace Bookkeeping
open Accounting

inductive Allocation where
  | plain (c : ClassId)
  | array (c : ClassId) (length : Int32)
  | arrayOf (c : ClassId) (elements : Elements)
  | string (c : ClassId) (contents : String)
  | mirror (c target : ClassId)
  | backtrace (c : ClassId) (methods : List Method)
  | copy (o : ObjectId)

namespace Allocation

def object (r : Registry) (h : Heap) : Allocation → Except Failure Object
  | plain c => Heap.newInstance r c
  | array c length => Heap.newArray r c length
  | arrayOf c elements => .ok (Heap.newArrayOf c elements)
  | string c contents => .ok (Heap.newCarrier r c (.string contents))
  | mirror c target => .ok (Heap.newCarrier r c (.mirror target))
  | backtrace c methods => .ok (Heap.newCarrier r c (.backtrace methods))
  | copy o => .ok (h.copyOf o)

def slots (r : Registry) (h : Heap) : Allocation → Nat
  | plain c | string c _ | mirror c _ | backtrace c _ => (r.cls c).template.length
  | array _ _ | arrayOf _ _ => 0
  | copy o => (h.get o).fields.size

def payloadBytes (r : Registry) (h : Heap) : Allocation → Nat
  | plain _ | mirror _ _ => 0
  | array c length =>
    length.toNatClampNeg *
      (ElementKind.ofPrimitive ((r.cls c).component?.bind fun e => (r.cls e).primitive?)).width
  | arrayOf _ elements => elements.size * elements.kind.width
  | string _ contents => contents.utf8ByteSize
  | backtrace _ methods => methods.length * 8
  | copy o => (h.get o).payload.bytes

variable {r : Registry} {h : Heap} {x : Object}

theorem newArray_eq_ok {c : ClassId} {length : Int32} (made : Heap.newArray r c length = .ok x) :
    ∃ e, (r.cls c).component? = some e ∧
      x = Heap.newArrayOf c (.zeroed (.ofPrimitive (r.cls e).primitive?) length.toNatClampNeg) := by
  unfold Heap.newArray Heap.elementKind at made
  split at made
  · cases made
  · cases component : (r.cls c).component? with
    | none =>
      rw [component] at made
      cases made
    | some e =>
      rw [component] at made
      cases made
      exact ⟨e, rfl, rfl⟩

theorem object_eq_ok {a : Allocation} (accepted : a.object r h = .ok x) :
    x.live = true ∧ x.bytes = 176 + 16 * a.slots r h + a.payloadBytes r h := by
  have sized {fields : Nat} {payload : Nat} (slots : x.fields.size = fields)
      (bytes : x.payload.bytes = payload) : x.bytes = 176 + 16 * fields + payload := by
    unfold Object.bytes headerBytes slotBytes
    rw [slots, bytes, Nat.mul_comm]
  cases a with
  | plain c =>
    simp only [object, Heap.newInstance] at accepted
    split at accepted
    · cases accepted
    · cases accepted
      exact ⟨rfl, sized List.size_toArray rfl⟩
  | array c length =>
    obtain ⟨e, component, rfl⟩ := newArray_eq_ok accepted
    refine ⟨rfl, sized rfl ?_⟩
    simp [Heap.newArrayOf, Payload.bytes, Elements.bytes, Elements.size, Elements.zeroed,
      payloadBytes, component]
  | arrayOf c elements =>
    cases accepted
    exact ⟨rfl, sized rfl rfl⟩
  | string c contents =>
    cases accepted
    exact ⟨rfl, sized List.size_toArray rfl⟩
  | mirror c target =>
    cases accepted
    exact ⟨rfl, sized List.size_toArray rfl⟩
  | backtrace c methods =>
    cases accepted
    exact ⟨rfl, sized List.size_toArray rfl⟩
  | copy o =>
    cases accepted
    exact ⟨rfl, sized rfl rfl⟩

end Allocation

inductive Stage where
  | looking (x : Object)
  | swapping (x : Object) (seen : Nat)
  | raising (x : Object) (figure : Nat)
  | counting (x : Object)
  | releasing (bytes : Nat)
  | uncounting

namespace Stage

def wanted? : Stage → Option Object
  | looking x | swapping x _ => some x
  | _ => none

def object? : Stage → Option Object
  | looking x | swapping x _ | raising x _ | counting x => some x
  | releasing _ | uncounting => none

/-- Bytes that are on the books for no live object. -/
def held : Stage → Nat
  | raising x _ | counting x => x.bytes
  | releasing bytes => bytes
  | looking _ | swapping _ _ | uncounting => 0

def counted : Stage → Nat
  | releasing _ | uncounting => 1
  | _ => 0

def bytes : Stage → Nat
  | looking x | swapping x _ | raising x _ | counting x => x.bytes
  | releasing bytes => bytes
  | uncounting => 0

theorem held_le_bytes (s : Stage) : s.held ≤ s.bytes := by
  cases s <;> simp [held, bytes]

end Stage

/-- The heap with its counters, the token of each object, and what threads are about to do. -/
structure Books where
  heap : Heap
  tokens : Array Nat
  underWay : Multiset Stage

namespace Books

def opened (maxBytes initialBytes : Nat) : Books := ⟨.empty maxBytes initialBytes, #[], 0⟩

def liveBytes (b : Books) : Nat := b.heap.accounting.liveBytes

def sizes (b : Books) : Nat := b.heap.liveSizes + (b.underWay.map Stage.bytes).sum

def write (b : Books) (f : Accounting → Accounting) (underWay : Multiset Stage) : Books :=
  { b with heap := { b.heap with accounting := f b.heap.accounting }, underWay }

end Books

inductive Event where
  | quiet
  | rejected (f : Failure)
  | granted (x : Object)
  | refused (x : Object) (f : Failure)

/-- One access by one thread. A swap fails if the number has changed and may fail if it has not;
either way the thread then knows the present number, as if it had looked again. -/
inductive Step : Books → Event → Books → Prop where
  | ask {b : Books} {x : Object} (r : Registry) (a : Allocation)
      (accepted : a.object r b.heap = .ok x) :
      Step b .quiet { b with underWay := .looking x ::ₘ b.underWay }
  | reject {b : Books} {f : Failure} (r : Registry) (a : Allocation)
      (rejected : a.object r b.heap = .error f) : Step b (.rejected f) b
  | look {b : Books} {s : Stage} {x : Object} {rest : Multiset Stage}
      (here : b.underWay = s ::ₘ rest) (wanted : s.wanted? = some x)
      (room : ¬ b.heap.accounting.Exceeds x.bytes) :
      Step b .quiet { b with underWay := .swapping x b.liveBytes ::ₘ rest }
  | refuse {b : Books} {s : Stage} {x : Object} {rest : Multiset Stage}
      (here : b.underWay = s ::ₘ rest) (wanted : s.wanted? = some x)
      (full : b.heap.accounting.Exceeds x.bytes) :
      Step b (.refused x (.heapExhausted x.bytes b.liveBytes b.heap.accounting.maxBytes))
        { b with underWay := rest }
  | swap {b : Books} {x : Object} {rest : Multiset Stage}
      (here : b.underWay = .swapping x b.liveBytes ::ₘ rest) :
      Step b (.granted x) (b.write ({ · with liveBytes := saturatingAdd b.liveBytes x.bytes })
        (.raising x (saturatingAdd b.liveBytes x.bytes) ::ₘ rest))
  | raise {b : Books} {x : Object} {figure : Nat} {rest : Multiset Stage}
      (here : b.underWay = .raising x figure ::ₘ rest) :
      Step b .quiet (b.write (fun a => { a with peakBytes := max a.peakBytes figure })
        (.counting x ::ₘ rest))
  | count {b : Books} {x : Object} {rest : Multiset Stage}
      (here : b.underWay = .counting x ::ₘ rest) :
      Step b .quiet ⟨⟨b.heap.objects.push x, { b.heap.accounting with
        liveObjects := addWord b.heap.accounting.liveObjects 1 }⟩, b.tokens.push x.bytes, rest⟩
  | drop {b : Books} {o : ObjectId} {bytes : Nat} (there : o.index < b.heap.objects.size)
      (live : (b.heap.get o).live = true) (token : b.tokens[o.index]? = some bytes) :
      Step b .quiet { b with
        heap := b.heap.modify o ({ · with live := false })
        underWay := .releasing bytes ::ₘ b.underWay }
  | release {b : Books} {bytes : Nat} {rest : Multiset Stage}
      (here : b.underWay = .releasing bytes ::ₘ rest) :
      Step b .quiet (b.write (fun a => { a with liveBytes := subWord a.liveBytes bytes })
        (.uncounting ::ₘ rest))
  | uncount {b : Books} {rest : Multiset Stage} (here : b.underWay = .uncounting ::ₘ rest) :
      Step b .quiet (b.write (fun a => { a with liveObjects := subWord a.liveObjects 1 }) rest)
  /-- A change of an object that keeps its size: of a field, an element, the monitor. -/
  | edit {b : Books} {o : ObjectId} (f : Object → Object)
      (there : o.index < b.heap.objects.size)
      (bytes : (f (b.heap.get o)).bytes = (b.heap.get o).bytes)
      (live : (f (b.heap.get o)).live = (b.heap.get o).live) :
      Step b .quiet { b with heap := b.heap.modify o f }
  | collect {b : Books} : Step b .quiet (b.write Accounting.countCollection b.underWay)

/-- Steps of any threads, with the numbers of live bytes so far, the latest first. What the
operations are about never comes to 2⁶³ bytes. -/
inductive Run (start : Books) : List Nat → Books → Prop where
  | start : Run start [start.liveBytes] start
  | step {figures : List Nat} {b b' : Books} {e : Event} (run : Run start figures b)
      (step : Step b e b') (small : b'.sizes < 2 ^ 63) : Run start (b'.liveBytes :: figures) b'

structure Sound (maxBytes initialBytes : Nat) (b : Books) : Prop where
  limit : b.heap.accounting.maxBytes = maxBytes
  initial : b.heap.accounting.initialBytes = initialBytes
  recorded : b.tokens.size = b.heap.objects.size
  tokens : ∀ o : ObjectId, o.index < b.heap.objects.size →
    b.tokens[o.index]? = some (b.heap.get o).bytes
  fresh : ∀ s ∈ b.underWay, ∀ x, s.object? = some x → x.live = true
  liveBytes : b.liveBytes = b.heap.liveSizes + (b.underWay.map Stage.held).sum
  liveObjects : b.heap.accounting.liveObjects =
    (b.heap.liveCount + (b.underWay.map Stage.counted).sum) % wordSize
  within : maxBytes = 0 ∨ b.liveBytes ≤ maxBytes
  compared : ∀ x seen, Stage.swapping x seen ∈ b.underWay →
    maxBytes = 0 ∨ saturatingAdd seen x.bytes ≤ maxBytes
  small : b.sizes < 2 ^ 63

variable {maxBytes initialBytes : Nat} {b b' : Books} {e : Event}

theorem sound_opened : Sound maxBytes initialBytes (.opened maxBytes initialBytes) where
  limit := rfl
  initial := rfl
  recorded := rfl
  tokens _ there := absurd there (Nat.not_lt_zero _)
  fresh _ there := absurd there (Multiset.notMem_zero _)
  liveBytes := rfl
  liveObjects := rfl
  within := .inr (Nat.zero_le _)
  compared _ _ there := absurd there (Multiset.notMem_zero _)
  small := (by decide : 0 < 2 ^ 63)

theorem Books.held_le (b : Books) :
    b.heap.liveSizes + (b.underWay.map Stage.held).sum ≤ b.sizes := by
  refine Nat.add_le_add_left ?_ _
  induction b.underWay using Multiset.induction_on with
  | empty => exact Nat.le_refl 0
  | cons s rest ih =>
    rw [Multiset.map_cons, Multiset.map_cons, Multiset.sum_cons, Multiset.sum_cons]
    exact Nat.add_le_add s.held_le_bytes ih

theorem Sound.liveBytes_lt (sound : Sound maxBytes initialBytes b) : b.liveBytes < 2 ^ 63 :=
  Nat.lt_of_le_of_lt (sound.liveBytes ▸ b.held_le) sound.small

/-- What an allocation wants fits into a word together with what is live. -/
theorem Sound.wanted_lt (sound : Sound maxBytes initialBytes b) {s : Stage} {x : Object}
    {rest : Multiset Stage} (here : b.underWay = s ::ₘ rest) (wanted : s.wanted? = some x) :
    b.liveBytes + x.bytes < 2 ^ 63 := by
  have held : s.held = 0 ∧ s.bytes = x.bytes := by
    cases s <;> cases wanted <;> exact ⟨rfl, rfl⟩
  have all := Books.held_le { b with underWay := rest }
  have small := sound.small
  unfold Books.sizes at all small
  rw [sound.liveBytes]
  rw [here] at small ⊢
  simp only [Multiset.map_cons, Multiset.sum_cons, held.1, held.2] at small all ⊢
  omega

theorem Sound.exceeds_iff (sound : Sound maxBytes initialBytes b) {s : Stage} {x : Object}
    {rest : Multiset Stage} (here : b.underWay = s ::ₘ rest) (wanted : s.wanted? = some x) :
    b.heap.accounting.Exceeds x.bytes ↔ b.heap.accounting.fits x.bytes = false :=
  Accounting.exceeds_iff (Nat.lt_trans (sound.wanted_lt here wanted) (by decide))

theorem Sound.write (sound : Sound maxBytes initialBytes b) {f : Accounting → Accounting}
    {s : Stage} {rest next : Multiset Stage} (here : b.underWay = s ::ₘ rest)
    (limit : (f b.heap.accounting).maxBytes = b.heap.accounting.maxBytes)
    (initial : (f b.heap.accounting).initialBytes = b.heap.accounting.initialBytes)
    (bytes : (f b.heap.accounting).liveBytes + s.held = b.liveBytes + (next.map Stage.held).sum)
    (objects : (f b.heap.accounting).liveObjects =
      (b.heap.liveCount + ((next + rest).map Stage.counted).sum) % wordSize)
    (within : maxBytes = 0 ∨ (f b.heap.accounting).liveBytes ≤ maxBytes)
    (fresh : ∀ t ∈ next, ∀ x, t.object? = some x → s.object? = some x)
    (compared : ∀ x seen, Stage.swapping x seen ∈ next →
      maxBytes = 0 ∨ saturatingAdd seen x.bytes ≤ maxBytes)
    (small : (b.write f (next + rest)).sizes < 2 ^ 63) :
    Sound maxBytes initialBytes (b.write f (next + rest)) where
  limit := limit.trans sound.limit
  initial := initial.trans sound.initial
  recorded := sound.recorded
  tokens := sound.tokens
  fresh t there x about := by
    rcases Multiset.mem_add.mp there with new | old
    · exact sound.fresh s (here ▸ Multiset.mem_cons_self s rest) x (fresh t new x about)
    · exact sound.fresh t (here ▸ Multiset.mem_cons_of_mem old) x about
  liveBytes := by
    have before := sound.liveBytes
    rw [here, Multiset.map_cons, Multiset.sum_cons] at before
    show (f b.heap.accounting).liveBytes =
      b.heap.liveSizes + ((next + rest).map Stage.held).sum
    rw [Multiset.map_add, Multiset.sum_add]
    omega
  liveObjects := objects
  within := within
  compared x seen there := by
    rcases Multiset.mem_add.mp there with new | old
    · exact compared x seen new
    · exact sound.compared x seen (here ▸ Multiset.mem_cons_of_mem old)
  small := small

theorem Sound.sameObjects (sound : Sound maxBytes initialBytes b) {s : Stage}
    {rest next : Multiset Stage} (here : b.underWay = s ::ₘ rest)
    (counted : (next.map Stage.counted).sum = s.counted) :
    b.heap.accounting.liveObjects =
      (b.heap.liveCount + ((next + rest).map Stage.counted).sum) % wordSize := by
  have before := sound.liveObjects
  rw [here, Multiset.map_cons, Multiset.sum_cons] at before
  rw [Multiset.map_add, Multiset.sum_add, counted]
  exact before

theorem Sound.look (sound : Sound maxBytes initialBytes b) {s : Stage} {x : Object}
    {rest : Multiset Stage} (here : b.underWay = s ::ₘ rest) (wanted : s.wanted? = some x)
    (room : ¬ b.heap.accounting.Exceeds x.bytes)
    (small : (b.write id (.swapping x b.liveBytes ::ₘ rest)).sizes < 2 ^ 63) :
    Sound maxBytes initialBytes (b.write id (.swapping x b.liveBytes ::ₘ rest)) := by
  have idle : s.held = 0 ∧ s.counted = 0 ∧ s.object? = some x := by
    cases s <;> cases wanted <;> exact ⟨rfl, rfl, rfl⟩
  rw [← Multiset.singleton_add] at small ⊢
  refine sound.write here rfl rfl ?_ (sound.sameObjects here ?_) sound.within ?_ ?_ small
  · rw [idle.1]
    rfl
  · rw [idle.2.1]
    rfl
  · intro t new y about
    cases Multiset.mem_singleton.mp new
    cases about
    exact idle.2.2
  · intro y seen new
    cases Multiset.mem_singleton.mp new
    unfold Exceeds at room
    rw [sound.limit] at room
    simpa only [Books.liveBytes, not_and, not_lt, ne_eq, Decidable.or_iff_not_imp_left] using room

theorem Sound.refuse (sound : Sound maxBytes initialBytes b) {s : Stage} {x : Object}
    {rest : Multiset Stage} (here : b.underWay = s ::ₘ rest) (wanted : s.wanted? = some x)
    (small : (b.write id rest).sizes < 2 ^ 63) : Sound maxBytes initialBytes (b.write id rest) := by
  have idle : s.held = 0 ∧ s.counted = 0 := by
    cases s <;> cases wanted <;> exact ⟨rfl, rfl⟩
  rw [← Multiset.zero_add rest] at small ⊢
  refine sound.write here rfl rfl ?_ (sound.sameObjects here ?_) sound.within ?_ ?_ small
  · rw [idle.1]
    rfl
  · rw [idle.2]
    rfl
  · exact fun t new => absurd new (Multiset.notMem_zero t)
  · exact fun x seen new => absurd new (Multiset.notMem_zero _)

theorem Sound.swap (sound : Sound maxBytes initialBytes b) {x : Object} {rest : Multiset Stage}
    (here : b.underWay = .swapping x b.liveBytes ::ₘ rest)
    (small : (b.write ({ · with liveBytes := saturatingAdd b.liveBytes x.bytes })
      (.raising x (saturatingAdd b.liveBytes x.bytes) ::ₘ rest)).sizes < 2 ^ 63) :
    Sound maxBytes initialBytes (b.write ({ · with liveBytes := saturatingAdd b.liveBytes x.bytes })
      (.raising x (saturatingAdd b.liveBytes x.bytes) ::ₘ rest)) := by
  have sum : saturatingAdd b.liveBytes x.bytes = b.liveBytes + x.bytes :=
    saturatingAdd_eq (Nat.lt_trans (sound.wanted_lt here rfl) (by decide))
  have within := sound.compared x b.liveBytes (here ▸ Multiset.mem_cons_self _ rest)
  rw [← Multiset.singleton_add] at small ⊢
  refine sound.write here rfl rfl ?_ (sound.sameObjects here rfl) within ?_ ?_ small
  · rw [Multiset.map_singleton, Multiset.sum_singleton]
    exact sum
  · intro t new y about
    cases Multiset.mem_singleton.mp new
    exact about
  · intro y seen new
    cases Multiset.mem_singleton.mp new

theorem Sound.raise (sound : Sound maxBytes initialBytes b) {x : Object} {figure : Nat}
    {rest : Multiset Stage} (here : b.underWay = .raising x figure ::ₘ rest)
    (small : (b.write (fun a => { a with peakBytes := max a.peakBytes figure })
      (.counting x ::ₘ rest)).sizes < 2 ^ 63) :
    Sound maxBytes initialBytes (b.write (fun a => { a with peakBytes := max a.peakBytes figure })
      (.counting x ::ₘ rest)) := by
  rw [← Multiset.singleton_add] at small ⊢
  refine sound.write here rfl rfl ?_ (sound.sameObjects here rfl) sound.within ?_ ?_ small
  · rw [Multiset.map_singleton, Multiset.sum_singleton]
    rfl
  · intro t new y about
    cases Multiset.mem_singleton.mp new
    exact about
  · intro y seen new
    cases Multiset.mem_singleton.mp new

theorem Sound.release (sound : Sound maxBytes initialBytes b) {bytes : Nat} {rest : Multiset Stage}
    (here : b.underWay = .releasing bytes ::ₘ rest)
    (small : (b.write (fun a => { a with liveBytes := subWord a.liveBytes bytes })
      (.uncounting ::ₘ rest)).sizes < 2 ^ 63) :
    Sound maxBytes initialBytes
      (b.write (fun a => { a with liveBytes := subWord a.liveBytes bytes })
        (.uncounting ::ₘ rest)) := by
  have held : bytes ≤ b.liveBytes := by
    rw [sound.liveBytes, here, Multiset.map_cons, Multiset.sum_cons]
    exact Nat.le_add_left_of_le (Nat.le_add_right bytes _)
  have less : subWord b.liveBytes bytes = b.liveBytes - bytes :=
    subWord_eq held (Nat.lt_trans sound.liveBytes_lt (by decide))
  have within : maxBytes = 0 ∨ subWord b.liveBytes bytes ≤ maxBytes := by
    rw [less]
    exact sound.within.imp_right (Nat.le_trans (Nat.sub_le _ _))
  rw [← Multiset.singleton_add] at small ⊢
  refine sound.write here rfl rfl ?_ (sound.sameObjects here rfl) within ?_ ?_ small
  · rw [Multiset.map_singleton, Multiset.sum_singleton]
    show subWord b.liveBytes bytes + bytes = b.liveBytes + 0
    rw [less, Nat.sub_add_cancel held, Nat.add_zero]
  · intro t new y about
    cases Multiset.mem_singleton.mp new
    cases about
  · intro y seen new
    cases Multiset.mem_singleton.mp new

theorem Sound.uncount (sound : Sound maxBytes initialBytes b) {rest : Multiset Stage}
    (here : b.underWay = .uncounting ::ₘ rest)
    (small : (b.write (fun a => { a with liveObjects := subWord a.liveObjects 1 }) rest).sizes
      < 2 ^ 63) :
    Sound maxBytes initialBytes
      (b.write (fun a => { a with liveObjects := subWord a.liveObjects 1 }) rest) := by
  rw [← Multiset.zero_add rest] at small ⊢
  refine sound.write here rfl rfl rfl ?_ sound.within ?_ ?_ small
  · have before := sound.liveObjects
    rw [here, Multiset.map_cons, Multiset.sum_cons] at before
    show subWord b.heap.accounting.liveObjects 1 = _
    rw [before, Multiset.zero_add,
      show b.heap.liveCount + (Stage.uncounting.counted + (rest.map Stage.counted).sum) =
        b.heap.liveCount + (rest.map Stage.counted).sum + 1 by simp only [Stage.counted]; omega]
    exact subWord_mod _
  · exact fun t new => absurd new (Multiset.notMem_zero t)
  · exact fun x seen new => absurd new (Multiset.notMem_zero _)

theorem Sound.ask (sound : Sound maxBytes initialBytes b) {x : Object} (live : x.live = true)
    (small : Books.sizes { b with underWay := .looking x ::ₘ b.underWay } < 2 ^ 63) :
    Sound maxBytes initialBytes { b with underWay := .looking x ::ₘ b.underWay } where
  limit := sound.limit
  initial := sound.initial
  recorded := sound.recorded
  tokens := sound.tokens
  fresh s there y about := by
    rcases Multiset.mem_cons.mp there with rfl | old
    · cases about
      exact live
    · exact sound.fresh s old y about
  liveBytes := by
    rw [Multiset.map_cons, Multiset.sum_cons, Stage.held, Nat.zero_add]
    exact sound.liveBytes
  liveObjects := by
    rw [Multiset.map_cons, Multiset.sum_cons, Stage.counted, Nat.zero_add]
    · exact sound.liveObjects
    all_goals nofun
  within := sound.within
  compared y seen there := by
    rcases Multiset.mem_cons.mp there with other | old
    · cases other
    · exact sound.compared y seen old
  small := small

theorem Sound.count (sound : Sound maxBytes initialBytes b) {x : Object} {rest : Multiset Stage}
    (here : b.underWay = .counting x ::ₘ rest) {after : Books}
    (pushed : after = ⟨⟨b.heap.objects.push x, { b.heap.accounting with
      liveObjects := addWord b.heap.accounting.liveObjects 1 }⟩, b.tokens.push x.bytes, rest⟩)
    (small : after.sizes < 2 ^ 63) : Sound maxBytes initialBytes after := by
  subst pushed
  have live : x.live = true := sound.fresh _ (here ▸ Multiset.mem_cons_self _ rest) x rfl
  have old {s : Stage} (there : s ∈ rest) : s ∈ b.underWay := here ▸ Multiset.mem_cons_of_mem there
  refine ⟨sound.limit, sound.initial, ?_, ?_, fun s there => sound.fresh s (old there), ?_, ?_,
    sound.within, fun y seen there => sound.compared y seen (old there), small⟩
  · simp only [Array.size_push]
    exact congrArg (· + 1) sound.recorded
  · intro o there
    simp only [Array.size_push] at there
    rw [Array.getElem?_push, sound.recorded, Heap.get_push]
    split
    · rfl
    · exact sound.tokens o (by omega)
  · have before := sound.liveBytes
    rw [here, Multiset.map_cons, Multiset.sum_cons] at before
    show b.liveBytes = Heap.weigh Object.bytes _ + _
    rw [Heap.weigh_push, if_pos live, before, Nat.add_assoc]
    rfl
  · have before := sound.liveObjects
    rw [here, Multiset.map_cons, Multiset.sum_cons] at before
    show addWord b.heap.accounting.liveObjects 1 = (Heap.weigh (fun _ => 1) _ + _) % wordSize
    rw [Heap.weigh_push, if_pos live, before, addWord_mod]
    simp only [Stage.counted, Heap.liveCount]
    congr 1
    omega

theorem tokens_modify (sound : Sound maxBytes initialBytes b) {o : ObjectId} {f : Object → Object}
    (bytes : (f (b.heap.get o)).bytes = (b.heap.get o).bytes) (p : ObjectId)
    (there : p.index < (b.heap.modify o f).objects.size) :
    b.tokens[p.index]? = some ((b.heap.modify o f).get p).bytes := by
  have present : p.index < b.heap.objects.size := by simpa [Heap.modify] using there
  rw [Heap.get_modify]
  split
  · rename_i same
    rw [← same.1, bytes]
    exact sound.tokens o (same.1 ▸ present)
  · exact sound.tokens p present

theorem Sound.drop (sound : Sound maxBytes initialBytes b) {o : ObjectId} {bytes : Nat}
    (there : o.index < b.heap.objects.size) (live : (b.heap.get o).live = true)
    (token : b.tokens[o.index]? = some bytes)
    (small : Books.sizes { b with
      heap := b.heap.modify o ({ · with live := false })
      underWay := .releasing bytes ::ₘ b.underWay } < 2 ^ 63) :
    Sound maxBytes initialBytes { b with
      heap := b.heap.modify o ({ · with live := false })
      underWay := .releasing bytes ::ₘ b.underWay } := by
  have size : bytes = (b.heap.get o).bytes :=
    Option.some.inj (token.symm.trans (sound.tokens o there))
  refine ⟨sound.limit, sound.initial, ?_, tokens_modify sound rfl, ?_, ?_, ?_, sound.within, ?_,
    small⟩
  · simpa [Heap.modify] using sound.recorded
  · intro s new x about
    rcases Multiset.mem_cons.mp new with rfl | old
    · cases about
    · exact sound.fresh s old x about
  · show b.liveBytes = Heap.weigh Object.bytes _ + _
    rw [sound.liveBytes, Heap.liveSizes, ← Heap.weigh_drop there live, Multiset.map_cons,
      Multiset.sum_cons, Stage.held, size, Nat.add_assoc]
  · show b.heap.accounting.liveObjects = (Heap.weigh (fun _ => 1) _ + _) % wordSize
    rw [sound.liveObjects, Heap.liveCount, ← Heap.weigh_drop there live, Multiset.map_cons,
      Multiset.sum_cons, Stage.counted, Nat.add_assoc]
  · intro x seen new
    rcases Multiset.mem_cons.mp new with other | old
    · cases other
    · exact sound.compared x seen old

theorem Sound.edit (sound : Sound maxBytes initialBytes b) {o : ObjectId} {f : Object → Object}
    (there : o.index < b.heap.objects.size)
    (bytes : (f (b.heap.get o)).bytes = (b.heap.get o).bytes)
    (live : (f (b.heap.get o)).live = (b.heap.get o).live) :
    Sound maxBytes initialBytes { b with heap := b.heap.modify o f } := by
  have sizes : (b.heap.modify o f).liveSizes = b.heap.liveSizes := by
    have weighed := Heap.weigh_modify (f := Object.bytes) there f
    rw [live, bytes] at weighed
    exact Nat.add_right_cancel weighed
  have number : (b.heap.modify o f).liveCount = b.heap.liveCount := by
    have weighed := Heap.weigh_modify (f := fun _ => 1) there f
    rw [live] at weighed
    exact Nat.add_right_cancel weighed
  refine ⟨sound.limit, sound.initial, ?_, tokens_modify sound bytes, sound.fresh, ?_, ?_,
    sound.within, sound.compared, ?_⟩
  · simpa [Heap.modify] using sound.recorded
  · exact sound.liveBytes.trans (by rw [sizes])
  · exact sound.liveObjects.trans (by rw [number])
  · show (b.heap.modify o f).liveSizes + _ < _
    rw [sizes]
    exact sound.small

theorem Sound.step (sound : Sound maxBytes initialBytes b) (step : Step b e b')
    (small : b'.sizes < 2 ^ 63) : Sound maxBytes initialBytes b' := by
  cases step with
  | ask r a accepted => exact sound.ask (Allocation.object_eq_ok accepted).1 small
  | reject r a rejected => exact sound
  | look here wanted room => exact sound.look here wanted room small
  | refuse here wanted full => exact sound.refuse here wanted small
  | swap here => exact sound.swap here small
  | raise here => exact sound.raise here small
  | count here => exact sound.count here rfl small
  | drop there live token => exact sound.drop there live token small
  | release here => exact sound.release here small
  | uncount here => exact sound.uncount here small
  | edit f there bytes live => exact sound.edit there bytes live
  | collect =>
    exact ⟨sound.limit, sound.initial, sound.recorded, sound.tokens, sound.fresh, sound.liveBytes,
      sound.liveObjects, sound.within, sound.compared, sound.small⟩

theorem Sound.run {figures : List Nat} {start : Books} (sound : Sound maxBytes initialBytes start)
    (run : Run start figures b) : Sound maxBytes initialBytes b := by
  induction run with
  | start => exact sound
  | step _ step small ih => exact ih.step step small

/-- The peak is a number of live bytes that has been reached, and no number reached is greater but
for those that a thread is about to raise it to. -/
structure Peaked (figures : List Nat) (b : Books) : Prop where
  present : b.liveBytes ∈ figures
  reached : b.heap.accounting.peakBytes ∈ figures
  raised : ∀ x figure, Stage.raising x figure ∈ b.underWay → figure ∈ figures
  covered : ∀ n ∈ figures, n ≤ b.heap.accounting.peakBytes ∨
    ∃ x figure, Stage.raising x figure ∈ b.underWay ∧ n ≤ figure

variable {figures : List Nat}

theorem peaked_start {start : Books} (none : start.heap.accounting.peakBytes = start.liveBytes)
    (idle : start.underWay = 0) : Peaked [start.liveBytes] start where
  present := List.mem_singleton_self _
  reached := none ▸ List.mem_singleton_self _
  raised _ _ there := absurd (idle ▸ there) (Multiset.notMem_zero _)
  covered _ there := .inl (none ▸ Nat.le_of_eq (List.mem_singleton.mp there))

theorem Peaked.keep (peaked : Peaked figures b) (less : b'.liveBytes ≤ b.liveBytes)
    (peak : b'.heap.accounting.peakBytes = b.heap.accounting.peakBytes)
    (raising : ∀ x figure, Stage.raising x figure ∈ b'.underWay ↔
      Stage.raising x figure ∈ b.underWay) : Peaked (b'.liveBytes :: figures) b' where
  present := List.mem_cons_self
  reached := peak ▸ List.mem_cons_of_mem _ peaked.reached
  raised x figure there :=
    List.mem_cons_of_mem _ (peaked.raised x figure ((raising x figure).mp there))
  covered n there := by
    have older : ∃ m ∈ figures, n ≤ m := by
      rcases List.mem_cons.mp there with rfl | old
      · exact ⟨_, peaked.present, less⟩
      · exact ⟨n, old, Nat.le_refl n⟩
    obtain ⟨m, old, le⟩ := older
    rw [peak]
    rcases peaked.covered m old with below | ⟨x, figure, there, below⟩
    · exact .inl (Nat.le_trans le below)
    · exact .inr ⟨x, figure, (raising x figure).mpr there, Nat.le_trans le below⟩

theorem raising_cons {s : Stage} {rest : Multiset Stage} (here : b.underWay = s ::ₘ rest)
    (other : ∀ x figure, s ≠ .raising x figure) (x : Object) (figure : Nat) :
    Stage.raising x figure ∈ rest ↔ Stage.raising x figure ∈ b.underWay := by
  rw [here, Multiset.mem_cons, or_iff_right fun same => other x figure same.symm]

theorem raising_replaced {s t : Stage} {rest : Multiset Stage} (here : b.underWay = s ::ₘ rest)
    (other : ∀ x figure, s ≠ .raising x figure) (next : ∀ x figure, t ≠ .raising x figure)
    (x : Object) (figure : Nat) :
    Stage.raising x figure ∈ t ::ₘ rest ↔ Stage.raising x figure ∈ b.underWay := by
  rw [Multiset.mem_cons, or_iff_right fun same => next x figure same.symm]
  exact raising_cons here other x figure

theorem Peaked.swap (peaked : Peaked figures b) {s : Stage} {x : Object} {rest : Multiset Stage}
    {sum : Nat} (here : b.underWay = s ::ₘ rest) (other : ∀ x figure, s ≠ .raising x figure) :
    Peaked (sum :: figures) (b.write ({ · with liveBytes := sum }) (.raising x sum ::ₘ rest)) where
  present := List.mem_cons_self
  reached := List.mem_cons_of_mem _ peaked.reached
  raised y figure there := by
    rcases Multiset.mem_cons.mp there with new | old
    · cases new
      exact List.mem_cons_self
    · have old := (raising_cons here other y figure).mp old
      exact List.mem_cons_of_mem _ (peaked.raised y figure old)
  covered n there := by
    rcases List.mem_cons.mp there with rfl | old
    · exact .inr ⟨x, n, Multiset.mem_cons_self _ _, Nat.le_refl n⟩
    · rcases peaked.covered n old with below | ⟨y, figure, there, below⟩
      · exact .inl below
      · have there := (raising_cons here other y figure).mpr there
        exact .inr ⟨y, figure, Multiset.mem_cons_of_mem there, below⟩

theorem Peaked.raise (peaked : Peaked figures b) {x : Object} {figure : Nat}
    {rest : Multiset Stage} (here : b.underWay = .raising x figure ::ₘ rest) :
    Peaked (b.liveBytes :: figures)
      (b.write (fun a => { a with peakBytes := max a.peakBytes figure })
        (.counting x ::ₘ rest)) where
  present := List.mem_cons_self
  reached := by
    show max b.heap.accounting.peakBytes figure ∈ _
    rcases max_choice b.heap.accounting.peakBytes figure with same | same <;> rw [same]
    · exact List.mem_cons_of_mem _ peaked.reached
    · exact List.mem_cons_of_mem _ (peaked.raised x figure (here ▸ Multiset.mem_cons_self _ rest))
  raised y n there := by
    rcases Multiset.mem_cons.mp there with other | old
    · cases other
    · exact List.mem_cons_of_mem _ (peaked.raised y n (here ▸ Multiset.mem_cons_of_mem old))
  covered n there := by
    have old : n ∈ figures := by
      rcases List.mem_cons.mp there with rfl | old
      · exact peaked.present
      · exact old
    rcases peaked.covered n old with below | ⟨y, m, raising, below⟩
    · exact .inl (Nat.le_trans below (Nat.le_max_left _ _))
    · rw [here] at raising
      rcases Multiset.mem_cons.mp raising with same | other
      · cases same
        exact .inl (Nat.le_trans below (Nat.le_max_right _ _))
      · exact .inr ⟨y, m, Multiset.mem_cons_of_mem other, below⟩

theorem Peaked.recount (peaked : Peaked figures b) {rest : Multiset Stage}
    (raising : ∀ x figure, Stage.raising x figure ∈ rest ↔ Stage.raising x figure ∈ b.underWay)
    (n : Accounting → Nat) :
    Peaked ((b.write (fun a => { a with liveObjects := n a }) rest).liveBytes :: figures)
      (b.write (fun a => { a with liveObjects := n a }) rest) :=
  peaked.keep (Nat.le_refl _) rfl raising

theorem Peaked.step (peaked : Peaked figures b) (sound : Sound maxBytes initialBytes b)
    (step : Step b e b') : Peaked (b'.liveBytes :: figures) b' := by
  have unraised {s : Stage} {x : Object} (wanted : s.wanted? = some x) (y : Object) (n : Nat) :
      s ≠ .raising y n := by
    rintro rfl
    cases wanted
  cases step with
  | ask r a accepted =>
    exact peaked.keep (Nat.le_refl _) rfl fun x n => by
      rw [Multiset.mem_cons, or_iff_right (by nofun)]
  | reject r a rejected => exact peaked.keep (Nat.le_refl _) rfl fun _ _ => .rfl
  | look here wanted room =>
    exact peaked.keep (Nat.le_refl _) rfl (raising_replaced here (unraised wanted) (by nofun))
  | refuse here wanted full =>
    exact peaked.keep (Nat.le_refl _) rfl (raising_cons here (unraised wanted))
  | swap here => exact peaked.swap here (by nofun)
  | raise here => exact peaked.raise here
  | count here => exact peaked.keep (Nat.le_refl _) rfl (raising_cons here (by nofun))
  | drop there live token =>
    exact peaked.keep (Nat.le_refl _) rfl fun x n => by
      rw [Multiset.mem_cons, or_iff_right (by nofun)]
  | @release bytes rest here =>
    refine peaked.keep ?_ rfl (raising_replaced here (by nofun) (by nofun))
    have held : bytes ≤ b.liveBytes := by
      rw [sound.liveBytes, here, Multiset.map_cons, Multiset.sum_cons]
      exact Nat.le_add_left_of_le (Nat.le_add_right bytes _)
    show subWord b.liveBytes bytes ≤ b.liveBytes
    rw [subWord_eq held (Nat.lt_trans sound.liveBytes_lt (by decide))]
    exact Nat.sub_le _ _
  | uncount here =>
    exact peaked.recount (raising_cons here (by nofun)) fun a => subWord a.liveObjects 1
  | edit f there bytes live => exact peaked.keep (Nat.le_refl _) rfl fun _ _ => .rfl
  | collect => exact peaked.keep (Nat.le_refl _) rfl fun _ _ => .rfl

theorem Peaked.run {start : Books} (peaked : Peaked [start.liveBytes] start)
    (sound : Sound maxBytes initialBytes start) (run : Run start figures b) :
    Peaked figures b := by
  induction run with
  | start => exact peaked
  | step run step small ih => exact ih.step (sound.run run) step

end Bookkeeping
end ManagedRuntime
