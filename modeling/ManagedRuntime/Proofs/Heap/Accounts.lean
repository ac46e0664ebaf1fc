import ManagedRuntime.Proofs.Heap.Bookkeeping

/-!
The heap's figures against the objects that are live. Main statement: whatever allocations and drops
threads have under way at the same time, a limit is never exceeded and an allocation is refused
exactly if it would be; once nothing is under way the counters are the number and the sizes of the
live objects, the peak is the greatest number of bytes that were live, and the memory that is
reported as free is what is left of the total. The heap's own allocation and reclamation are runs of
such steps.
-/
namespace ManagedRuntime.Bookkeeping
open Accounting

variable {maxBytes initialBytes : Nat} {start b b' : Books} {figures : List Nat} {e : Event}

/-- What is made known is true: an allocation fails for want of memory if the limit does not allow
it at that moment, and a failed one changes nothing. -/
inductive Answers (b b' : Books) : Event → Prop where
  | quiet : Answers b b' .quiet
  | rejected {f : Failure} (same : b' = b)
      (other : ∀ detail, f ≠ .outOfMemory detail) :
      Answers b b' (.rejected f)
  | granted {x : Object} (fits : b.heap.accounting.fits x.bytes = true)
      (reserved : b'.liveBytes = b.liveBytes + x.bytes) : Answers b b' (.granted x)
  | refused {x : Object} {f : Failure} (limited : b.heap.accounting.maxBytes ≠ 0)
      (beyond : b.heap.accounting.maxBytes < b.liveBytes + x.bytes)
      (failure : b.heap.accounting.reserve x.bytes = .error f) (heap : b'.heap = b.heap)
      (tokens : b'.tokens = b.tokens) : Answers b b' (.refused x f)

theorem Allocation.object_eq_error {r : Registry} {h : Heap} {a : Allocation} {f : Failure}
    (rejected : a.object r h = .error f) (detail : String) : f ≠ .outOfMemory detail := by
  intro same
  cases a with
  | plain c =>
    simp only [object, Heap.newInstance] at rejected
    split at rejected <;> cases rejected
    cases same
  | array c length =>
    simp only [object, Heap.newArray, Heap.elementKind] at rejected
    split at rejected
    · cases rejected
      cases same
    · split at rejected <;> cases rejected
      cases same
  | arrayOf | string | mirror | backtrace | copy => cases rejected

theorem Sound.answers (sound : Sound maxBytes initialBytes b) (step : Step b e b') :
    Answers b b' e := by
  cases step with
  | ask | look | raise | count | drop | release | uncount | edit | collect => exact .quiet
  | reject r a rejected => exact .rejected rfl (Allocation.object_eq_error rejected)
  | @refuse s x rest here wanted full =>
    have misfit := (sound.exceeds_iff here wanted).mp full
    have both : b.heap.accounting.maxBytes ≠ 0 ∧
        b.heap.accounting.maxBytes < b.liveBytes + x.bytes := by
      simpa [fits, Books.liveBytes] using misfit
    refine .refused both.1 both.2 ?_ rfl rfl
    unfold reserve
    rw [if_neg (ne_true_of_eq_false misfit)]
    rfl
  | @swap x rest here =>
    have sum : saturatingAdd b.liveBytes x.bytes = b.liveBytes + x.bytes :=
      saturatingAdd_eq (Nat.lt_trans (sound.wanted_lt here rfl) (by decide))
    have within := sound.compared x b.liveBytes (here ▸ Multiset.mem_cons_self _ rest)
    rw [sum, ← sound.limit] at within
    exact .granted (by simpa [fits, Books.liveBytes] using within) sum

structure Exact (h : Heap) (figures : List Nat) : Prop where
  liveObjects : h.accounting.liveObjects = h.objects.countP (·.live)
  liveBytes : h.accounting.liveBytes = h.liveSizes
  peak : IsGreatest {n | n ∈ figures} h.accounting.peakBytes
  free : h.accounting.freeMemory + h.accounting.liveBytes = h.accounting.totalMemory
  total : h.accounting.totalMemory ≤ h.accounting.maxMemory

theorem Sound.idle_counters (sound : Sound maxBytes initialBytes b) (idle : b.underWay = 0) :
    b.heap.accounting.liveObjects = b.heap.liveCount ∧ b.liveBytes = b.heap.liveSizes := by
  have bytes : b.liveBytes = b.heap.liveSizes := by
    rw [sound.liveBytes, idle]
    rfl
  have few : b.heap.liveCount < wordSize := by
    have := b.heap.liveCount_le_liveSizes
    have := sound.liveBytes_lt
    unfold wordSize
    omega
  refine ⟨?_, bytes⟩
  rw [sound.liveObjects, idle]
  exact Nat.mod_eq_of_lt few

/-- Memory that is not live is free, as long as the peak and the limit allow for what is live. -/
theorem free_add_live {a : Accounting} (peak : a.liveBytes ≤ a.peakBytes)
    (within : a.maxBytes = 0 ∨ a.liveBytes ≤ a.maxBytes) (small : a.liveBytes < 2 ^ 63) :
    a.freeMemory + a.liveBytes = a.totalMemory := by
  have used : a.liveBytes ≤ a.size := by
    unfold size
    dsimp only
    split <;> omega
  unfold freeMemory totalMemory maxFigure
  omega

theorem totalMemory_le_maxMemory (a : Accounting) : a.totalMemory ≤ a.maxMemory := by
  unfold totalMemory maxMemory size
  dsimp only
  split <;> omega

theorem Sound.exact (sound : Sound maxBytes initialBytes b) (peaked : Peaked figures b)
    (idle : b.underWay = 0) : Exact b.heap figures := by
  obtain ⟨objects, bytes⟩ := sound.idle_counters idle
  have highest : ∀ n ∈ figures, n ≤ b.heap.accounting.peakBytes := by
    intro n there
    rcases peaked.covered n there with below | ⟨x, figure, raising, _⟩
    · exact below
    · exact absurd (idle ▸ raising) (Multiset.notMem_zero _)
  exact {
    liveObjects := objects.trans (Heap.liveCount_eq_countP _)
    liveBytes := bytes
    peak := ⟨peaked.reached, highest⟩
    free := free_add_live (highest _ peaked.present) (sound.limit ▸ sound.within) sound.liveBytes_lt
    total := totalMemory_le_maxMemory _ }

/-! The heap's own operations, each done without another in between. -/

def Reached (start : Books) (h : Heap) : Prop :=
  ∃ figures tokens, Run start figures ⟨h, tokens, 0⟩

theorem sizes_one (h : Heap) (tokens : Array Nat) (s : Stage) :
    Books.sizes ⟨h, tokens, {s}⟩ = h.liveSizes + s.bytes := by
  simp [Books.sizes]

section
variable {h : Heap} {tokens : Array Nat} {x : Object}

theorem Run.grant (run : Run start figures ⟨h, tokens, {.looking x}⟩) (live : x.live = true)
    (fits : ¬ h.accounting.Exceeds x.bytes) (small : h.liveSizes + x.bytes < 2 ^ 63)
    {sum objects : Nat} (summed : sum = saturatingAdd h.accounting.liveBytes x.bytes)
    (counted : objects = addWord h.accounting.liveObjects 1) :
    Reached start ⟨h.objects.push x, { h.accounting with
      liveBytes := sum
      liveObjects := objects
      peakBytes := max h.accounting.peakBytes sum }⟩ := by
  have alone (accounting : Accounting) (s : Stage) (bytes : s.bytes = x.bytes) :
      Books.sizes ⟨⟨h.objects, accounting⟩, tokens, {s}⟩ < 2 ^ 63 := by
    rw [sizes_one, bytes]
    exact small
  have looked := run.step (.look rfl rfl fits) (alone _ _ rfl)
  have swapped := looked.step (.swap rfl) (alone _ _ rfl)
  have raised := swapped.step (.raise rfl) (alone _ _ rfl)
  subst summed counted
  refine ⟨_, _, raised.step (.count rfl) ?_⟩
  show Heap.weigh Object.bytes _ + 0 < 2 ^ 63
  rw [Heap.weigh_push, if_pos live]
  exact small

theorem Run.allocate (run : Run start figures ⟨h, tokens, 0⟩)
    (sound : Sound maxBytes initialBytes ⟨h, tokens, 0⟩) {r : Registry} {a : Allocation}
    (accepted : a.object r h = .ok x) (small : h.liveSizes + x.bytes < 2 ^ 63) :
    Reached start (h.allocate x).2 := by
  obtain ⟨objects, bytes⟩ := sound.idle_counters rfl
  have live := (Allocation.object_eq_ok accepted).1
  have word : h.accounting.liveBytes + x.bytes < wordSize := by
    rw [show h.accounting.liveBytes = h.liveSizes from bytes]
    exact Nat.lt_trans small (by decide)
  have counted : h.accounting.liveObjects + 1 < wordSize := by
    rw [show h.accounting.liveObjects = h.liveCount from objects]
    have few := h.liveCount_le_liveSizes
    unfold wordSize
    omega
  have asked := run.step (.ask r a accepted) (by
    show Books.sizes ⟨h, tokens, {.looking x}⟩ < _
    rw [sizes_one]
    exact small)
  unfold Heap.allocate reserve
  cases fits : h.accounting.fits x.bytes with
  | false =>
    refine ⟨_, _, asked.step (.refuse rfl rfl ((exceeds_iff word).mpr fits)) ?_⟩
    exact Nat.lt_of_le_of_lt (Nat.le_add_right _ x.bytes) small
  | true =>
    have room : ¬ h.accounting.Exceeds x.bytes := by
      rw [exceeds_iff word, fits]
      exact Bool.noConfusion
    exact asked.grant live room small (saturatingAdd_eq word).symm (Nat.mod_eq_of_lt counted).symm

theorem Run.giveBack (run : Run start figures ⟨h, tokens, 0⟩) {o : ObjectId}
    (there : o.index < h.objects.size) (live : (h.get o).live = true)
    (token : tokens[o.index]? = some (h.get o).bytes) (small : h.liveSizes < 2 ^ 63)
    {bytes objects : Nat} (lessened : bytes = subWord h.accounting.liveBytes (h.get o).bytes)
    (counted : objects = subWord h.accounting.liveObjects 1) :
    Reached start ⟨(h.modify o ({ · with live := false })).objects, { h.accounting with
      liveBytes := bytes
      liveObjects := objects }⟩ := by
  have dropped : (h.modify o ({ · with live := false })).liveSizes + (h.get o).bytes < 2 ^ 63 := by
    rw [Heap.liveSizes, Heap.weigh_drop there live]
    exact small
  have after (accounting : Accounting) (underWay : Multiset Stage)
      (left : (underWay.map Stage.bytes).sum ≤ (h.get o).bytes) :
      Books.sizes ⟨⟨(h.modify o ({ · with live := false })).objects, accounting⟩, tokens, underWay⟩
        < 2 ^ 63 :=
    Nat.lt_of_le_of_lt (Nat.add_le_add_left left _) dropped
  have leaving : Run start _ ⟨h.modify o ({ · with live := false }), tokens,
      {.releasing (h.get o).bytes}⟩ :=
    run.step (.drop there live token) (after _ _ (Nat.le_refl _))
  have released := leaving.step (@Step.release _ _ 0 rfl)
    (after _ {Stage.uncounting} (Nat.zero_le _))
  rw [lessened, counted]
  exact ⟨_, _, released.step (.uncount rfl) (after _ 0 (Nat.zero_le _))⟩

end

variable {h : Heap}

theorem Reached.reclaimOne (sound : Sound maxBytes initialBytes start) (reached : Reached start h)
    {i : Nat} (there : i < h.objects.size) : Reached start (h.reclaimOne i) := by
  obtain ⟨figures, tokens, run⟩ := reached
  unfold Heap.reclaimOne
  dsimp only
  cases live : (h.get ⟨i⟩).live with
  | false => exact ⟨figures, tokens, run⟩
  | true =>
    have now := sound.run run
    obtain ⟨objects, bytes⟩ := now.idle_counters rfl
    have held : (h.get ⟨i⟩).bytes ≤ h.accounting.liveBytes := by
      rw [show h.accounting.liveBytes = h.liveSizes from bytes, Heap.liveSizes,
        ← Heap.weigh_drop there live]
      exact Nat.le_add_left _ _
    have one : 1 ≤ h.accounting.liveObjects := by
      rw [show h.accounting.liveObjects = h.liveCount from objects, Heap.liveCount,
        ← Heap.weigh_drop (o := ⟨i⟩) there live]
      exact Nat.le_add_left _ _
    have small : h.liveSizes < 2 ^ 63 := now.small
    have few : h.accounting.liveObjects < wordSize := by
      rw [show h.accounting.liveObjects = h.liveCount from objects]
      exact Nat.lt_of_le_of_lt h.liveCount_le_liveSizes (Nat.lt_trans small (by decide))
    have word : h.accounting.liveBytes < wordSize := Nat.lt_trans now.liveBytes_lt (by decide)
    exact run.giveBack there live (now.tokens ⟨i⟩ there) small (subWord_eq held word).symm
      (subWord_eq one few).symm

theorem Reached.reclaimRound (sound : Sound maxBytes initialBytes start)
    (reached : Reached start h) (roots : List ObjectId) :
    Reached start (h.reclaimRound roots) := by
  unfold Heap.reclaimRound
  dsimp only
  generalize h.referenced roots = marks
  have each (is : List Nat) (g : Heap) (reached : Reached start g)
      (there : ∀ i ∈ is, i < g.objects.size) :
      Reached start
        (is.foldl (fun g i => if (marks[i]?).getD true then g else g.reclaimOne i) g) := by
    induction is generalizing g with
    | nil => exact reached
    | cons i is ih =>
      rw [List.foldl_cons]
      split
      · exact ih g reached fun j later => there j (List.mem_cons_of_mem _ later)
      · refine ih _ (reached.reclaimOne sound (there i List.mem_cons_self)) fun j later => ?_
        rw [(Heap.reclaimOne_alike g i).size]
        exact there j (List.mem_cons_of_mem _ later)
  exact each _ h reached fun i there => List.mem_range.mp there

theorem Reached.reclaim (sound : Sound maxBytes initialBytes start) (reached : Reached start h)
    (roots : List ObjectId) : Reached start (h.reclaim roots) := by
  have rounds (n : Nat) (g : Heap) (reached : Reached start g) :
      Reached start (Heap.reclaimRounds roots n g) := by
    induction n generalizing g with
    | zero => exact reached
    | succ n ih =>
      rw [Heap.reclaimRounds]
      split
      · exact reached.reclaimRound sound roots
      · exact ih _ (reached.reclaimRound sound roots)
  exact rounds _ h reached

theorem reserve_eq_error_iff {a : Accounting} {bytes : Nat} :
    (∃ f, a.reserve bytes = .error f) ↔ a.maxBytes ≠ 0 ∧ a.maxBytes < a.liveBytes + bytes := by
  unfold reserve
  cases fits : a.fits bytes with
  | true =>
    rw [if_pos rfl]
    refine ⟨fun ⟨f, failed⟩ => (nomatch failed), fun beyond => ?_⟩
    simp [Accounting.fits, beyond.1, Nat.not_le.mpr beyond.2] at fits
  | false =>
    rw [if_neg Bool.false_ne_true]
    exact ⟨fun _ => by simpa [Accounting.fits] using fits, fun _ => ⟨_, rfl⟩⟩

/-- The heap's allocation, as a whole, fails under the same condition. -/
theorem allocate_eq_error_iff (h : Heap) (x : Object) :
    (∃ f, (h.allocate x).1 = .error f) ↔
      h.accounting.maxBytes ≠ 0 ∧ h.accounting.maxBytes < h.accounting.liveBytes + x.bytes := by
  rw [← reserve_eq_error_iff]
  unfold Heap.allocate
  cases h.accounting.reserve x.bytes with
  | error f => exact ⟨fun _ => ⟨f, rfl⟩, fun _ => ⟨f, rfl⟩⟩
  | ok a => exact ⟨fun ⟨_, failed⟩ => (nomatch failed), fun ⟨_, failed⟩ => (nomatch failed)⟩

theorem allocateResult_unchanged (h : Heap) (x : Except Failure Object) {f : Failure}
    (failed : (h.allocateResult x).1 = .error f) : (h.allocateResult x).2 = h := by
  cases x with
  | error g => rfl
  | ok x =>
    simp only [Heap.allocateResult, Heap.allocate] at failed ⊢
    cases reserved : h.accounting.reserve x.bytes with
    | error g => rfl
    | ok a =>
      rw [reserved] at failed
      cases failed

/-- An object has been added under a new number, and the counters have grown by it. -/
structure Added (h : Heap) (x : Object) (o : ObjectId) (h' : Heap) : Prop where
  fresh : o.index = h.objects.size
  there : o.index < h'.objects.size
  object : h'.get o = x
  others : ∀ p : ObjectId, p.index < h.objects.size → h'.get p = h.get p
  liveObjects : h'.accounting.liveObjects = h.accounting.liveObjects + 1
  liveBytes : h'.accounting.liveBytes = h.accounting.liveBytes + x.bytes
  peakBytes : h'.accounting.peakBytes =
    max h.accounting.peakBytes (h.accounting.liveBytes + x.bytes)

theorem added_of_allocate {h : Heap} {x : Object} {o : ObjectId}
    (allocated : (h.allocate x).1 = .ok o) : Added h x o (h.allocate x).2 := by
  unfold Heap.allocate reserve at allocated ⊢
  cases fits : h.accounting.fits x.bytes with
  | false =>
    rw [fits, if_neg Bool.false_ne_true] at allocated
    cases allocated
  | true =>
    rw [fits, if_pos rfl] at allocated
    cases allocated
    rw [if_pos rfl]
    exact {
      fresh := rfl
      there := by simp
      object := by rw [Heap.get_push, if_pos rfl]
      others := fun p there => by rw [Heap.get_push, if_neg (Nat.ne_of_lt there)]
      liveObjects := rfl
      liveBytes := rfl
      peakBytes := rfl }

structure Accounts (start : Books) (figures : List Nat) (b : Books) : Prop where
  within : b.heap.accounting.maxBytes = 0 ∨ b.liveBytes ≤ b.heap.accounting.maxBytes
  answers : ∀ e b', Step b e b' → Answers b b' e
  sizes : ∀ (r : Registry) (a : Allocation) (x : Object), a.object r b.heap = .ok x →
    x.bytes = 176 + 16 * a.slots r b.heap + a.payloadBytes r b.heap
  tokens : ∀ o : ObjectId, o.index < b.heap.objects.size →
    b.tokens[o.index]? = some (b.heap.get o).bytes
  copies : ∀ (r : Registry) (o : ObjectId) (x : Object),
    (Allocation.copy o).object r b.heap = .ok x → x.bytes = (b.heap.get o).bytes
  exact : b.underWay = 0 → Exact b.heap figures
  refuses : ∀ (r : Registry) (a : Allocation) (x : Object), a.object r b.heap = .ok x →
    ((∃ f, (b.heap.allocateResult (a.object r b.heap)).1 = .error f) ↔
      b.heap.accounting.maxBytes ≠ 0 ∧ b.heap.accounting.maxBytes < b.liveBytes + x.bytes)
  unchanged : ∀ (r : Registry) (a : Allocation) (f : Failure),
    (b.heap.allocateResult (a.object r b.heap)).1 = .error f →
      (b.heap.allocateResult (a.object r b.heap)).2 = b.heap
  allocates : b.underWay = 0 → ∀ (r : Registry) (a : Allocation) (x : Object),
    a.object r b.heap = .ok x → b.heap.liveSizes + x.bytes < 2 ^ 63 →
      Reached start (b.heap.allocateResult (a.object r b.heap)).2
  adds : ∀ (r : Registry) (a : Allocation) (x : Object) (o : ObjectId), a.object r b.heap = .ok x →
    (b.heap.allocateResult (a.object r b.heap)).1 = .ok o →
      Added b.heap x o (b.heap.allocateResult (a.object r b.heap)).2
  reclaims : b.underWay = 0 → ∀ roots, Reached start (b.heap.reclaim roots)

theorem accounts_of_run (maxBytes initialBytes : Nat) {figures : List Nat} {b : Books}
    (run : Run (.opened maxBytes initialBytes) figures b) :
    b.heap.accounting.maxBytes = maxBytes ∧ b.heap.accounting.initialBytes = initialBytes ∧
      Accounts (.opened maxBytes initialBytes) figures b := by
  have opened : Sound maxBytes initialBytes (.opened maxBytes initialBytes) := sound_opened
  have sound := opened.run run
  have peaked := (peaked_start rfl rfl).run opened run
  refine ⟨sound.limit, sound.initial, ?_⟩
  exact {
    within := sound.limit ▸ sound.within
    answers := fun e b' step => sound.answers step
    sizes := fun r a x accepted => (Allocation.object_eq_ok accepted).2
    tokens := sound.tokens
    copies := fun r o x accepted => by
      cases accepted
      rfl
    exact := sound.exact peaked
    refuses := fun r a x accepted => by
      rw [accepted]
      exact allocate_eq_error_iff b.heap x
    unchanged := fun r a f failed => allocateResult_unchanged b.heap (a.object r b.heap) failed
    allocates := by
      obtain ⟨h, tokens, underWay⟩ := b
      rintro rfl r a x accepted small
      rw [accepted]
      exact run.allocate sound accepted small
    adds := fun r a x o accepted allocated => by
      rw [accepted] at allocated ⊢
      exact added_of_allocate allocated
    reclaims := by
      obtain ⟨h, tokens, underWay⟩ := b
      rintro rfl roots
      exact Reached.reclaim opened ⟨figures, tokens, run⟩ roots }

/-- Two threads ask for an empty array each, with room for one, and both look before either swaps.
-/
theorem contended_accounts : ∃ figures b, Run (.opened 300 0) figures b ∧
    (b.underWay = 0 ∧ b.liveBytes = 176 ∧ b.heap.accounting.liveObjects = 1) ∧
      Accounts (.opened 300 0) figures b := by
  let x : Object := Heap.newArrayOf ⟨0⟩ (.zeroed .byte 0)
  let h : Heap := .empty 300 0
  have one : Run (.opened 300 0) _ ⟨h, #[], {.looking x}⟩ :=
    Run.start.step (.ask .empty (.arrayOf ⟨0⟩ (.zeroed .byte 0)) rfl) (by decide)
  have two : Run (.opened 300 0) _ ⟨h, #[], .looking x ::ₘ {.looking x}⟩ :=
    one.step (.ask .empty (.arrayOf ⟨0⟩ (.zeroed .byte 0)) rfl) (by decide)
  have seen : Run (.opened 300 0) _ ⟨h, #[], .swapping x 0 ::ₘ {.looking x}⟩ :=
    two.step (.look rfl rfl (by decide)) (by decide)
  have bothSeen : Run (.opened 300 0) _ ⟨h, #[], .swapping x 0 ::ₘ {.swapping x 0}⟩ :=
    seen.step (.look (Multiset.pair_comm _ _) rfl (by decide)) (by decide)
  have swapped : Run (.opened 300 0) _
      ⟨⟨#[], ⟨300, 0, 176, 0, 0, 0⟩⟩, #[], .raising x 176 ::ₘ {.swapping x 0}⟩ :=
    bothSeen.step (@Step.swap _ x {.swapping x 0} rfl) (by decide)
  have refused : Run (.opened 300 0) _ ⟨⟨#[], ⟨300, 0, 176, 0, 0, 0⟩⟩, #[], {.raising x 176}⟩ :=
    swapped.step (.refuse (Multiset.pair_comm _ _) rfl (by decide)) (by decide)
  have raised : Run (.opened 300 0) _ ⟨⟨#[], ⟨300, 0, 176, 0, 176, 0⟩⟩, #[], {.counting x}⟩ :=
    refused.step (@Step.raise _ x 176 0 rfl) (by decide)
  have counted := raised.step (@Step.count _ x 0 rfl) (by decide)
  exact ⟨_, _, counted, ⟨rfl, rfl, rfl⟩, (accounts_of_run 300 0 counted).2.2⟩

end ManagedRuntime.Bookkeeping
