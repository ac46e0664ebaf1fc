import ManagedRuntime.Proofs.Execution.Calls
import ManagedRuntime.Proofs.Monitor.Tokens

/-!
Who owns a monitor, and how many times over. A thread has entered a monitor and not left it yet as
often as the count says while it is the owner, and as often as the count that it will take back
while it waits. Main statement: this holds after every run, the owner that is read without the lock
is the owner, there are never more tokens than sleepers, and all others are refused.
-/
namespace ManagedRuntime.WaitSet
variable {η : Type} {o : ObjectId} {s s' : Scene η} {e : Event} {es : List Event}

/-! The count of the owner and those of the waiting threads, against entries and exits. -/

/-- `away` are the waiting threads with the counts that they will take back; `ins` and `outs` say
how often each thread has entered and left. -/
structure Balanced (m : Monitor) (away : List (ThreadId × Nat)) (ins outs : ThreadId → Nat) :
    Prop where
  published : m.published = m.owner
  free : m.owner = none → m.count = 0
  owner : ∀ t, m.owner = some t → 0 < m.count ∧ m.count + outs t = ins t ∧ t ∉ away.map Prod.fst
  waiting : ∀ p ∈ away, 0 < p.2 ∧ p.2 + outs p.1 = ins p.1
  idle : ∀ t, m.owner ≠ some t → t ∉ away.map Prod.fst → outs t = ins t
  once : (away.map Prod.fst).Nodup

section balance
variable {m m' : Monitor} {away away' : List (ThreadId × Nat)} {ins outs : ThreadId → Nat}
  {t : ThreadId} {count : Nat}

theorem Balanced.perm (balanced : Balanced m away ins outs) (same : away.Perm away') :
    Balanced m away' ins outs := by
  have threads : (away.map Prod.fst).Perm (away'.map Prod.fst) := same.map Prod.fst
  refine ⟨balanced.published, balanced.free, ?_, ?_, ?_, threads.nodup_iff.mp balanced.once⟩
  · intro t owned
    obtain ⟨positive, count, here⟩ := balanced.owner t owned
    exact ⟨positive, count, fun member => here (threads.mem_iff.mpr member)⟩
  · intro p member
    exact balanced.waiting p (same.mem_iff.mpr member)
  · intro t other here
    exact balanced.idle t other fun member => here (threads.mem_iff.mp member)

theorem Balanced.congr (balanced : Balanced m away ins outs) (owner : m'.owner = m.owner)
    (count : m'.count = m.count) (published : m'.published = m.published) :
    Balanced m' away ins outs := by
  refine ⟨?_, ?_, ?_, balanced.waiting, ?_, balanced.once⟩
  · rw [published, owner]
    exact balanced.published
  · rw [owner, count]
    exact balanced.free
  · rw [owner, count]
    exact balanced.owner
  · rw [owner]
    exact balanced.idle

theorem Balanced.enter (balanced : Balanced m away ins outs) (here : t ∉ away.map Prod.fst)
    (entered : m.enter? t = some m') :
    Balanced m' away (fun u => ins u + if u = t then 1 else 0) outs := by
  unfold Monitor.enter? at entered
  split at entered
  · rename_i able
    cases entered
    have level : m.count + outs t = ins t := by
      rcases able with free | mine
      · have none : m.count = 0 := balanced.free free
        have even : outs t = ins t := balanced.idle t (by rw [free]; exact nofun) here
        omega
      · exact (balanced.owner t mine).2.1
    refine ⟨rfl, nofun, ?_, ?_, ?_, balanced.once⟩
    · intro u owned
      cases owned
      refine ⟨Nat.succ_pos _, ?_, here⟩
      simp only [Monitor.give, if_true]
      omega
    · intro p member
      have other : p.1 ≠ t := fun same => here (same ▸ List.mem_map_of_mem member)
      simpa [other] using balanced.waiting p member
    · intro u other elsewhere
      have apart : u ≠ t := fun same => other (same ▸ rfl)
      have before : m.owner ≠ some u := by
        rcases able with free | mine
        · rw [free]
          exact nofun
        · rw [mine]
          exact fun same => apart (Option.some.inj same).symm
      simpa [apart] using balanced.idle u before elsewhere
  · cases entered

theorem Balanced.exit (balanced : Balanced m away ins outs) (left : m.exit t = .ok m') :
    Balanced m' away ins (fun u => outs u + if u = t then 1 else 0) := by
  unfold Monitor.exit at left
  split at left
  · cases left
  rename_i owned
  have mine : m.owner = some t := Classical.not_not.mp owned
  obtain ⟨positive, level, here⟩ := balanced.owner t mine
  have waiting : ∀ p ∈ away, 0 < p.2 ∧ p.2 + (outs p.1 + if p.1 = t then 1 else 0) = ins p.1 := by
    intro p member
    have other : p.1 ≠ t := fun same => here (same ▸ List.mem_map_of_mem member)
    simpa [other] using balanced.waiting p member
  have others (u : ThreadId) (apart : u ≠ t) (elsewhere : u ∉ away.map Prod.fst) :
      outs u = ins u := by
    refine balanced.idle u ?_ elsewhere
    rw [mine]
    exact fun same => apart (Option.some.inj same).symm
  split at left
  · rename_i last
    cases left
    refine ⟨rfl, fun _ => rfl, nofun, waiting, ?_, balanced.once⟩
    intro u _ elsewhere
    by_cases same : u = t
    · subst same
      simp only [if_true]
      omega
    · simpa [same] using others u same elsewhere
  · rename_i more
    cases left
    refine ⟨balanced.published, ?_, ?_, waiting, ?_, balanced.once⟩
    · intro free
      rw [show m.owner = none from free] at mine
      cases mine
    · intro u owned
      rw [show m.owner = some u from owned] at mine
      cases mine
      refine ⟨?_, ?_, here⟩
      · show 0 < m.count - 1
        omega
      · simp only [if_true]
        omega
    · intro u other elsewhere
      have apart : u ≠ t := fun same => other (same ▸ mine)
      simpa [apart] using others u apart elsewhere

theorem Balanced.join (balanced : Balanced m away ins outs) (mine : m.owner = some t) :
    Balanced m.joinWaiters.2 ((t, m.count) :: away) ins outs := by
  obtain ⟨positive, level, here⟩ := balanced.owner t mine
  refine ⟨rfl, fun _ => rfl, nofun, ?_, ?_, ?_⟩
  · intro p member
    rcases List.mem_cons.mp member with rfl | old
    · exact ⟨positive, level⟩
    · exact balanced.waiting p old
  · intro u _ elsewhere
    simp only [List.map_cons, List.mem_cons, not_or] at elsewhere
    refine balanced.idle u ?_ elsewhere.2
    rw [mine]
    exact fun same => elsewhere.1 (Option.some.inj same).symm
  · rw [List.map_cons, List.nodup_cons]
    exact ⟨here, balanced.once⟩

theorem Balanced.give (balanced : Balanced m ((t, count) :: away) ins outs)
    (free : m.owner = none) : Balanced (m.give t count) away ins outs := by
  have once := balanced.once
  rw [List.map_cons, List.nodup_cons] at once
  obtain ⟨positive, level⟩ := balanced.waiting (t, count) List.mem_cons_self
  refine ⟨rfl, nofun, ?_, ?_, ?_, once.2⟩
  · intro u owned
    cases owned
    exact ⟨positive, level, once.1⟩
  · intro p member
    exact balanced.waiting p (List.mem_cons_of_mem _ member)
  · intro u other elsewhere
    refine balanced.idle u (by rw [free]; exact nofun) ?_
    have apart : u ≠ t := fun same => other (same ▸ rfl)
    simpa [apart] using elsewhere

end balance

/-! The balance of a scene. -/

namespace Scene
variable (s : Scene η)

def underWay : List Wait := (s.asleep ++ s.returning).map (·.1)

def away : List (ThreadId × Nat) := (s.asleep ++ s.returning).map fun x => (x.1.thread, x.2.count)

theorem idle_iff (t : ThreadId) : s.Idle t ↔ t ∉ s.away.map Prod.fst := by
  rw [Idle, away, List.map_map, List.mem_map]
  constructor
  · rintro idle ⟨x, member, same⟩
    exact idle x member same
  · intro elsewhere x member same
    exact elsewhere ⟨x, member, same⟩

theorem idle_iff_underWay (t : ThreadId) : s.Idle t ↔ ∀ x ∈ s.underWay, x.thread ≠ t := by
  rw [Idle, underWay, List.forall_mem_map]

end Scene

def entries (es : List Event) (t : ThreadId) : Nat := es.count (.enter t)
def exits (es : List Event) (t : ThreadId) : Nat := es.count (.exit t)

theorem entries_append (es fs : List Event) (t : ThreadId) :
    entries (es ++ fs) t = entries es t + entries fs t := List.count_append

theorem exits_append (es fs : List Event) (t : ThreadId) :
    exits (es ++ fs) t = exits es t + exits fs t := List.count_append

theorem entries_enter (es : List Event) (t : ThreadId) :
    entries (es ++ [.enter t]) = fun u => entries es u + if u = t then 1 else 0 := by
  funext u
  rw [entries_append]
  by_cases same : u = t <;> simp [entries, same, Ne.symm]

theorem exits_exit (es : List Event) (t : ThreadId) :
    exits (es ++ [.exit t]) = fun u => exits es u + if u = t then 1 else 0 := by
  funext u
  rw [exits_append]
  by_cases same : u = t <;> simp [exits, same, Ne.symm]

theorem entries_other (es : List Event) (other : ∀ t, e ≠ .enter t) :
    entries (es ++ [e]) = entries es := by
  funext t
  rw [entries_append]
  simp [entries, other t]

theorem exits_other (es : List Event) (other : ∀ t, e ≠ .exit t) :
    exits (es ++ [e]) = exits es := by
  funext t
  rw [exits_append]
  simp [exits, other t]

/-- After the events `es` the balance is right, and sleepers do not own the monitor. -/
structure Owned (o : ObjectId) (es : List Event) (s : Scene η) : Prop where
  there : o.index < s.world.heap.objects.size
  balanced : Balanced (s.world.monitorOf o) s.away (entries es) (exits es)
  asleep : ∀ x ∈ s.asleep, x.2.owns = false

theorem Owned.pass (owned : Owned o es s) (enters : ∀ t, e ≠ .enter t)
    (leaves : ∀ t, e ≠ .exit t) : Owned o (es ++ [e]) s := by
  refine ⟨owned.there, ?_, owned.asleep⟩
  rw [entries_other es enters, exits_other es leaves]
  exact owned.balanced

theorem Owned.congr {w : World η} {notices : List Notice} {begun : Nat} (owned : Owned o es s)
    (there : o.index < w.heap.objects.size)
    (owner : (w.monitorOf o).owner = (s.world.monitorOf o).owner)
    (count : (w.monitorOf o).count = (s.world.monitorOf o).count)
    (published : (w.monitorOf o).published = (s.world.monitorOf o).published) :
    Owned o es { s with world := w, notices, begun } :=
  ⟨there, owned.balanced.congr owner count published, owned.asleep⟩

theorem owner_tell {all : Bool} {t : ThreadId} {m m' : Monitor} (told : tell all m t = .ok m') :
    m'.owner = m.owner ∧ m'.count = m.count ∧ m'.published = m.published := by
  cases all with
  | false =>
    simp only [tell, Monitor.notify] at told
    split at told
    · cases told
    · cases told
      exact ⟨rfl, rfl, rfl⟩
  | true =>
    simp only [tell, Monitor.notifyAll] at told
    split at told
    · cases told
    · cases told
      exact ⟨rfl, rfl, rfl⟩

theorem beginWait_keeps {limit : Option Nat} {t : ThreadId} {st : Exec.Waiting} {w w' : World η}
    (there : o.index < w.heap.objects.size)
    (began : Exec.beginWait o limit t w = (.ok st, w')) :
    (w.monitorOf o).owner = some t ∧
      (st.reason = none → st.count = (w.monitorOf o).count ∧ st.owns = false) := by
  obtain ⟨-, ⟨f, impossible, -⟩ | ⟨st', same, mine, -⟩⟩ := beginWait_cases there began
  · cases impossible
  refine ⟨mine, fun sleeps => ?_⟩
  unfold Exec.beginWait at began
  rw [if_neg (Classical.not_not.mpr mine)] at began
  split at began
  · cases began
  · simp only at began
    split at began
    · -- A reason was found at once, so that the thread does not sleep.
      rename_i reason _
      have found := congrArg Prod.fst began
      simp only [Exec.settleWaiter] at found
      split at found
      · cases found
        cases sleeps
      · cases found
        cases sleeps
    · cases began
      exact ⟨rfl, rfl⟩

theorem Owned.leave {before after : List (Wait × Exec.Waiting)} {x : Wait}
    {st st' : Exec.Waiting} {w : World η} {notices : List Notice} (owned : Owned o es s)
    (asleep : s.asleep = before ++ (x, st) :: after)
    (woken : Woken o s.world x.thread st st' w) :
    Owned o es ({ s with world := w, asleep := before ++ after, notices }.back x st') := by
  obtain ⟨reason, settled, -⟩ := woken.settled
  obtain ⟨-, size, outcome⟩ := settleWaiter_cases owned.there settled
  have there : o.index < w.heap.objects.size := size ▸ owned.there
  have still : ∀ y ∈ before ++ after, y.2.owns = false := by
    intro y member
    refine owned.asleep y ?_
    rw [asleep]
    rcases List.mem_append.mp member with front | back
    · exact List.mem_append_left _ front
    · exact List.mem_append_right _ (List.mem_cons_of_mem _ back)
  have first : s.away.Perm ((x.thread, st.count) ::
      (before ++ after ++ s.returning).map fun y => (y.1.thread, y.2.count)) := by
    rw [Scene.away, asleep, List.append_assoc, List.append_assoc]
    exact List.perm_middle.map _
  have woke : Balanced ((s.world.monitorOf o).wake reason) ((x.thread, st.count) ::
      (before ++ after ++ s.returning).map fun y => (y.1.thread, y.2.count))
      (entries es) (exits es) := by
    refine (owned.balanced.perm first).congr ?_ ?_ ?_ <;> cases reason <;> rfl
  have owner : ((s.world.monitorOf o).wake reason).owner = (s.world.monitorOf o).owner := by
    cases reason <;> rfl
  rcases outcome with ⟨free, owns, monitor⟩ | ⟨-, rfl, monitor⟩
  · rw [Scene.back, if_pos owns]
    refine ⟨there, ?_, still⟩
    simp only [monitor]
    exact woke.give (owner.trans free)
  · have waits : st.owns = false := by
      refine owned.asleep (x, st) ?_
      rw [asleep]
      exact List.mem_append_right _ List.mem_cons_self
    rw [Scene.back, if_neg (by simp [waits])]
    refine ⟨there, ?_, still⟩
    simp only [monitor]
    refine woke.perm (List.Perm.symm ?_)
    exact List.perm_middle.map fun y : Wait × Exec.Waiting => (y.1.thread, y.2.count)

theorem Owned.step (owned : Owned o es s) (step : Step o s e s') : Owned o (es ++ [e]) s' := by
  have size (m : Monitor) : o.index < (s.world.setMonitor o m).heap.objects.size := by
    rw [size_setMonitor]
    exact owned.there
  have now (m : Monitor) : (s.world.setMonitor o m).monitorOf o = m :=
    monitorOf_setMonitor m owned.there
  cases step with
  | @enter t m idle entered =>
    refine ⟨size m, ?_, owned.asleep⟩
    have here := (s.idle_iff t).mp idle
    have same : exits (es ++ [.enter t]) = exits es := exits_other es nofun
    rw [now, entries_enter, same]
    exact owned.balanced.enter here entered
  | @exit t m idle left =>
    refine ⟨size m, ?_, owned.asleep⟩
    have same : entries (es ++ [.exit t]) = entries es := entries_other es nofun
    rw [now, exits_exit, same]
    exact owned.balanced.exit left
  | @notify t all m notices idle told issued number =>
    obtain ⟨owner, count, published⟩ := owner_tell told
    refine (owned.congr (size m) ?_ ?_ ?_).pass nofun nofun
    · rw [now, owner]
    · rw [now, count]
    · rw [now, published]
  | refuse limit idle refused =>
    obtain ⟨same, monitor⟩ := beginWait_fails owned.there refused
    refine (owned.congr (same ▸ owned.there) ?_ ?_ ?_).pass nofun nofun <;> rw [monitor]
  | @sleep t st w limit idle began sleeps =>
    obtain ⟨same, -, monitor⟩ := beginWait_sleeps owned.there began sleeps
    obtain ⟨mine, kept⟩ := beginWait_keeps owned.there began
    obtain ⟨count, waits⟩ := kept sleeps
    have joined := owned.balanced.join mine
    refine Owned.pass ⟨same ▸ owned.there, ?_, ?_⟩ nofun nofun
    · simp only [monitor]
      rw [← count] at joined
      exact joined
    · intro x member
      rcases List.mem_cons.mp member with rfl | old
      · exact waits
      · exact owned.asleep x old
  | pass limit notices idle began woken taken kept number =>
    obtain ⟨same, -, owns, monitor⟩ := beginWait_passes owned.there began woken
    obtain ⟨mine, -⟩ := beginWait_keeps owned.there began
    rw [Scene.back, if_pos owns]
    refine Owned.pass ⟨same ▸ owned.there, ?_, owned.asleep⟩ nofun nofun
    -- The thread gives the monitor up and takes it back in one section.
    refine owned.balanced.congr ?_ ?_ ?_
    · simp only [monitor]
      exact mine.symm
    · simp only [monitor]
      rfl
    · simp only [monitor]
      exact mine.symm.trans owned.balanced.published.symm
  | notified notices asleep woken reason taken kept number =>
    exact (owned.leave asleep woken).pass nofun nofun
  | giveUp notices asleep woken reason kept number =>
    exact (owned.leave asleep woken).pass nofun nofun
  | @resume before after x st m returning taken =>
    have first : s.away.Perm ((x.thread, st.count) ::
        (s.asleep ++ (before ++ after)).map fun y => (y.1.thread, y.2.count)) := by
      rw [Scene.away, returning, ← List.append_assoc, ← List.append_assoc]
      exact List.perm_middle.map _
    unfold Monitor.reacquire? at taken
    split at taken
    · rename_i free
      cases taken
      refine Owned.pass ⟨size _, ?_, owned.asleep⟩ nofun nofun
      rw [now]
      exact (owned.balanced.perm first).give free
    · cases taken
  | elsewhere there same =>
    refine (owned.congr there ?_ ?_ ?_).pass nofun nofun <;> rw [same]

theorem Owned.run (owned : Owned o es s) {fs : List Event} (run : Run o s fs s') :
    Owned o (es ++ fs) s' := by
  induction run generalizing es with
  | nil => simpa using owned
  | cons first _ ih =>
    rw [List.append_cons]
    exact ih (owned.step first)

theorem owned_start {w : World η} (there : o.index < w.heap.objects.size)
    (fresh : w.monitorOf o = .unowned) : Owned o [] (Scene.start w) := by
  refine ⟨there, ?_, by simp [Scene.start]⟩
  constructor <;> simp [Scene.start, Scene.away, fresh, Monitor.unowned, entries, exits]

/-! A wait from its beginning to its return. -/

def Event.wait? : Event → Option Wait
  | .sleep x | .pass x _ | .notified x _ | .giveUp x | .resume x => some x
  | _ => none

theorem underWay_back (x : Wait) (st : Exec.Waiting) :
    (s.back x st).underWay ⊆ x :: s.underWay := by
  unfold Scene.back
  split
  · exact List.subset_cons_self _ _
  · intro y member
    simp only [Scene.underWay, List.map_append, List.map_cons, List.mem_append, List.mem_cons]
      at member ⊢
    rcases member with asleep | rfl | returning
    · exact .inr (.inl asleep)
    · exact .inl rfl
    · exact .inr (.inr returning)

theorem mem_underWay_asleep {before after : List (Wait × Exec.Waiting)} {x : Wait}
    {st : Exec.Waiting} (asleep : s.asleep = before ++ (x, st) :: after) :
    x ∈ s.underWay ∧
      ∀ y ∈ (before ++ after ++ s.returning).map (·.1), y ∈ s.underWay := by
  rw [Scene.underWay, asleep]
  constructor
  · simp
  · intro y member
    simp only [List.map_append, List.map_cons, List.mem_append, List.mem_cons] at member ⊢
    rcases member with (front | back) | returning
    · exact .inl (.inl front)
    · exact .inl (.inr (.inr back))
    · exact .inr returning

theorem mem_underWay_returning {before after : List (Wait × Exec.Waiting)} {x : Wait}
    {st : Exec.Waiting} (returning : s.returning = before ++ (x, st) :: after) :
    x ∈ s.underWay ∧
      ∀ y ∈ (s.asleep ++ (before ++ after)).map (·.1), y ∈ s.underWay := by
  rw [Scene.underWay, returning]
  constructor
  · simp
  · intro y member
    simp only [List.map_append, List.map_cons, List.mem_append, List.mem_cons] at member ⊢
    rcases member with asleep | front | back
    · exact .inl asleep
    · exact .inr (.inl front)
    · exact .inr (.inr (.inr back))

theorem underWay_step (step : Step o s e s') :
    ∀ y ∈ s'.underWay, y ∈ s.underWay ∨ y.number = s.begun := by
  intro y member
  cases step with
  | enter | exit | notify | refuse | elsewhere => exact .inl member
  | sleep limit idle began sleeps =>
    rcases List.mem_cons.mp member with rfl | old
    · exact .inr rfl
    · exact .inl old
  | pass limit notices idle began woken taken kept number =>
    rcases List.mem_cons.mp (underWay_back _ _ member) with rfl | old
    · exact .inr rfl
    · exact .inl old
  | notified notices asleep woken reason taken kept number =>
    obtain ⟨here, others⟩ := mem_underWay_asleep asleep
    rcases List.mem_cons.mp (underWay_back _ _ member) with rfl | old
    · exact .inl here
    · exact .inl (others y old)
  | giveUp notices asleep woken reason kept number =>
    obtain ⟨here, others⟩ := mem_underWay_asleep asleep
    rcases List.mem_cons.mp (underWay_back _ _ member) with rfl | old
    · exact .inl here
    · exact .inl (others y old)
  | resume returning taken =>
    exact .inl ((mem_underWay_returning returning).2 y member)

theorem begun_le_run (run : Run o s es s') : s.begun ≤ s'.begun := by
  induction run with
  | nil => exact Nat.le_refl _
  | cons first _ ih => exact Nat.le_trans (begun_le first) ih

/-- A wait that is under way at the end of a run has been so all the time, and its thread has
neither entered nor left the monitor in between. -/
theorem silent_run {x : Wait} (run : Run o s es s') (old : x.number < s.begun)
    (last : x ∈ s'.underWay) :
    x ∈ s.underWay ∧ entries es x.thread = 0 ∧ exits es x.thread = 0 := by
  induction run with
  | nil => exact ⟨last, rfl, rfl⟩
  | @cons s s' s'' e es first rest ih =>
    obtain ⟨next, enters, leaves⟩ := ih (Nat.lt_of_lt_of_le old (begun_le first)) last
    have here : x ∈ s.underWay := by
      rcases underWay_step first x next with before | fresh
      · exact before
      · omega
    have busy : ¬ s.Idle x.thread := fun idle => (s.idle_iff_underWay _).mp idle x here rfl
    have enters' : e ≠ .enter x.thread := by
      rintro rfl
      cases first with
      | enter idle => exact busy idle
    have leaves' : e ≠ .exit x.thread := by
      rintro rfl
      cases first with
      | exit idle => exact busy idle
    refine ⟨here, ?_, ?_⟩
    · rw [entries, List.count_cons_of_ne enters']
      exact enters
    · rw [exits, List.count_cons_of_ne leaves']
      exact leaves

theorem mem_underWay_of_wait {x : Wait} (step : Step o s e s') (part : e.wait? = some x)
    (old : x.number < s.begun) : x ∈ s.underWay := by
  cases step with
  | enter | exit | notify | refuse | elsewhere => cases part
  | sleep | pass =>
    cases part
    exact absurd old (Nat.lt_irrefl _)
  | notified notices asleep | giveUp notices asleep =>
    cases part
    exact (mem_underWay_asleep asleep).1
  | resume returning =>
    cases part
    exact (mem_underWay_returning returning).1

theorem Owned.owner_of_return {x : Wait} (owned : Owned o es s) (step : Step o s e s')
    (part : e.wait? = some x) (returned : x ∉ s'.underWay) :
    (s'.world.monitorOf o).owner = some x.thread := by
  have back {st : Exec.Waiting} {v : Scene η} (there : v.back x st = s') : st.owns = true := by
    refine Classical.byContradiction fun owns => returned ?_
    rw [← there, Scene.back, if_neg owns, Scene.underWay]
    simp
  have given {w : World η} {st st' : Exec.Waiting} {v : Scene η}
      (woken : Woken o s.world x.thread st st' w) (there : v.back x st' = s')
      (waits : st.owns = false) : (w.monitorOf o).owner = some x.thread := by
    obtain ⟨reason, settled, -⟩ := woken.settled
    obtain ⟨-, -, ⟨-, -, monitor⟩ | ⟨-, rfl, -⟩⟩ := settleWaiter_cases owned.there settled
    · rw [monitor]
      rfl
    · have owns : ({ st with reason := some reason } : Exec.Waiting).owns = true := back there
      rw [show st.owns = true from owns] at waits
      cases waits
  cases step with
  | enter | exit | notify | refuse | elsewhere => cases part
  | sleep =>
    cases part
    exact absurd (List.mem_cons_self) returned
  | pass limit notices idle began woken =>
    cases part
    obtain ⟨-, -, -, monitor⟩ := beginWait_passes owned.there began woken
    rw [Scene.world_back, monitor]
    rfl
  | @notified before after y st st' w k notices asleep woken
  | @giveUp before after y st st' w notices asleep woken =>
    cases part
    rw [Scene.world_back]
    refine given woken rfl (owned.asleep (x, st) ?_)
    rw [asleep]
    exact List.mem_append_right _ List.mem_cons_self
  | resume returning taken =>
    cases part
    rw [monitorOf_setMonitor _ owned.there]
    unfold Monitor.reacquire? at taken
    split at taken
    · cases taken
      rfl
    · cases taken

theorem Owned.count_of_return {x : Wait} {fs : List Event} {s₁ s₂ s₃ : Scene η}
    (owned : Owned o es s) (asleep : Step o s (.sleep x) s₁) (run : Run o s₁ fs s₂)
    (step : Step o s₂ e s₃) (part : e.wait? = some x) (returned : x ∉ s₃.underWay) :
    (s₃.world.monitorOf o).count = (s.world.monitorOf o).count := by
  have before : (s.world.monitorOf o).count + exits es x.thread = entries es x.thread ∧
      x.number < s₁.begun := by
    cases asleep with
    | sleep limit idle began =>
      have mine := (beginWait_keeps owned.there began).1
      exact ⟨(owned.balanced.owner _ mine).2.1, Nat.lt_succ_self _⟩
  have later := Nat.lt_of_lt_of_le before.2 (begun_le_run run)
  obtain ⟨-, enters, leaves⟩ := silent_run run before.2 (mem_underWay_of_wait step part later)
  have during := (owned.step asleep).run run
  have mine := during.owner_of_return step part returned
  have after := ((during.step step).balanced.owner _ mine).2.1
  have enter : ∀ t, e ≠ .enter t := by
    rintro t rfl
    cases part
  have exit : ∀ t, e ≠ .exit t := by
    rintro t rfl
    cases part
  have entered : entries (es ++ [.sleep x]) = entries es := entries_other es nofun
  have left : exits (es ++ [.sleep x]) = exits es := exits_other es nofun
  rw [entries_other _ enter, exits_other _ exit, entries_append, exits_append, enters, leaves,
    entered, left] at after
  omega

/-- A waiter that gives up takes a token away only where there would be more than sleepers. -/
theorem tokens_giveUp {x : Wait} (inv : Entitled o s) (step : Step o s (.giveUp x) s') :
    (s'.world.monitorOf o).waiting = (s.world.monitorOf o).waiting - 1 ∧
      (s'.world.monitorOf o).tokens =
        min (s.world.monitorOf o).tokens (s'.world.monitorOf o).waiting := by
  cases step with
  | @giveUp before after x st st' w notices asleep woken unnotified =>
    rw [Scene.world_back]
    obtain ⟨reason, settled, -⟩ := woken.settled
    obtain ⟨found, -, outcome⟩ := settleWaiter_cases inv.there settled
    have wake : ((s.world.monitorOf o).wake reason) = (s.world.monitorOf o).leaveWaiters := by
      cases reason with
      | notified => exact absurd found unnotified
      | interrupted | timedOut => rfl
    rcases outcome with ⟨-, -, monitor⟩ | ⟨-, -, monitor⟩
    · simp only [monitor, wake]
      exact ⟨rfl, rfl⟩
    · simp only [monitor, wake]
      exact ⟨rfl, rfl⟩

/-! Operations of others than the owner. -/

def Refused {α : Type} (w : World η) (env : Env) (x : Exec η α) : Prop :=
  ∀ (code : Code η) r e u, Exec.Ends code (fun v v' => v' = v) w env x r e u ↔
    r = .error .illegalMonitorState ∧ e = env ∧ ∃ others, u = w.during (env.references ++ others)

section refusal
variable {α β : Type} {w : World η} {env : Env}

theorem refused_act {f : World η → Except Failure α × World η}
    (fails : ∀ refs, f (w.during refs) = (.error .illegalMonitorState, w.during refs)) :
    Refused w env (Exec.act (Atomic.ofFunction f)) := by
  intro code r e u
  have nothing (refs : List ObjectId) :
      env.hold ((w.during refs).madeSince w.heap.objects.size) = env := by
    have same : (w.during refs).heap.objects.size = w.heap.objects.size := rfl
    simp [World.madeSince, same, Env.hold]
  rw [Exec.ends_act]
  constructor
  · rintro ⟨y, refs, rfl, ran, rfl⟩
    have failed := (fails (env.references ++ refs)).symm.trans ran
    cases failed
    exact ⟨rfl, nothing _, refs, rfl⟩
  · rintro ⟨rfl, rfl, refs, rfl⟩
    exact ⟨w, refs, rfl, fails _, (nothing _).symm⟩

theorem Refused.bind {x : Exec η α} (refused : Refused w env x) (g : α → Exec η β) :
    Refused w env (x >>= g) := by
  intro code r e u
  rw [Exec.ends_bind]
  constructor
  · rintro (⟨f, failed, rfl⟩ | ⟨a, d, v, ended, -⟩)
    · obtain ⟨same, unchanged⟩ := (refused code _ e u).mp failed
      cases same
      exact ⟨rfl, unchanged⟩
    · cases ((refused code _ d v).mp ended).1
  · rintro ⟨rfl, unchanged⟩
    exact .inl ⟨.illegalMonitorState, (refused code _ e u).mpr ⟨rfl, unchanged⟩, rfl⟩

theorem refused_onMonitor {f : Monitor → ThreadId → Except Failure Monitor}
    (fails : f (w.monitorOf o) env.thread = .error .illegalMonitorState) :
    Refused w env (Exec.onMonitor o f) := by
  intro code r e u
  rw [Exec.onMonitor, Exec.ends_get_bind]
  refine refused_act ?_ code r e u
  intro refs
  rw [show (w.during refs).monitorOf o = w.monitorOf o from rfl, fails]

theorem refused_waitOn (limit : Option Nat) (other : (w.monitorOf o).owner ≠ some env.thread) :
    Refused w env (Exec.waitOn o limit) := by
  intro code r e u
  rw [Exec.waitOn, Exec.ends_get_bind]
  refine (refused_act ?_).bind _ code r e u
  intro refs
  exact if_pos other

end refusal

/-! The invariant. -/

/-- What the monitor of `o` tells after the events `es`, and what it does next. -/
structure WellOwned (o : ObjectId) (es : List Event) (s : Scene η) : Prop where
  ownedBy_iff : ∀ t, (s.world.monitorOf o).ownedBy t = true ↔ s.Idle t ∧ exits es t < entries es t
  exclusive : ∀ t u, s.Idle t → s.Idle u → exits es t < entries es t → exits es u < entries es u →
    t = u
  published : (s.world.monitorOf o).published = (s.world.monitorOf o).owner
  count_pos_iff : 0 < (s.world.monitorOf o).count ↔ (s.world.monitorOf o).owner.isSome
  count : ∀ t, (s.world.monitorOf o).owner = some t →
    (s.world.monitorOf o).count + exits es t = entries es t
  waiting : (s.world.monitorOf o).waiting = s.asleep.length
  tokens : (s.world.monitorOf o).tokens ≤ (s.world.monitorOf o).waiting
  giveUp : ∀ x s', Step o s (.giveUp x) s' →
    (s'.world.monitorOf o).waiting = (s.world.monitorOf o).waiting - 1 ∧
      (s'.world.monitorOf o).tokens =
        min (s.world.monitorOf o).tokens (s'.world.monitorOf o).waiting
  passes : ∀ x k s', Step o s (.pass x k) s' → (s'.world.monitorOf o).owner = some x.thread ∧
    (s'.world.monitorOf o).count = (s.world.monitorOf o).count
  returns : ∀ x s₁ fs s₂ e s₃, Step o s (.sleep x) s₁ → Run o s₁ fs s₂ → Step o s₂ e s₃ →
    e.wait? = some x → x ∉ s₃.underWay → (s₃.world.monitorOf o).owner = some x.thread ∧
      (s₃.world.monitorOf o).count = (s.world.monitorOf o).count
  refused : ∀ env : Env, (s.world.monitorOf o).owner ≠ some env.thread →
    Refused s.world env (Exec.exitMonitor o) ∧ Refused s.world env (Exec.notify o) ∧
      Refused s.world env (Exec.notifyAll o) ∧ ∀ limit, Refused s.world env (Exec.waitOn o limit)

theorem Owned.owner_iff (owned : Owned o es s) (t : ThreadId) :
    (s.world.monitorOf o).owner = some t ↔ s.Idle t ∧ exits es t < entries es t := by
  rw [s.idle_iff]
  constructor
  · intro mine
    obtain ⟨positive, level, here⟩ := owned.balanced.owner t mine
    exact ⟨here, by omega⟩
  · rintro ⟨here, more⟩
    refine Classical.byContradiction fun other => ?_
    have even := owned.balanced.idle t other here
    omega

/-- After every run the monitor has at most one owner, who has entered it `count` times more than
left it; the owner that is read without the lock is the owner, a wait gives the full count back
whatever ended it, tokens do not outnumber sleepers, and whoever is not the owner is refused. -/
theorem wellOwned_of_run {w : World η} (there : o.index < w.heap.objects.size)
    (fresh : w.monitorOf o = .unowned) (run : Run o (Scene.start w) es s) : WellOwned o es s := by
  have owned : Owned o es s := (owned_start there fresh).run run
  have inv : Entitled o s := (entitled_start there fresh).run run
  have published := owned.balanced.published
  have ownedBy (t : ThreadId) :
      (s.world.monitorOf o).ownedBy t = true ↔ (s.world.monitorOf o).owner = some t := by
    rw [Monitor.ownedBy, published, beq_iff_eq]
  constructor
  · intro t
    exact (ownedBy t).trans (owned.owner_iff t)
  · intro t u idle idle' more more'
    have first := (owned.owner_iff t).mpr ⟨idle, more⟩
    have second := (owned.owner_iff u).mpr ⟨idle', more'⟩
    exact Option.some.inj (first.symm.trans second)
  · exact published
  · cases owner : (s.world.monitorOf o).owner with
    | none => simp [owned.balanced.free owner]
    | some t => simp [(owned.balanced.owner t owner).1]
  · intro t mine
    exact (owned.balanced.owner t mine).2.1
  · exact inv.waiting
  · exact inv.waiting ▸ inv.bound
  · intro x s' step
    exact tokens_giveUp inv step
  · intro x k s' step
    cases step with
    | pass limit notices idle began woken =>
      obtain ⟨-, -, -, monitor⟩ := beginWait_passes owned.there began woken
      rw [Scene.world_back, monitor]
      exact ⟨rfl, rfl⟩
  · intro x s₁ fs s₂ e s₃ asleep middle step part returned
    have during := (owned.step asleep).run middle
    exact ⟨during.owner_of_return step part returned,
      owned.count_of_return asleep middle step part returned⟩
  · intro env other
    exact ⟨refused_onMonitor (if_pos other), refused_onMonitor (if_pos other),
      refused_onMonitor (if_pos other), fun limit => refused_waitOn limit other⟩

/-! A thread that owns the monitor twice over, waits, and is notified. -/

def waitTwiceOwned : List Event :=
  [.enter ⟨0⟩, .enter ⟨0⟩, .sleep ⟨⟨0⟩, 0⟩, .enter ⟨1⟩, .notify ⟨1⟩ false, .exit ⟨1⟩,
    .notified ⟨⟨0⟩, 0⟩ ⟨⟨1⟩, [⟨⟨0⟩, 0⟩]⟩]

theorem run_waitTwiceOwned :
    ∃ s, Run ⟨0⟩ (Scene.start oneObject) waitTwiceOwned s ∧ (s.world.monitorOf ⟨0⟩).count = 2 := by
  refine Step.then (.enter (by decide) rfl) ?_
  refine Step.then (.enter (by decide) rfl) ?_
  refine Step.then (.sleep none (by decide) rfl rfl) ?_
  refine Step.then (.enter (by decide) rfl) ?_
  refine Step.then (.notify [⟨⟨1⟩, [⟨⟨0⟩, 0⟩]⟩] (by decide) rfl ?_ rfl) ?_
  · exact fun k member => .inr (List.mem_singleton.mp member)
  refine Step.then (.exit (by decide) rfl) ?_
  refine Step.then (.notified [] (show _ = [] ++ _ :: [] from rfl) (.inl rfl) rfl ?_
    (List.nil_sublist _) rfl) ?_
  · exact List.mem_singleton_self _
  exact ⟨_, .nil _, rfl⟩

theorem wellOwned_waitTwiceOwned :
    oneObject.monitorOf ⟨0⟩ = .unowned ∧
      ∃ s, Run ⟨0⟩ (Scene.start oneObject) waitTwiceOwned s ∧
        (s.world.monitorOf ⟨0⟩).count = 2 ∧ WellOwned ⟨0⟩ waitTwiceOwned s := by
  obtain ⟨s, run, count⟩ := run_waitTwiceOwned
  exact ⟨rfl, s, run, count, wellOwned_of_run (by decide) rfl run⟩

end ManagedRuntime.WaitSet
