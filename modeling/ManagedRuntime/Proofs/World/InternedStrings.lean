import ManagedRuntime.Boot.Basic
import ManagedRuntime.Proofs.Stack.Activations
import ManagedRuntime.Proofs.World.InternRequests

/-!
Interning while threads move. An entry of the table is made once and stays, so whoever asks for the
canonical string of some contents is given the object of the entry. Main statement: however requests
of any threads are interleaved, an answer has the contents that were asked for, two answers are the
same object exactly if the contents are the same, and a request fails only for an object that is no
string or for lack of memory, and then adds nothing.
-/
namespace ManagedRuntime
open World
variable {η α β : Type}

namespace Interning
open Noting

def Refused (start : World η) : InternRequest → Failure → Prop
  | .object o, f => (∃ text, f = .notAString text) ∧ (start.heap.get o).string? = none
  | .text _, f => (∃ bytes live limit, f = .heapExhausted bytes live limit) ∧
      start.heap.accounting.maxBytes ≠ 0

inductive Answered (start w : World η) : Interned → Prop
  | given {r : InternRequest} {s : String} {o : ObjectId} (asked : r.contents? w = some s)
      (entry : w.interned.lookup s = some o) : Answered start w ⟨r, .ok o⟩
  | refused {r : InternRequest} {f : Failure} (refused : Refused start r f) :
      Answered start w ⟨r, .error f⟩

theorem Answered.later {start w u : World η} {n : Interned} (answered : Answered start w n)
    (remembers : w.Remembers u) : Answered start u n := by
  cases answered with
  | given asked entry => exact .given (remembers.contents? asked) (remembers.entries _ _ entry)
  | refused refused => exact .refused refused

inductive Moves (start : World η) (t : ThreadId) (σ : Moment η Interned) :
    Moment η Interned → Prop
  | acts {w : World η} (step : σ.world.Remembering w) : Moves start t σ (σ.inWorld w)
  | answers {n : Interned} (answered : Answered start σ.world n) : Moves start t σ (σ.noted t n)

structure Sound (start : World η) (σ : Moment η Interned) : Prop where
  canonical : σ.world.Canonical
  since : start.Remembers σ.world
  answered : ∀ t n, (t, n) ∈ σ.notes → Answered start σ.world n

variable {start : World η} {t : ThreadId} {ρ σ τ : Moment η Interned} {env : Env}

theorem Moves.remembers (moves : Moves start t σ τ) (sound : Sound start σ) :
    σ.world.Remembers τ.world := by
  cases moves with
  | acts step => exact (step sound.canonical).2
  | answers => exact .refl _

theorem Sound.moves (sound : Sound start σ) (moves : Moves start t σ τ) : Sound start τ := by
  cases moves with
  | acts step =>
    obtain ⟨canonical, remembers⟩ := step sound.canonical
    exact ⟨canonical, sound.since.trans remembers,
      fun t n noted => (sound.answered t n noted).later remembers⟩
  | answers answered =>
    refine ⟨sound.canonical, sound.since, fun u n noted => ?_⟩
    rcases List.mem_cons.mp noted with same | old
    · cases same
      exact answered
    · exact sound.answered u n old

def discipline (start : World η) : Discipline η Interned where
  meant _ _ _ := True
  moves := Moves start
  sound := Sound start
  keeps _ σ τ := σ.world.Remembers τ.world
  keeps_refl _ σ := .refl σ.world
  keeps_trans := Remembers.trans
  sound_moves := Sound.moves
  keeps_others _ sound moves := moves.remembers sound

/-! What the parts of a request come to. -/

def Brings (start : World η) (t : ThreadId) (ρ : Moment η Interned)
    (P : Except Failure α → World η → Prop) (x : Exec η α) : Prop :=
  ∀ env, Obeys (discipline start) t (fun r τ => ρ.world.Remembers τ.world ∧ P r.1 τ.world) ρ
    ((ofExec x).runIn env)

def Lasting (P : Except Failure α → World η → Prop) : Prop :=
  ∀ ⦃r w u⦄, w.Remembers u → P r w → P r u

section programs
variable {P : Except Failure α → World η → Prop} {Q : Except Failure β → World η → Prop}

theorem brings_act {x : Atomic η α} (lasting : Lasting P)
    (acts : ∀ w, w.Canonical → ρ.world.Remembers w →
      w.Remembering (x.runOn w).2 ∧ P (x.runOn w).1 (x.runOn w).2) :
    Brings start t ρ P (Exec.act x) := by
  intro env
  refine obeys_await (fun σ refs r w keeps sound step => ?_)
    fun σ refs r w held τ keeps sound step later _ => ?_
  all_goals
    have begun : (σ.world.during refs).Canonical := (sound.canonical.during (n := 0) refs).canonical
    have stays := Remembers.during σ.world refs
    have acts := acts _ begun (Remembers.trans keeps stays)
    rw [Option.some.inj step] at acts
    have remembers : σ.world.Remembers w := stays.trans (acts.1 begun).2
  · exact .acts fun _ => ⟨(acts.1 begun).1, remembers⟩
  · exact ⟨(Remembers.trans keeps remembers).trans later, lasting later acts.2⟩

theorem brings_pure (lasting : Lasting P) {a : α} (holds : P (.ok a) ρ.world) :
    Brings start t ρ P (pure a : Exec η α) :=
  fun _ => .done fun _ keeps _ => ⟨keeps, lasting keeps holds⟩

theorem brings_bind {x : Exec η β} {g : β → Exec η α} (first : Brings start t ρ Q x)
    (lasting : Lasting P)
    (failed : ∀ f w, ρ.world.Remembers w → Q (.error f) w → P (.error f) w)
    (rest : ∀ b σ, ρ.world.Remembers σ.world → Q (.ok b) σ.world → Brings start t σ P (g b)) :
    Brings start t ρ P (x >>= g) := by
  intro env
  rw [ofExec_bind]
  refine obeys_bind (first env) ?_ ?_
  · rintro f e σ τ ⟨keeps, holds⟩ later _
    exact ⟨keeps.trans later, lasting later (failed f _ keeps holds)⟩
  · rintro b e σ _ ⟨keeps, holds⟩
    refine (rest b σ keeps holds e).weaken fun r τ _ ⟨later, post⟩ => ?_
    exact ⟨keeps.trans later, post⟩

end programs

def IsEntry (s : String) (r : Except Failure ObjectId) (w : World η) : Prop :=
  ∃ e, r = .ok e ∧ w.interned.lookup s = some e

theorem lasting_isEntry (s : String) : Lasting (IsEntry (η := η) s) := by
  rintro r w u remembers ⟨e, same, entry⟩
  exact ⟨e, same, remembers.entries s e entry⟩

theorem brings_interned (s : String) :
    Brings start t ρ
      (fun r w => ∃ found, r = .ok found ∧ ∀ e, found = some e → w.interned.lookup s = some e)
      (Exec.act (Atomic.interned? s)) := by
  refine brings_act (fun r w u remembers here => ?_) fun w _ _ => ?_
  · obtain ⟨found, same, entry⟩ := here
    exact ⟨found, same, fun e this => remembers.entries s e (entry e this)⟩
  · exact ⟨.refl w, w.interned.lookup s, rfl, fun _ => id⟩

theorem brings_contents (o : ObjectId) :
    Brings start t ρ (fun r w => match r with
        | .ok s => (w.heap.get o).string? = some s
        | .error f => (∃ text, f = .notAString text) ∧ (ρ.world.heap.get o).string? = none)
      (Exec.act (Atomic.contents o)) := by
  refine brings_act (fun r w u remembers here => ?_) fun w _ since => ?_
  · cases r with
    | ok s => exact remembers.texts o s here
    | error f => exact here
  · rw [Atomic.runOn_contents]
    cases text : (w.heap.get o).string? with
    | some s => exact ⟨.refl w, text⟩
    | none =>
      refine ⟨.refl w, ⟨_, rfl⟩, Option.eq_none_iff_forall_ne_some.mpr fun s before => ?_⟩
      exact nomatch text.symm.trans (since.texts o s before)

/-- The string is entered unless an entry is found, at first or in the end. -/
theorem brings_entry {o : ObjectId} {s : String} (text : (ρ.world.heap.get o).string? = some s) :
    Brings start t ρ (IsEntry s)
      (do match ← Exec.act (Atomic.interned? s) with
          | some e => return e
          | none => Exec.act (Atomic.internAs s o)) := by
  refine brings_bind (brings_interned s) (lasting_isEntry s) ?_ fun found σ keeps entry => ?_
  · rintro f w _ ⟨found, same, -⟩
    cases same
  obtain ⟨_, ⟨⟩, entry⟩ := entry
  cases found with
  | some e => exact brings_pure (lasting_isEntry s) ⟨e, rfl, entry e rfl⟩
  | none =>
    refine brings_act (lasting_isEntry s) fun w _ since => ⟨?_, Atomic.entry_internAs⟩
    exact Atomic.remembering_internAs ((keeps.trans since).texts o s text)

def Outcome (before : World η) (request : InternRequest) (r : Except Failure ObjectId)
    (w : World η) : Prop :=
  (∃ s, request.contents? w = some s ∧ IsEntry s r w) ∨ ∃ f, r = .error f ∧ Refused before request f

theorem lasting_outcome (before : World η) (request : InternRequest) :
    Lasting (Outcome before request) := by
  rintro r w u remembers (⟨s, asked, entry⟩ | refused)
  · exact .inl ⟨s, remembers.contents? asked, lasting_isEntry s remembers entry⟩
  · exact .inr refused

theorem brings_intern (o : ObjectId) :
    Brings start t ρ (Outcome ρ.world (.object o)) (Exec.intern o) := by
  have lasting := lasting_outcome ρ.world (.object o)
  refine brings_bind (brings_contents o) lasting (fun f w _ refused => ?_) fun s σ _ text => ?_
  · exact .inr ⟨f, rfl, refused⟩
  · intro env
    refine (brings_entry text env).weaken fun r τ _ ⟨later, entry⟩ => ⟨later, .inl ⟨s, ?_, entry⟩⟩
    exact later.texts o s text

theorem brings_newString (s : String) :
    Brings start t ρ (fun r w => match r with
        | .ok o => (w.heap.get o).string? = some s
        | .error f => Refused ρ.world (.text s) f)
      (Exec.act (Atomic.newString s)) := by
  refine brings_act (fun r w u remembers here => ?_) fun w canonical since => ?_
  · cases r with
    | ok o => exact remembers.texts o s here
    | error f => exact here
  · refine ⟨Atomic.remembering_newString s w, ?_⟩
    have comes := Atomic.yields_newString (n := 0) (H := fun _ => True) s w canonical
      (Nat.zero_le _) trivial
    generalize (Atomic.newString s).runOn w = result at comes ⊢
    cases comes with
    | ok _ text => exact text
    | exhausted _ limited => exact ⟨⟨_, _, _, rfl⟩, since.limit ▸ limited⟩

/-- A new string is made only to be entered, and another may have come first. -/
theorem brings_internText (s : String) :
    Brings start t ρ (Outcome ρ.world (.text s)) (Exec.internText s) := by
  have lasting := lasting_outcome ρ.world (.text s)
  refine brings_bind (brings_interned s) lasting ?_ fun found σ before entry => ?_
  · rintro f w _ ⟨found, same, -⟩
    cases same
  obtain ⟨_, ⟨⟩, entry⟩ := entry
  cases found with
  | some e => exact brings_pure lasting (.inl ⟨s, rfl, e, rfl, entry e rfl⟩)
  | none =>
    refine brings_bind (brings_newString s) lasting (fun f w _ refused => ?_) fun o τ _ text => ?_
    · exact .inr ⟨f, rfl, refused.1, before.limit ▸ refused.2⟩
    · intro env
      refine (brings_intern o env).weaken fun r υ _ ⟨later, comes⟩ => ⟨later, ?_⟩
      rcases comes with ⟨s', text', entry⟩ | ⟨f, -, -, bare⟩
      · cases (later.texts o s text).symm.trans text'
        exact .inl ⟨s, rfl, entry⟩
      · exact nomatch text.symm.trans bare

theorem brings_run (request : InternRequest) :
    Brings start t ρ (Outcome ρ.world request) request.run := by
  cases request with
  | object o => exact brings_intern o
  | text s => exact brings_internText s

theorem Outcome.answered {before w : World η} {request : InternRequest}
    {r : Except Failure ObjectId} (outcome : Outcome before request r w)
    (since : start.Remembers before) : Answered start w ⟨request, r⟩ := by
  rcases outcome with ⟨s, asked, o, rfl, entry⟩ | ⟨f, rfl, refused⟩
  · exact .given asked entry
  · refine .refused ?_
    cases request with
    | object o =>
      refine ⟨refused.1, Option.eq_none_iff_forall_ne_some.mpr fun s text => ?_⟩
      exact nomatch refused.2.symm.trans (since.texts o s text)
    | text s => exact ⟨refused.1, since.limit ▸ refused.2⟩

theorem obeys_interning (request : InternRequest) (env : Env) (ρ : Moment η Interned) :
    Obeys (discipline start) t (fun _ τ => ρ.world.Remembers τ.world) ρ
      ((interning request).runIn env) := by
  refine .of_kept fun σ keeps sound => ?_
  refine obeys_outcome_bind (brings_run request env) fun r e τ _ ⟨later, outcome⟩ => ?_
  have answered := outcome.answered sound.since
  refine obeys_note_bind (fun υ further _ _ => .answers (answered.later further)) ?_
  intro υ further _ _
  exact obeys_conclude fun φ rest _ => keeps.trans (later.trans (further.trans rest))

theorem serves_interning (start : World η) :
    (discipline start).Serves Remembering interning where
  requests _ request env ρ := obeys_interning request env ρ
  moves _ σ refs w sound step := by
    obtain ⟨canonical, remembers⟩ := step (sound.canonical.during (n := 0) refs).canonical
    have remembers := (Remembers.during σ.world refs).trans remembers
    exact ⟨.acts fun _ => ⟨canonical, remembers⟩, remembers⟩

/-! Many threads. -/

def anywhere (_ : ThreadId) (_ : Moment η Interned) (_ : Interned) : Prop := True

def Gave (σ : Moment η Interned) (s : String) (o : ObjectId) : Prop :=
  ∃ t r, (t, ⟨r, .ok o⟩) ∈ σ.notes ∧ r.contents? σ.world = some s

theorem Sound.entry {s : String} {o : ObjectId} (sound : Sound start σ) (gave : Gave σ s o) :
    σ.world.interned.lookup s = some o := by
  obtain ⟨t, r, noted, asked⟩ := gave
  cases sound.answered t _ noted with
  | given asked' entry =>
    cases asked.symm.trans asked'
    exact entry

variable {code : AnnotatedCode η Interned} {p q q' : Pool η Interned}

theorem kept_of_run (users : code.Uses Remembering interning)
    (tasks : ∀ t, (p.tasks t).Uses Remembering interning) (canonical : p.moment.world.Canonical)
    (unnoted : p.moment.notes = []) (run : Pool.Run code anywhere p q) :
    q.Kept (discipline p.moment.world) := by
  have serves := serves_interning p.moment.world
  refine (serves.kept ⟨canonical, .refl _, ?_⟩ tasks).run (serves.code users) run
  intro t n noted
  rw [unnoted] at noted
  cases noted

theorem remembers_of_run (users : code.Uses Remembering interning)
    (kept : q.Kept (discipline start)) (run : Pool.Run code anywhere q q') :
    q.moment.world.Remembers q'.moment.world := by
  let I (σ : Moment η Interned) : Prop := q.moment.world.Remembers σ.world
  refine kept.invariant (I := I) ((serves_interning start).code users) ?_ (.refl _) run
  exact fun t σ τ sound moves remembers => remembers.trans (Moves.remembers moves sound)

/-! A request that fails while nobody else adds entries. -/

section failing
variable {code : Code η} {rely : World η → World η → Prop} {w u : World η} {env e : Env}
  {f : Failure} (spares : ∀ w v, rely w v → v.interned = w.interned)

include spares in
theorem interned_of_act {x : Atomic η α} {r : Except Failure α} (alone : x.SparesTable)
    (ends : Exec.Ends code rely w env (Exec.act x) r e u) : u.interned = w.interned := by
  obtain ⟨y, refs, change, ran, -⟩ := Exec.ends_act.mp ends
  have same := alone (y.during (env.references ++ refs))
  rw [ran] at same
  exact same.trans (spares w y change)

theorem not_failed_act {x : Atomic η α} (succeeds : ∀ w, ∃ a, (x.runOn w).1 = .ok a) :
    ¬ Exec.Ends code rely w env (Exec.act x) (.error f) e u := by
  intro ends
  obtain ⟨y, refs, -, ran, -⟩ := Exec.ends_act.mp ends
  obtain ⟨a, same⟩ := succeeds (y.during (env.references ++ refs))
  rw [ran] at same
  cases same

theorem not_failed_interned (s : String) :
    ¬ Exec.Ends code rely w env (Exec.act (Atomic.interned? s)) (.error f) e u :=
  not_failed_act fun w => ⟨w.interned.lookup s, rfl⟩

include spares in
theorem interned_of_failed_intern {o : ObjectId}
    (ends : Exec.Ends code rely w env (Exec.intern o) (.error f) e u) :
    u.interned = w.interned := by
  rcases Exec.ends_bind.mp ends with ⟨f, failed, -⟩ | ⟨s, d, v, -, rest⟩
  · exact interned_of_act spares (Atomic.sparesTable_contents o) failed
  rcases Exec.ends_bind.mp rest with ⟨f, failed, -⟩ | ⟨found, d, v, -, rest⟩
  · exact absurd failed (not_failed_interned s)
  cases found with
  | some e => cases (Exec.ends_pure.mp rest).1
  | none =>
    refine absurd rest (not_failed_act fun w => ?_)
    obtain ⟨e, same, -⟩ := Atomic.entry_internAs (w := w) (s := s) (o := o)
    exact ⟨e, same⟩

include spares in
theorem interned_of_failed {request : InternRequest}
    (ends : Exec.Ends code rely w env request.run (.error f) e u) : u.interned = w.interned := by
  cases request with
  | object o => exact interned_of_failed_intern spares ends
  | text s =>
    rcases Exec.ends_bind.mp ends with ⟨f, failed, -⟩ | ⟨found, d, v, looked, rest⟩
    · exact absurd failed (not_failed_interned s)
    have before := interned_of_act spares (fun w => rfl) looked
    cases found with
    | some e => cases (Exec.ends_pure.mp rest).1
    | none =>
      rcases Exec.ends_bind.mp rest with ⟨f, failed, -⟩ | ⟨o, d, v, made, rest⟩
      · exact (interned_of_act spares (Atomic.sparesTable_newString s) failed).trans before
      · have made := interned_of_act spares (Atomic.sparesTable_newString s) made
        exact (interned_of_failed_intern spares rest).trans (made.trans before)

end failing

/-- After any run, and for any further one. -/
theorem interning_canonical (users : code.Uses Remembering interning)
    (tasks : ∀ t, (p.tasks t).Uses Remembering interning) (canonical : p.moment.world.Canonical)
    (unnoted : p.moment.notes = []) (run : Pool.Run code anywhere p q) :
    (∀ t r o, (t, ⟨r, .ok o⟩) ∈ q.moment.notes → ∃ s,
        r.contents? q.moment.world = some s ∧ (q.moment.world.heap.get o).string? = some s) ∧
      (∀ s o s' o', Gave q.moment s o → Gave q.moment s' o' → (o = o' ↔ s = s')) ∧
      (∀ q', Pool.Run code anywhere q q' → ∀ s o,
        Gave q.moment s o ∨ q.moment.world.interned.lookup s = some o →
          q'.moment.world.interned.lookup s = some o ∧ ∀ o', Gave q'.moment s o' → o' = o) ∧
      (∀ t r f, (t, ⟨r, .error f⟩) ∈ q.moment.notes → Refused p.moment.world r f) ∧
      (∀ code rely (w u : World η) env e f (r : InternRequest),
        (∀ w v, rely w v → v.interned = w.interned) →
          Exec.Ends code rely w env r.run (.error f) e u → u.interned = w.interned) ∧
      (∀ r, (interning r : Noting η Interned ObjectId).plain = r.run) ∧
      (∀ call, (Noting.internNative call : Noting η Interned Nat).plain =
        ManagedRuntime.internNative call) ∧
      ∀ m args, Noting.Uses Remembering interning
        (ofExec (Exec.callMethod m args) : Noting η Interned _) := by
  have kept := kept_of_run users tasks canonical unnoted run
  have sound : Sound p.moment.world q.moment := kept.sound
  refine ⟨?_, ?_, ?_, ?_, ?_, plain_interning, plain_internNative, uses_callMethod⟩
  · intro t r o noted
    cases sound.answered t _ noted with
    | @given _ s _ asked entry => exact ⟨s, asked, sound.canonical.texts s o entry⟩
  · intro s o s' o' first second
    have entry := sound.entry first
    have entry' := sound.entry second
    constructor
    · rintro rfl
      exact sound.canonical.contents_of_entry entry entry'
    · rintro rfl
      exact Option.some.inj (entry.symm.trans entry')
  · intro q' further s o before
    have entry : q.moment.world.interned.lookup s = some o := before.elim sound.entry id
    have later := (remembers_of_run users kept further).entries s o entry
    have sound' := kept_of_run users tasks canonical unnoted (run.trans further)
    exact ⟨later, fun o' gave => Option.some.inj ((sound'.sound.entry gave).symm.trans later)⟩
  · intro t r f noted
    cases sound.answered t _ noted with
    | refused refused => exact refused
  · intro code rely w u env e f r spares ends
    exact interned_of_failed spares ends

/-! Threads that race for one entry. -/

instance (t : ThreadId) (σ : Moment η Interned) (n : Interned) : Decidable (anywhere t σ n) :=
  isTrue trivial

def bareWorld : World Unit := Boot.initialWorld .silent requiredRegistry 0

theorem canonical_bareWorld : bareWorld.Canonical := by
  obtain ⟨built, bare⟩ := unmirrored_requiredRegistry
  have found : ∀ name ∈ Universe.required, (requiredRegistry.find? name none).isSome = true := by
    decide +kernel
  refine ⟨built, fun c o mirror => ?_, nofun, fun name required => ?_⟩
  · exact nomatch (bare c).symm.trans mirror
  · exact Option.isSome_iff_exists.mp (found name required)

def interningCode : AnnotatedCode Unit Interned where
  execute _ _ := throw .nullReference
  native
    | .core .intern, call => Noting.internNative call
    | _, _ => throw .nullReference

theorem uses_interningCode : interningCode.Uses Remembering interning where
  execute _ _ := uses_throw .nullReference
  native f call := by
    unfold interningCode
    dsimp only
    split
    · exact uses_internNative call
    · exact uses_throw .nullReference

def racing : Pool Unit Interned where
  moment := ⟨bareWorld, []⟩
  tasks t :=
    let request := if t.index < 2 then .text "key" else .object ⟨0⟩
    ((interning request).runIn (.new t 8)).bind fun _ => .done ()

theorem uses_racing (t : ThreadId) : (racing.tasks t).Uses Remembering interning :=
  .request fun _ => .done

/-- Both threads find no entry and make a string. The second one wins, and before that a request for
the first object has failed. -/
theorem race_has_one_winner :
    ∃ q, Pool.Run interningCode anywhere racing q ∧
      (∀ t ∈ [0, 1], ((⟨t⟩, ⟨.text "key", .ok ⟨1⟩⟩) : ThreadId × Interned) ∈ q.moment.notes) ∧
      (∃ f, (⟨2⟩, ⟨.object ⟨0⟩, .error f⟩) ∈ q.moment.notes ∧
        Refused bareWorld (.object ⟨0⟩) f) ∧
      (⟨3⟩, ⟨.object ⟨0⟩, .ok ⟨1⟩⟩) ∈ q.moment.notes ∧
      ∀ q', Pool.Run interningCode anywhere q q' → ∀ o, Gave q'.moment "key" o → o = ⟨1⟩ := by
  let order : List ThreadId := [2, 2, 0, 1, 0, 1, 1, 1, 1, 1, 0, 0, 0, 3, 3, 3].map ThreadId.mk
  let failure : Failure := .notAString (bareWorld.textOf ⟨0⟩)
  have driven : (racing.drive interningCode anywhere order).map (·.moment.notes) =
      some [(⟨3⟩, ⟨.object ⟨0⟩, .ok ⟨1⟩⟩), (⟨0⟩, ⟨.text "key", .ok ⟨1⟩⟩),
        (⟨1⟩, ⟨.text "key", .ok ⟨1⟩⟩), (⟨2⟩, ⟨.object ⟨0⟩, .error failure⟩)] := by
    decide +kernel
  obtain ⟨q, drove, notes⟩ := Option.map_eq_some_iff.mp driven
  have run := Pool.run_of_drive drove
  obtain ⟨-, -, forever, refused, -⟩ :=
    interning_canonical uses_interningCode uses_racing canonical_bareWorld rfl run
  have gave : Gave q.moment "key" ⟨1⟩ := ⟨⟨0⟩, .text "key", by simp [notes], rfl⟩
  refine ⟨q, run, by simp [notes], ⟨failure, by simp [notes], ?_⟩, by simp [notes], ?_⟩
  · exact refused ⟨2⟩ (.object ⟨0⟩) failure (by simp [notes])
  · exact fun q' further => (forever q' further "key" ⟨1⟩ (.inl gave)).2

end Interning
end ManagedRuntime
