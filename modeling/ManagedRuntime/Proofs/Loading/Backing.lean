import ManagedRuntime.Proofs.Execution.Interleaving
import ManagedRuntime.Proofs.Loading.Guests

/-!
What stands behind the answers to lookups while threads move. An answer says where its class comes
from, and what that means goes on to hold, since no class goes or changes. Main statement: guests
make tame moves alone and give no answer that nothing stands behind.
-/
namespace ManagedRuntime
variable {η α β : Type}

namespace Lookup
open Registry Noting

def Answered (σ : Moment η Answer) (a : Answer) : Prop := ∃ t, (t, a) ∈ σ.notes

/-- What stands behind an answer from the moment on when it is given. -/
inductive Backed (σ : Moment η Answer) : Answer → Prop
  | own {name : String} {loader : Reference} {c : ClassId} (plain : isArrayName name = false)
      (known : σ.world.registry.Known name loader c) : Backed σ ⟨name, loader, c, .own⟩
  | told {name : String} {l : ObjectId} {c : ClassId} (plain : isArrayName name = false)
      (there : c.index < σ.world.registry.loaded.size) : Backed σ ⟨name, some l, c, .told⟩
  | read {name : String} {c : ClassId} (plain : isArrayName name = false)
      (known : σ.world.registry.Known (σ.world.cls c).name none c) :
      Backed σ ⟨name, none, c, .read⟩
  | primitives {name : String} {loader : Reference} {a : ClassId}
      (array : isArrayName name = true) (named : elementName? name = none)
      (known : σ.world.registry.Known name none a) : Backed σ ⟨name, loader, a, .made⟩
  | elements {name element : String} {loader : Reference} {a e : ClassId}
      (array : isArrayName name = true) (named : elementName? name = some element)
      (component : σ.world.registry.Known element loader e)
      (known : σ.world.registry.Known name loader a) : Backed σ ⟨name, loader, a, .made⟩
  /-- The loader has answered with a class that it has not defined, and the array class is one over
  a class of the bootstrap loader. -/
  | delegated {name element : String} {l : ObjectId} {a c : ClassId}
      (array : isArrayName name = true) (named : elementName? name = some element)
      (told : Answered σ ⟨element, some l, c, .told⟩)
      (there : c.index < σ.world.registry.loaded.size)
      (foreign : ¬ σ.world.registry.Known element (some l) c)
      (known : σ.world.registry.Known name none a) : Backed σ ⟨name, some l, a, .made⟩

structure Sound (σ : Moment η Answer) : Prop where
  sane : σ.world.Sane
  backed : ∀ a, Answered σ a → Backed σ a

structure Keeps (σ τ : Moment η Answer) : Prop where
  later : Later σ.world.registry τ.world.registry
  answered : ∀ a, Answered σ a → Answered τ a

inductive Moves (σ : Moment η Answer) : Moment η Answer → Prop
  | acts {w : World η} (tame : Tame σ.world w) : Moves σ (σ.inWorld w)
  | answers {t : ThreadId} {a : Answer} (backed : Backed σ a) : Moves σ (σ.noted t a)

variable {t u : ThreadId} {ρ σ τ : Moment η Answer} {name element : String} {loader : Reference}
  {c d : ClassId} {env : Env} {source : Source}

theorem Keeps.refl (σ : Moment η Answer) : Keeps σ σ := ⟨.refl _, fun _ => id⟩

theorem Keeps.trans (first : Keeps ρ σ) (second : Keeps σ τ) : Keeps ρ τ :=
  ⟨first.later.trans second.later, fun a answered => second.answered a (first.answered a answered)⟩

theorem Answered.noted (a : Answer) : Answered (σ.noted t a) a := ⟨t, List.mem_cons_self⟩

theorem Backed.keeps {a : Answer} (keeps : Keeps σ τ) (backed : Backed σ a) : Backed τ a := by
  have later := keeps.later
  have there {c : ClassId} (inside : c.index < σ.world.registry.loaded.size) :
      c.index < τ.world.registry.loaded.size := Nat.lt_of_lt_of_le inside later.size
  cases backed with
  | own plain known => exact .own plain (later.known known)
  | told plain inside => exact .told plain (there inside)
  | @read name c plain known =>
    refine .read plain ?_
    rw [World.cls, later.cls c known.there]
    exact later.known known
  | primitives array named known => exact .primitives array named (later.known known)
  | elements array named component known =>
    exact .elements array named (later.known component) (later.known known)
  | @delegated name element l a c array named told inside foreign known =>
    exact .delegated array named (keeps.answered _ told) (there inside)
      (fun other => foreign (later.knew inside other)) (later.known known)

theorem Moves.keeps (sound : Sound σ) (moves : Moves σ τ) : Keeps σ τ := by
  cases moves with
  | acts tame => exact ⟨(tame sound.sane).2, fun _ => id⟩
  | answers backed =>
    exact ⟨.refl _, fun a ⟨t, member⟩ => ⟨t, List.mem_cons_of_mem _ member⟩⟩

theorem Sound.moves (sound : Sound σ) (moves : Moves σ τ) : Sound τ := by
  have keeps := moves.keeps sound
  cases moves with
  | acts tame =>
    exact ⟨(tame sound.sane).1, fun a answered => (sound.backed a answered).keeps keeps⟩
  | answers backed =>
    refine ⟨sound.sane, fun b ⟨u, member⟩ => ?_⟩
    rcases List.mem_cons.mp member with same | old
    · cases same
      exact backed.keeps keeps
    · exact (sound.backed b ⟨u, old⟩).keeps keeps

def discipline : Discipline η Answer where
  meant _ _ _ := True
  moves _ := Moves
  sound := Sound
  keeps _ := Keeps
  keeps_refl _ := Keeps.refl
  keeps_trans := Keeps.trans
  sound_moves := Sound.moves
  keeps_others _ sound moves := moves.keeps sound

/-! Tasks without answers. -/

theorem moves_atomic {x : Atomic η α} {refs : List ObjectId} {r : Except Failure α} {w : World η}
    (tame : x.Within Tame) (step : x.runOn (σ.world.during refs) = (r, w)) :
    Moves σ (σ.inWorld w) := by
  refine .acts fun sane => ?_
  have comes := tame (σ.world.during refs) (sane.during refs)
  rwa [step] at comes

theorem obeys_task {x : Task η α} (tame : x.Within Tame) (ρ : Moment η Answer) :
    Obeys discipline t (fun _ τ => Keeps ρ τ) ρ (.ofTask x) := by
  refine obeys_ofTask tame (fun σ refs w sound tame => ?_) ρ
  have move : Moves σ (σ.inWorld w) := .acts fun sane => tame (sane.during refs)
  exact ⟨move, move.keeps sound⟩

/-! What the parts of a lookup come to. -/

def Brings (t : ThreadId) (ρ : Moment η Answer) (P : α → Registry → Prop) (x : Exec η α) : Prop :=
  ∀ env, Obeys discipline t
    (fun r τ => Keeps ρ τ ∧ ∀ a, r.1 = .ok a → P a τ.world.registry) ρ ((ofExec x).runIn env)

def Lasting (P : α → Registry → Prop) : Prop := ∀ ⦃a r r'⦄, Later r r' → P a r → P a r'

section programs
variable {P : α → Registry → Prop} {Q : β → Registry → Prop}

theorem brings_of_within {x : Exec η α} (tame : Exec.Within Tame x) :
    Brings t ρ (fun _ _ => True) x := by
  exact fun env => (obeys_task (tame env) ρ).weaken fun _ _ _ keeps => ⟨keeps, fun _ _ => trivial⟩

theorem brings_act {x : Atomic η α} (tame : x.Within Tame) (lasting : Lasting P)
    (post : ∀ w : World η, w.Sane → ∀ a v, x.runOn w = (.ok a, v) → P a v.registry) :
    Brings t ρ P (Exec.act x) := by
  intro env
  refine obeys_await (fun σ refs r w _ _ step => moves_atomic tame (Option.some.inj step)) ?_
  intro σ refs r w held τ keeps sound step later _
  have ran := Option.some.inj step
  refine ⟨(keeps.trans ((moves_atomic tame ran).keeps sound)).trans later, fun a succeeded => ?_⟩
  cases succeeded
  exact lasting later.later (post _ (sound.sane.during refs) a w ran)

theorem brings_throw (f : Failure) : Brings t ρ P (throw f : Exec η α) :=
  fun _ => .done fun _ keeps _ => ⟨keeps, nofun⟩

theorem brings_pure (lasting : Lasting P) {a : α} (holds : P a ρ.world.registry) :
    Brings t ρ P (pure a : Exec η α) := by
  refine fun _ => .done fun σ keeps _ => ⟨keeps, fun b same => ?_⟩
  cases same
  exact lasting keeps.later holds

theorem brings_bind {x : Exec η β} {g : β → Exec η α} (first : Brings t ρ Q x)
    (rest : ∀ b σ, Q b σ.world.registry → Brings t σ P (g b)) : Brings t ρ P (x >>= g) := by
  intro env
  rw [ofExec_bind]
  refine obeys_bind (first env) ?_ ?_
  · rintro f e σ τ ⟨keeps, -⟩ later _
    exact ⟨keeps.trans later, nofun⟩
  · rintro b e σ _ ⟨keeps, holds⟩
    refine (rest b σ (holds b rfl) e).weaken fun r τ _ ⟨later, post⟩ => ?_
    exact ⟨keeps.trans later, post⟩

theorem brings_releasing {x : Exec η α} (lasting : Lasting P) (brings : Brings t ρ P x) :
    Brings t ρ P (Exec.releasing x) := by
  intro env
  change Obeys discipline t _ ρ ((ofExec (Exec.outcome x >>= fun r => _)).runIn env)
  rw [ofExec_bind, ofExec_outcome]
  refine obeys_outcome_bind (brings env) fun r e σ _ ⟨keeps, holds⟩ => ?_
  refine .done fun τ later _ => ⟨keeps.trans later, fun a same => ?_⟩
  exact lasting later.later (holds a same)

end programs

theorem brings_askLoader (l : ObjectId) (name : String) :
    Brings t ρ (fun c r => c.index < r.loaded.size) (Exec.askLoader l name : Exec η ClassId) := by
  have lasting : Lasting fun (c : ClassId) (r : Registry) => c.index < r.loaded.size :=
    fun _ _ _ later there => Nat.lt_of_lt_of_le there later.size
  refine brings_releasing lasting (brings_bind (brings_of_within ?_) fun text σ _ => ?_)
  · exact Exec.within_act (Atomic.tame_newString _)
  refine brings_bind (brings_of_within ?_) fun answer τ _ => ?_
  · exact Exec.within_outcome (Exec.within_callVirtual Atomic.tame_link Tame.refl _ _ _ _)
  cases answer with
  | error f => exact brings_throw _
  | ok v =>
    dsimp only
    split
    · rename_i o _
      have tame : (Atomic.mirroredClass o : Atomic η _).Within Tame := by
        intro w
        unfold Atomic.mirroredClass
        rw [Atomic.runOn_get_bind]
        split <;> exact .refl w
      refine brings_act tame lasting fun w sane c v ran => ?_
      unfold Atomic.mirroredClass at ran
      rw [Atomic.runOn_get_bind] at ran
      split at ran
      · rename_i d mirrors
        cases ran
        exact sane.mirrors o c mirrors
      · cases ran
    · exact brings_throw _

theorem brings_findBootClass (plain : isArrayName name = false) :
    Brings t ρ (fun found r => ∀ c, found = some c → r.Known (r.cls c).name none c)
      (Exec.findBootClass name : Exec η (Option ClassId)) := by
  have defined : Lasting fun (c : ClassId) (r : Registry) => r.Known (r.cls c).name none c := by
    intro c r r' later known
    rw [later.cls c known.there]
    exact later.known known
  have lasting : Lasting fun (found : Option ClassId) (r : Registry) =>
      ∀ c, found = some c → r.Known (r.cls c).name none c :=
    fun found r r' later known c same => defined later (known c same)
  have looks := Atomic.tame_findBootstrap (η := η) name
  refine brings_bind (brings_act looks lasting ?_) fun found σ known => ?_
  · intro w _ found v ran c same
    rw [Atomic.runOn_findBootstrap plain] at ran
    cases ran
    have known := find?_known same
    rwa [known.name]
  cases found with
  | some c => exact brings_pure lasting known
  | none =>
    refine brings_bind (brings_of_within (Exec.within_ask Tame.refl _)) fun file τ _ => ?_
    cases file with
    | none => exact brings_pure lasting nofun
    | some bytes =>
      have parsed : Exec.Within Tame (Exec.act (Atomic.parseClass (some name) bytes) : Exec η _) :=
        Exec.within_act (Atomic.tame_parseClass _ _)
      refine brings_bind (brings_of_within parsed) fun d υ _ => ?_
      rw [← bind_pure_comp]
      have defines := Atomic.tame_defineClass (η := η) d none
      refine brings_bind (brings_act defines defined ?_) fun c φ known => ?_
      · intro w sane c v ran
        have comes := Atomic.defineClass_cases sane.built d none
        rw [ran] at comes
        cases comes with
        | defined adds _ => rw [adds.known.name]; exact adds.known
      · refine brings_pure lasting fun c' same => ?_
        cases same
        exact known

/-! Lookups. -/

def Gives (ρ : Moment η Answer) (name : String) (loader : Reference)
    (r : Except Failure ClassId × Env) (τ : Moment η Answer) : Prop :=
  Keeps ρ τ ∧ ∀ c, r.1 = .ok c → ∃ source, Answered τ ⟨name, loader, c, source⟩

theorem obeys_brings_bind {Q : β → Registry → Prop} {x : Exec η β}
    {g : β → Noting η Answer ClassId} (first : Brings t ρ Q x)
    (rest : ∀ b e σ, Q b σ.world.registry →
      Obeys discipline t (Gives σ name loader) σ ((g b).runIn e)) :
    Obeys discipline t (Gives ρ name loader) ρ ((ofExec x >>= g).runIn env) := by
  refine obeys_bind (first env) ?_ ?_
  · rintro f e σ τ ⟨keeps, -⟩ later _
    exact ⟨keeps.trans later, nofun⟩
  · rintro b e σ _ ⟨keeps, holds⟩
    refine (rest b e σ (holds b rfl)).weaken fun r τ _ ⟨later, answered⟩ => ?_
    exact ⟨keeps.trans later, answered⟩

theorem obeys_answer (backed : Backed ρ ⟨name, loader, c, source⟩) (env : Env) :
    Obeys discipline t (Gives ρ name loader) ρ ((answer name loader source c).runIn env) := by
  have moves {σ : Moment η Answer} (keeps : Keeps ρ σ) :
      Moves σ (σ.noted t ⟨name, loader, c, source⟩) := .answers (backed.keeps keeps)
  refine obeys_note_bind (fun σ keeps _ _ => moves keeps) fun σ keeps sound _ => ?_
  refine .done fun τ later _ => ⟨(keeps.trans ((moves keeps).keeps sound)).trans later, ?_⟩
  intro d same
  cases same
  exact ⟨source, later.answered _ (.noted _)⟩

theorem obeys_findPlainClass (plain : isArrayName name = false) (env : Env) :
    Obeys discipline t (Gives ρ name loader) ρ ((findPlainClass name loader).runIn env) := by
  have lasting : Lasting fun (found : Option ClassId) (r : Registry) =>
      ∀ c, found = some c → r.Known name loader c :=
    fun _ _ _ later known c same => later.known (known c same)
  unfold findPlainClass
  refine obeys_brings_bind (brings_act Tame.refl lasting ?_) fun found e σ known => ?_
  · intro w _ found v ran c same
    cases ran
    exact find?_known same
  cases found with
  | some c => exact obeys_answer (.own plain (known c rfl)) e
  | none =>
    cases loader with
    | some l =>
      exact obeys_brings_bind (brings_askLoader l name) fun c e σ there =>
        obeys_answer (.told plain there) e
    | none =>
      refine obeys_brings_bind (brings_findBootClass plain) fun found e σ known => ?_
      cases found with
      | some c => exact obeys_answer (.read plain (known c rfl)) e
      | none => exact .done fun τ keeps _ => ⟨keeps, nofun⟩

def Prepared (name : String) (loader : Reference) (σ : Moment η Answer) : Prop :=
  ∀ element, elementName? name = some element →
    isArrayName element = false ∧ ∃ c source, Answered σ ⟨element, loader, c, source⟩

theorem Prepared.keeps (prepared : Prepared name loader σ) (keeps : Keeps σ τ) :
    Prepared name loader τ := by
  intro element named
  obtain ⟨plain, c, source, answered⟩ := prepared element named
  exact ⟨plain, c, source, keeps.answered _ answered⟩

theorem obeys_loadElement (env : Env) :
    Obeys discipline t (fun r τ => Keeps ρ τ ∧ (r.1 = .ok () → Prepared name loader τ)) ρ
      ((loadElement name loader).runIn env) := by
  unfold loadElement
  cases object : objectName? (name.toList.drop (brackets name)) with
  | none =>
    refine .done fun τ keeps _ => ⟨keeps, fun _ element named => ?_⟩
    rw [elementName?, object] at named
    cases named
  | some element =>
    dsimp only
    split
    · exact .done fun τ keeps _ => ⟨keeps, fun succeeded => by cases succeeded⟩
    rename_i head
    have plain : isArrayName (String.ofList element) = false := by
      refine Bool.eq_false_iff.mpr fun array => head ?_
      obtain ⟨cs, chars⟩ := isArrayName_iff.mp array
      rw [String.toList_ofList] at chars
      simp [chars]
    rw [show (discard (findPlainClass (String.ofList element) loader)).runIn env =
      ((findPlainClass (String.ofList element) loader).runIn env).bind _ from rfl]
    refine (obeys_findPlainClass plain env).bind ?_
    rintro ⟨r, e⟩ σ _ ⟨keeps, answered⟩
    cases r with
    | error f =>
      exact .done fun τ later _ => ⟨keeps.trans later, fun succeeded => by cases succeeded⟩
    | ok c =>
      refine .done fun τ later _ => ⟨keeps.trans later, fun _ => ?_⟩
      refine Prepared.keeps ?_ later
      intro element' named
      rw [elementName?, object] at named
      cases named
      exact ⟨plain, c, answered c rfl⟩

theorem backed_made (sound : Sound σ) (array : isArrayName name = true)
    (prepared : Prepared name loader σ) {a : ClassId} {w : World η}
    (made : σ.world.registry.arrayClass name loader = (some a, w.registry)) :
    Backed (σ.inWorld w) ⟨name, loader, a, .made⟩ := by
  obtain ⟨-, later, arrays⟩ := sound.sane.built.arrayClass_arrays
    (fun element named => (prepared element named).1) made
  cases arrays with
  | primitive named known => exact .primitives array named known
  | own named component known => exact .elements array named (later.known component) known
  | @boot element e named unseen component known =>
    obtain ⟨plain, c, source, answered⟩ := prepared element named
    cases sound.backed _ answered with
    | own _ known => exact absurd known (unseen c)
    | told _ there =>
      exact .delegated array named answered (Nat.lt_of_lt_of_le there later.size)
        (fun other => unseen c (later.knew there other)) known
    | read _ _ => exact absurd component (unseen e)
    | primitives array | elements array | delegated array =>
      rw [plain] at array
      cases array

theorem obeys_arrayClass (array : isArrayName name = true) (prepared : Prepared name loader ρ)
    (env : Env) :
    Obeys discipline t
      (fun r τ => Keeps ρ τ ∧ ∀ a, r.1 = .ok (some a) → Backed τ ⟨name, loader, a, .made⟩) ρ
      ((ofExec (Exec.act (Atomic.onRegistry (·.arrayClass name loader)))).runIn env) := by
  have tame : (Atomic.onRegistry (·.arrayClass name loader) : Atomic η _).Within Tame :=
    Atomic.tame_arrayClass name loader
  refine obeys_await (fun σ refs r w _ _ step => moves_atomic tame (Option.some.inj step)) ?_
  intro σ refs r w held τ keeps sound step later _
  have moved := (moves_atomic tame (Option.some.inj step)).keeps sound
  refine ⟨(keeps.trans moved).trans later, fun a found => ?_⟩
  have made : σ.world.registry.arrayClass name loader = (some a, w.registry) := by
    cases step
    exact Prod.ext (Except.ok.inj found) rfl
  exact (backed_made sound array (prepared.keeps keeps) made).keeps later

theorem obeys_findClass (name : String) (loader : Reference) (env : Env) (ρ : Moment η Answer) :
    Obeys discipline t (Gives ρ name loader) ρ ((findClass name loader).runIn env) := by
  unfold findClass
  split
  · rename_i array
    refine obeys_bind (obeys_loadElement env) ?_ ?_
    · rintro f e σ τ ⟨keeps, -⟩ later _
      exact ⟨keeps.trans later, nofun⟩
    rintro a e σ _ ⟨keeps, prepared⟩
    refine obeys_bind (obeys_arrayClass array (prepared rfl) e) ?_ ?_
    · rintro f e σ' τ ⟨later, -⟩ further _
      exact ⟨(keeps.trans later).trans further, nofun⟩
    rintro found e τ _ ⟨later, backed⟩
    cases found with
    | some a =>
      refine (obeys_answer (backed a rfl) e).weaken fun _ _ _ ⟨further, answered⟩ => ?_
      exact ⟨(keeps.trans later).trans further, answered⟩
    | none => exact .done fun υ further _ => ⟨(keeps.trans later).trans further, nofun⟩
  · rename_i plain
    exact obeys_findPlainClass (by simpa using plain) env

theorem Backed.there {a : Answer} (backed : Backed σ a) :
    a.cls.index < σ.world.registry.loaded.size := by
  cases backed with
  | told _ there => exact there
  | own _ known | read _ known => exact known.there
  | primitives _ _ known | elements _ _ _ known | delegated _ _ _ _ _ known => exact known.there

theorem obeys_guest {P : α → Registry → Prop} {r : Registry} {x : Annotated η Answer α}
    (guest : Guest P r x) (later : Later r ρ.world.registry) :
    Obeys discipline t (fun a τ => Keeps ρ τ ∧ P a τ.world.registry) ρ x := by
  -- on the actions of the guest; the classes that it relies on are loaded at all later moments
  induction guest generalizing ρ with
  | done post => exact .done fun σ keeps _ => ⟨keeps, post _ (later.trans keeps.later)⟩
  | act tame _ ih =>
    have acts {σ : Moment η Answer} {refs b w} (keeps : Keeps ρ σ) step : Moves σ (σ.inWorld w) :=
      .acts fun sane => tame (σ.world.during refs) b w (sane.during refs)
        (later.trans keeps.later) step
    refine .act (fun σ refs b w keeps _ step => acts keeps step) ?_
    intro σ refs b w keeps sound step
    refine Obeys.since_and (keeps.trans ((acts keeps step).keeps sound)) ?_
    exact ih _ b w (sound.sane.during refs) (later.trans keeps.later) step (.refl _)
  | execute _ ih =>
    refine .execute fun σ q keeps _ => Obeys.since_and keeps ?_
    exact ih q _ (later.trans keeps.later) (.refl _)
  | native _ ih =>
    refine .native fun σ q keeps _ => Obeys.since_and keeps ?_
    exact ih q _ (later.trans keeps.later) (.refl _)
  | lookup _ ih =>
    refine (obeys_findClass _ _ _ ρ).bind fun q σ sound gives => Obeys.since_and gives.1 ?_
    refine ih q _ (later.trans gives.1.later) (fun c found => ?_) (.refl _)
    obtain ⟨source, answered⟩ := gives.2 c found
    exact (sound.backed _ answered).there

end Lookup
end ManagedRuntime
