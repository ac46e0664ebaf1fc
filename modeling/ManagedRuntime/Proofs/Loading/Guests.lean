import ManagedRuntime.Proofs.Loading.Answers
import ManagedRuntime.Proofs.World.Tame

/-!
Guests: programs that look for any class at any time, and whose own actions are tame where the
classes that they have come across are loaded. Main statements: calls are guests, whatever method is
called, and so is the lookup that programs use.
-/
namespace ManagedRuntime
open Registry
variable {η α β : Type}

def TameFrom (r : Registry) (f : World η → Option (β × World η)) : Prop :=
  ∀ w b w', w.Sane → Later r w.registry → f w = some (b, w') →
    w'.Sane ∧ Later w.registry w'.registry

/-- A task that looks for classes, and whose own actions are tame where the classes of `r` are
loaded, and those that have been found since. When it is done `Q` holds of its result for good. -/
inductive Guest (Q : α → Registry → Prop) : Registry → Annotated η Answer α → Prop where
  | done {r : Registry} {a : α} (post : ∀ r', Later r r' → Q a r') : Guest Q r (.done a)
  | act {r : Registry} {β : Type} {env : Env} {f : World η → Option (β × World η)}
      {next : β → Annotated η Answer α} (tame : TameFrom r f)
      (rest : ∀ w b w', w.Sane → Later r w.registry → f w = some (b, w') →
        Guest Q w'.registry (next b)) : Guest Q r (.act env f next)
  | execute {r : Registry} {m : Method} {args : List Value} {env : Env}
      {next : Except Failure (Option Value) × Env → Annotated η Answer α}
      (rest : ∀ q r', Later r r' → Guest Q r' (next q)) : Guest Q r (.execute m args env next)
  | native {r : Registry} {f : NativeFunction} {call : NativeCall} {env : Env}
      {next : Except Failure Nat × Env → Annotated η Answer α}
      (rest : ∀ q r', Later r r' → Guest Q r' (next q)) : Guest Q r (.native f call env next)
  | lookup {r : Registry} {name : String} {loader : Reference} {env : Env}
      {next : Except Failure ClassId × Env → Annotated η Answer α}
      (rest : ∀ q r', Later r r' → (∀ c, q.1 = .ok c → c.index < r'.loaded.size) →
        Guest Q r' (next q)) :
      Guest Q r (((Noting.findClass name loader).runIn env).bind next)

variable {r : Registry} {P : α → Registry → Prop} {Q : β → Registry → Prop}

theorem Guest.bind {x : Annotated η Answer α} {g : α → Annotated η Answer β} (first : Guest P r x)
    (rest : ∀ a r', Later r r' → (∀ r'', Later r' r'' → P a r'') → Guest Q r' (g a)) :
    Guest Q r (x.bind g) := by
  induction first with
  | done post => exact rest _ _ (.refl _) post
  | act tame _ ih =>
    refine .act tame fun w b w' sane later step => ih w b w' sane later step ?_
    have meanwhile := later.trans (tame w b w' sane later step).2
    exact fun a r' further => rest a r' (meanwhile.trans further)
  | execute _ ih =>
    refine .execute fun q r' later => ih q r' later fun a r'' further => ?_
    exact rest a r'' (later.trans further)
  | native _ ih =>
    refine .native fun q r' later => ih q r' later fun a r'' further => ?_
    exact rest a r'' (later.trans further)
  | lookup _ ih =>
    rw [Annotated.bind_assoc]
    refine .lookup fun q r' later there => ih q r' later there fun a r'' further => ?_
    exact rest a r'' (later.trans further)

theorem Guest.ofTask {x : Task η α} (tame : x.Within Tame) (always : ∀ a r, P a r)
    (r : Registry) : Guest P r (.ofTask x) := by
  induction tame generalizing r with
  | done => exact .done fun r' _ => always _ r'
  | act tame _ ih =>
    refine .act (fun w b w' sane _ step => tame w b w' step sane) ?_
    exact fun _ b w' _ _ _ => ih b w'.registry
  | execute _ ih => exact .execute fun q r' _ => ih q r'
  | native _ ih => exact .native fun q r' _ => ih q r'

namespace Noting

def IsGuest (r : Registry) (P : α → Registry → Prop) (x : Noting η Answer α) : Prop :=
  ∀ env, Guest (fun q r' => ∀ a, q.1 = .ok a → P a r') r (x.runIn env)

theorem isGuest_pure {a : α} (post : ∀ r', Later r r' → P a r') :
    IsGuest r P (pure a : Noting η Answer α) := by
  refine fun _ => .done fun r' later b same => ?_
  cases same
  exact post r' later

theorem isGuest_throw (f : Failure) : IsGuest r P (throw f : Noting η Answer α) :=
  fun _ => .done fun _ _ _ same => by cases same

theorem isGuest_bind {x : Noting η Answer α} {g : α → Noting η Answer β} (first : IsGuest r P x)
    (rest : ∀ a r', Later r r' → (∀ r'', Later r' r'' → P a r'') → IsGuest r' Q (g a)) :
    IsGuest r Q (x >>= g) := by
  intro env
  rw [show (x >>= g).runIn env = (x.runIn env).bind _ from rfl]
  refine (first env).bind fun (q, e) r' later post => ?_
  cases q with
  | error f => exact isGuest_throw f e
  | ok a => exact rest a r' later (fun r'' further => post r'' further a rfl) e

theorem isGuest_outcome {x : Noting η Answer α} (guest : IsGuest r P x) :
    IsGuest r (fun q r' => ∀ a, q = .ok a → P a r') x.outcome := by
  intro env
  rw [show x.outcome.runIn env = (x.runIn env).bind _ from rfl]
  refine (guest env).bind fun (q, e) r' _ post => .done fun r'' further q' same a ok => ?_
  cases same
  exact post r'' further a ok

theorem isGuest_findClass (name : String) (loader : Reference) (r : Registry) :
    IsGuest r (fun c r' => c.index < r'.loaded.size)
      (findClass name loader : Noting η Answer ClassId) := by
  intro env
  rw [← Annotated.bind_done ((findClass name loader).runIn env)]
  refine .lookup fun q r' _ there => .done fun r'' later c same => ?_
  exact Nat.lt_of_lt_of_le (there c same) later.size

theorem isGuest_ofExec {x : Exec η α} (tame : Exec.Within Tame x) (r : Registry) :
    IsGuest r (fun _ _ => True) (ofExec x : Noting η Answer α) := by
  exact fun env => .ofTask (tame env) (fun _ _ _ _ => trivial) r

theorem isGuest_mirror {c : ClassId} (there : c.index < r.loaded.size) :
    IsGuest r (fun _ _ => True)
      (ofExec (Exec.act (Atomic.mirror c)) : Noting η Answer ObjectId) := by
  refine fun env => .act (fun w b w' sane later step => ?_) fun w b w' _ _ _ =>
    .done fun _ _ _ _ => trivial
  cases step
  exact Atomic.tame_mirror (Nat.lt_of_lt_of_le there later.size) sane

theorem isGuest_callMethod (m : Method) (args : List Value) (r : Registry) :
    IsGuest r (fun _ _ => True) (ofExec (Exec.callMethod m args) : Noting η Answer _) :=
  isGuest_ofExec (Exec.within_callMethod Atomic.tame_link m args) r

theorem isGuest_classForName (name : String) (initialized : Bool) (loader : Reference)
    (r : Registry) :
    IsGuest r (fun _ _ => True) (classForName name initialized loader : Noting η Answer _) := by
  have initializes (c : ClassId) : Exec.Within Tame (Exec.initializeClass c : Exec η Unit) := by
    refine Exec.within_initializeClass Atomic.tame_link Tame.refl (fun c p w => ?_) c
    exact .ofRegistry fun built => ⟨built.modifyState _ _, .modifyState _ _⟩
  unfold classForName
  cases internalName? name with
  | none => exact isGuest_throw _
  | some internal =>
    refine isGuest_bind (isGuest_outcome (isGuest_findClass internal loader r)) ?_
    intro found r' _ post
    cases found with
    | ok c =>
      have there : c.index < r'.loaded.size := post r' (.refl _) c rfl
      cases initialized with
      | false => exact isGuest_mirror there
      | true =>
        refine isGuest_bind (isGuest_ofExec (initializes c) r') fun _ r'' later _ => ?_
        exact isGuest_mirror (Nat.lt_of_lt_of_le there later.size)
    | error f => cases f <;> exact isGuest_throw _

end Noting

structure AnnotatedCode.IsGuest (code : AnnotatedCode η Answer) : Prop where
  execute : ∀ m args r, (code.execute m args).IsGuest r fun _ _ => True
  native : ∀ f call r, (code.native f call).IsGuest r fun _ _ => True

end ManagedRuntime
