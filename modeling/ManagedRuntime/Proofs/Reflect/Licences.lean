import ManagedRuntime.Proofs.Loading.Charge
import ManagedRuntime.Proofs.Reflect.Callers

/-!
Licences to run class initialisers. Whoever is about to run one in the course of an initialisation
reports so, and whoever calls one reflectively remarks it; either is a licence for one entry. Main
statements: callers enter initialisers under a licence alone, and in every run there have been no more
entries than licences.
-/
namespace ManagedRuntime
variable {η α β : Type}

namespace Report

def starts? : Report → Option ClassId
  | starts c => some c
  | _ => none

def reflects? : Report → Option ClassId
  | remarks (.invokes _ m) | remarks (.constructs m) => m.initializes?
  | _ => none

def grants? (n : Report) : Option ClassId := n.starts?.or n.reflects?

def uses? : Report → Option ClassId
  | remarks (.enters m) => m.initializes?
  | _ => none

def Named : Report → Prop
  | remarks (.invokes n m) => m.name = n.name
  | _ => True

end Report

/-- With licence `l` the task enters initialisers under a licence alone. A licence serves for one
entry, and for what comes before the next report. -/
inductive Licensed (Q : α → Prop) : Option ClassId → Annotated η Report α → Prop where
  | done {l : Option ClassId} {a : α} (post : Q a) : Licensed Q l (.done a)
  | note {l : Option ClassId} {n : Report} {next : Annotated η Report α}
      (covered : ∀ c ∈ n.uses?, l = some c) (named : n.Named) (rest : Licensed Q n.grants? next) :
      Licensed Q l (.note n next)
  | act {l : Option ClassId} {β : Type} {env : Env} {f : World η → Option (β × World η)}
      {next : β → Annotated η Report α}
      (rest : ∀ w b v, w.registry.Built → f w = some (b, v) → Licensed Q l (next b)) :
      Licensed Q l (.act env f next)
  | execute {l : Option ClassId} {m : Method} {args : List Value} {env : Env}
      {next : Except Failure (Option Value) × Env → Annotated η Report α}
      (covered : ∀ c ∈ m.initializes?, l = some c) (rest : ∀ r, Licensed Q none (next r)) :
      Licensed Q l (.execute m args env next)
  | native {l : Option ClassId} {f : NativeFunction} {call : NativeCall} {env : Env}
      {next : Except Failure Nat × Env → Annotated η Report α}
      (covered : ∀ c ∈ call.method.initializes?, l = some c)
      (rest : ∀ r, Licensed Q none (next r)) : Licensed Q l (.native f call env next)

section licensed
variable {P : α → Prop} {Q : β → Prop} {l : Option ClassId}

theorem Licensed.more {x : Annotated η Report α} (licensed : Licensed P none x)
    (l : Option ClassId) : Licensed P l x := by
  generalize unlicensed : none = k at licensed
  induction licensed with
  | done post => exact .done post
  | note covered named rest =>
    exact .note (fun c uses => by cases covered c uses; cases unlicensed) named rest
  | act _ ih => exact .act fun w b v built step => ih w b v built step unlicensed
  | execute covered rest =>
    exact .execute (fun c uses => by cases covered c uses; cases unlicensed) rest
  | native covered rest =>
    exact .native (fun c uses => by cases covered c uses; cases unlicensed) rest

theorem Licensed.bind {x : Annotated η Report α} {g : α → Annotated η Report β}
    (first : Licensed P l x) (rest : ∀ a, P a → Licensed Q none (g a)) :
    Licensed Q l (x.bind g) := by
  induction first with
  | done post => exact (rest _ post).more _
  | note covered named _ ih => exact .note covered named ih
  | act _ ih => exact .act ih
  | execute covered _ ih => exact .execute covered ih
  | native covered _ ih => exact .native covered ih

/-- What enters one body at most may do with one licence. -/
theorem Task.AtMost.licensed {x : Task η α} {m : Method} {n : Nat} (few : x.AtMost (· = m) n)
    (one : n ≤ 1) (covered : n = 1 → ∀ c ∈ m.initializes?, l = some c) (always : ∀ a, P a) :
    Licensed P l (.ofTask x) := by
  induction few generalizing l with
  | done => exact .done (always _)
  | act _ ih => exact .act fun _ b _ _ _ => ih b one covered
  | @execute n _ _ _ _ may _ ih =>
    cases may
    obtain rfl : n = 0 := by omega
    exact .execute (covered rfl) fun r => ih r (by omega) nofun
  | @native n _ _ _ _ may _ ih =>
    cases may
    obtain rfl : n = 0 := by omega
    exact .native (covered rfl) fun r => ih r (by omega) nofun

end licensed

namespace Reporting
open Noting
variable {P : α → Prop} {Q : β → Prop} {l : Option ClassId}

def IsLicensed (P : α → Prop) (l : Option ClassId) (x : Noting η Report α) : Prop :=
  ∀ env, Licensed (fun r => ∀ a, r.1 = .ok a → P a) l (x.runIn env)

theorem isLicensed_conclude {r : Except Failure α} (post : ∀ a, r = .ok a → P a) :
    IsLicensed P l (conclude r : Noting η Report α) := fun _ => .done post

theorem isLicensed_throw (f : Failure) : IsLicensed P l (throw f : Noting η Report α) :=
  isLicensed_conclude nofun

theorem isLicensed_pure {a : α} (post : P a) : IsLicensed P l (pure a : Noting η Report α) :=
  isLicensed_conclude fun _ same => Except.ok.inj same ▸ post

theorem isLicensed_bind {x : Noting η Report α} {g : α → Noting η Report β}
    (first : IsLicensed P l x) (rest : ∀ a, P a → IsLicensed Q none (g a)) :
    IsLicensed Q l (x >>= g) := by
  intro env
  rw [show (x >>= g).runIn env = (x.runIn env).bind _ from rfl]
  refine (first env).bind fun (r, e) post => ?_
  cases r with
  | error f => exact isLicensed_throw f e
  | ok a => exact rest a (post a rfl) e

theorem isLicensed_outcome_bind {x : Noting η Report α} {g : Except Failure α → Noting η Report β}
    (first : IsLicensed P l x) (rest : ∀ r, IsLicensed Q none (g r)) :
    IsLicensed Q l (x.outcome >>= g) := by
  intro env
  rw [show (x.outcome >>= g).runIn env = ((x.runIn env).bind _).bind _ from rfl,
    Annotated.bind_assoc]
  exact (first env).bind fun (r, e) _ => rest r e

theorem isLicensed_note_bind {n : Report} {g : Unit → Noting η Report β} (plain : n.uses? = none)
    (named : n.Named) (rest : IsLicensed Q n.grants? (g ())) :
    IsLicensed Q l (note n >>= g) := by
  refine fun env => .note (fun c uses => ?_) named (rest env)
  rw [plain] at uses
  cases uses

theorem isLicensed_await {f : World η → Option (Except Failure α × World η)}
    (post : ∀ w a v, w.registry.Built → f w = some (.ok a, v) → P a) :
    IsLicensed P l (ofExec (Exec.await f)) := by
  refine fun env => .act fun w b v built step => .done fun a same => ?_
  obtain ⟨⟨r, u⟩, found, made⟩ := Option.map_eq_some_iff.mp step
  cases made
  cases same
  exact post w a u built found

theorem isLicensed_act (x : Atomic η α) :
    IsLicensed (fun _ => True) l (ofExec (Exec.act x) : Noting η Report α) :=
  isLicensed_await fun _ _ _ _ _ => trivial

theorem isLicensed_ask (f : World η → α) :
    IsLicensed (fun a => ∃ w : World η, w.registry.Built ∧ a = f w) l
      (ofExec (Exec.act (Atomic.ask f)) : Noting η Report α) := by
  refine isLicensed_await fun w a v built step => ⟨w, built, ?_⟩
  cases step
  rfl

/-! A request runs the initialisers of classes under the licences of their own reports. -/

theorem initializes?_of_initializer {w : World η} {c : ClassId} {m : Method}
    (built : w.registry.Built) (declared : (w.cls c).initializer? = some m) :
    m.initializes? = some c := by
  obtain ⟨member, name, -⟩ := Registry.declaredMethod?_named declared
  rw [Method.initializes?, if_pos name, (built.declared member).1]

theorem isLicensed_runInitializer (c : ClassId) :
    IsLicensed (fun _ => True) none (Reporting.runInitializer c : Noting η Report Unit) := by
  refine isLicensed_bind (isLicensed_ask _) fun x ⟨w, built, same⟩ => ?_
  subst same
  cases declared : (w.cls c).initializer? with
  | none => exact isLicensed_pure trivial
  | some m =>
    have own := initializes?_of_initializer built declared
    have once : Exec.AtMost (· = m) 1
        (Exec.releasing (discard (Exec.callMethod m [])) : Exec η Unit) :=
      Exec.atMost_keeping (Exec.atMost_discard (Exec.atMost_callMethod m []))
    have calls : IsLicensed (fun _ => True) (some c)
        (ofExec (Exec.releasing (discard (Exec.callMethod m []))) : Noting η Report Unit) :=
      fun env => (once env).licensed (Nat.le_refl 1) (fun _ d uses => own.symm.trans uses)
        fun _ _ _ => trivial
    refine isLicensed_note_bind rfl trivial (isLicensed_outcome_bind calls fun r => ?_)
    cases r with
    | ok a => exact isLicensed_pure trivial
    | error f =>
      refine isLicensed_note_bind rfl trivial (isLicensed_bind (isLicensed_ask _) fun b _ => ?_)
      cases b <;> exact isLicensed_throw _

theorem isLicensed_answering {c : ClassId} {x : Noting η Report Unit}
    (first : IsLicensed (fun _ => True) none x) :
    IsLicensed (fun _ => True) none (answering c x) :=
  isLicensed_outcome_bind first fun _ =>
    isLicensed_note_bind rfl trivial (isLicensed_conclude fun _ _ => trivial)

theorem isLicensed_requestWithin (n : Nat) (c : ClassId) :
    IsLicensed (fun _ => True) none (requestWithin n c : Noting η Report Unit) := by
  induction n generalizing c with
  | zero => exact isLicensed_pure trivial
  | succ n ih =>
    have asks : IsLicensed (fun _ => True) none
        (ofExec (Exec.requestInit c) : Noting η Report InitDecision) :=
      fun env => isLicensed_await (P := fun _ => True) (fun _ _ _ _ _ => trivial) env
    refine isLicensed_bind asks fun decision _ => ?_
    cases decision with
    | available => exact isLicensed_answering (isLicensed_pure trivial)
    | failed f =>
      exact isLicensed_answering (isLicensed_bind (isLicensed_ask _) fun _ _ => isLicensed_throw _)
    | proceed =>
      refine isLicensed_note_bind rfl trivial
        (isLicensed_outcome_bind (P := fun _ => True) ?_ fun r => ?_)
      · refine isLicensed_bind (isLicensed_ask _) fun x _ => ?_
        cases x.superclass with
        | none => exact isLicensed_runInitializer c
        | some s => exact isLicensed_bind (ih s) fun _ _ => isLicensed_runInitializer c
      · exact isLicensed_bind (isLicensed_act _) fun _ _ =>
          isLicensed_note_bind rfl trivial (isLicensed_conclude fun _ _ => trivial)

theorem isLicensed_request (c : ClassId) :
    IsLicensed (fun _ => True) none (request c : Noting η Report Unit) :=
  fun env => isLicensed_note_bind (n := .asks c env.thread) rfl trivial
    (isLicensed_requestWithin _ c) env

end Reporting

theorem Caller.licensed {Q : α → Prop} {x : Annotated η Report α} (caller : Caller Q x) :
    Licensed Q none x := by
  have none {o : Option ClassId} (nothing : o = none) (c : ClassId) (member : c ∈ o) :
      none = some c := by
    cases nothing
    cases member
  induction caller with
  | done post => exact .done post
  | act _ _ ih => exact .act ih
  | execute other _ ih => exact .execute (none other) ih
  | native other _ ih => exact .native (none other) ih
  | @request c env _ _ ih => exact (Reporting.isLicensed_request c env).bind fun r _ => ih r
  | call calls _ once _ ih =>
    cases calls with
    | invokes named =>
      refine .note nofun named (Licensed.bind (P := fun _ => True) ?_ fun b _ => ih b)
      exact once.licensed (Nat.le_refl 1) (fun _ _ uses => uses) fun _ => trivial
    | constructs =>
      refine .note nofun trivial (Licensed.bind (P := fun _ => True) ?_ fun b _ => ih b)
      exact once.licensed (Nat.le_refl 1) (fun _ _ uses => uses) fun _ => trivial

end ManagedRuntime
