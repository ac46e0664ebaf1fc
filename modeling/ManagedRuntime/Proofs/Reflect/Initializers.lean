import ManagedRuntime.Proofs.Loading.Failures
import ManagedRuntime.Proofs.Reflect.Licences
import ManagedRuntime.Proofs.Reflect.Results
import Mathlib.Data.List.Perm.Subperm

/-!
Initialisers and reflection. Any number of threads ask for classes, use fields reflectively, call
methods and make objects, at positions of their choice. Main statement: a class initialiser is entered
once, and beyond that as often as it is called reflectively; where no position of an initialiser is
given for a method, and none but that of a constructor for a constructor, it is entered once.
-/
namespace ManagedRuntime
variable {η α : Type}

/-- A reflective call gives no position of an initialiser for a method, and none but that of a
constructor for a constructor. -/
def Report.apart : Report → Bool
  | remarks (.invokes n _) => !n.isInitializer
  | remarks (.constructs m) => m.isConstructor
  | _ => true

def Report.callsInitializer : Report → Bool
  | remarks (.invokes _ m) => m.name = "<clinit>"
  | _ => false

def AnnotatedCode.announcing (code : AnnotatedCode η Report) : AnnotatedCode η Report where
  execute m args := do
    Reporting.remark (.enters m)
    code.execute m args
  native f call := do
    Reporting.remark (.enters call.method)
    code.native f call

theorem AnnotatedCode.plain_announcing (code : AnnotatedCode η Report) :
    code.announcing.plain = code.plain := rfl

namespace Moment

def who (σ : Moment η Report) (kind : Report → Option ClassId) (c : ClassId) : List ThreadId :=
  (σ.notes.filter fun n => kind n.2 = some c).map Prod.fst

def entries (σ : Moment η Report) (c : ClassId) : Nat := (σ.who Report.uses? c).length

def reflectiveCalls (σ : Moment η Report) (c : ClassId) : Nat := (σ.who Report.reflects? c).length

def KeptApart (σ : Moment η Report) : Prop := ∀ n ∈ σ.notes, n.2.apart

variable {σ : Moment η Report}

theorem who_noted (t : ThreadId) (n : Report) (kind : Report → Option ClassId) (c : ClassId) :
    (σ.noted t n).who kind c = if kind n = some c then t :: σ.who kind c else σ.who kind c := by
  simp only [who, noted, List.filter_cons, decide_eq_true_eq]
  split <;> rfl

theorem length_grants (c : ClassId) :
    (σ.who Report.grants? c).length ≤
      (σ.who Report.starts? c).length + (σ.who Report.reflects? c).length := by
  simp only [who, List.length_map, ← List.countP_eq_length_filter]
  generalize σ.notes = notes
  induction notes with
  | nil => exact Nat.le_refl 0
  | cons n notes ih =>
    have either (granted : n.2.grants? = some c) :
        n.2.starts? = some c ∨ n.2.reflects? = some c :=
      (Option.or_eq_some_iff.mp granted).imp_right And.right
    simp only [List.countP_cons, decide_eq_true_eq]
    grind

end Moment

namespace Reporting
variable {σ : Moment η Report} {t u : ThreadId} {l : Option ClassId}

def Covers (σ : Moment η Report) (t : ThreadId) (l : Option ClassId) : Prop :=
  ∀ c, (σ.who Report.uses? c).count t + (if l = some c then 1 else 0) ≤
    (σ.who Report.grants? c).count t

theorem Covers.own (covers : Covers σ t l) {n : Report} (covered : ∀ c ∈ n.uses?, l = some c) :
    Covers (σ.noted t n) t n.grants? := by
  intro c
  have before := covers c
  rw [Moment.who_noted, Moment.who_noted]
  by_cases uses : n.uses? = some c
  · rw [if_pos (covered c uses)] at before
    rw [if_pos uses, List.count_cons_self]
    split
    · rw [List.count_cons_self]
      omega
    · omega
  · rw [if_neg uses]
    split
    · rw [List.count_cons_self]
      omega
    · omega

theorem Covers.other (covers : Covers σ u l) (n : Report) (other : u ≠ t) :
    Covers (σ.noted t n) u l := by
  intro c
  have passed (kind : Report → Option ClassId) :
      ((σ.noted t n).who kind c).count u = (σ.who kind c).count u := by
    rw [Moment.who_noted]
    split
    · exact List.count_cons_of_ne (Ne.symm other)
    · rfl
  rw [passed, passed]
  exact covers c

def Solvent (σ : Moment η Report) (t : ThreadId) (x : Annotated η Report Unit) : Prop :=
  ∃ l, Licensed (fun _ => True) l x ∧ Covers σ t l

structure Licit (p : Pool η Report) : Prop where
  named : ∀ n ∈ p.moment.notes, n.2.Named
  solvent : ∀ t, Solvent p.moment t (p.tasks t)

variable {code : AnnotatedCode η Report} {p q : Pool η Report}

theorem Licit.step (licit : Licit p) (callers : code.IsCaller)
    (built : p.moment.world.registry.Built) (step : Pool.Step code.announcing meant t p q) :
    Licit q := by
  obtain ⟨l, licensed, covers⟩ := licit.solvent t
  cases step with
  | @note n next here _ =>
    rw [here] at licensed
    cases licensed with
    | note covered named rest =>
      refine ⟨List.forall_mem_cons.mpr ⟨named, licit.named⟩,
        Pool.forall_goOn (P := Solvent (p.moment.noted t n)) ⟨_, rest, covers.own covered⟩
          fun u other => ?_⟩
      obtain ⟨k, licensed, covers⟩ := licit.solvent u
      exact ⟨k, licensed, covers.other n other⟩
  | @act β env f next b w refs here step =>
    rw [here] at licensed
    cases licensed with
    | act rest =>
      exact ⟨licit.named, Pool.forall_goOn (P := Solvent (p.moment.inWorld w))
        ⟨l, rest (p.moment.world.during _) b w built step, covers⟩ fun u _ => licit.solvent u⟩
  | @execute m args env next here =>
    rw [here] at licensed
    cases licensed with
    | execute covered rest =>
      refine ⟨licit.named, Pool.forall_goOn (P := Solvent p.moment) ⟨l, ?_, covers⟩
        fun u _ => licit.solvent u⟩
      -- the licence covers the remark, and the body goes on without one
      exact .note covered trivial ((callers.execute m args env).licensed.bind fun r _ => rest r)
  | @native f call env next here =>
    rw [here] at licensed
    cases licensed with
    | native covered rest =>
      refine ⟨licit.named, Pool.forall_goOn (P := Solvent p.moment) ⟨l, ?_, covers⟩
        fun u _ => licit.solvent u⟩
      exact .note covered trivial ((callers.native f call env).licensed.bind fun r _ => rest r)

/-- The reports of one class tell of one call of its initialiser at most. -/
theorem Fits.starts_once {c : ClassId} (fits : Fits σ c) : (σ.who Report.starts? c).length ≤ 1 := by
  let starting (n : ThreadId × Report) : Bool := n.2.starts? = some c
  have within (n : ThreadId × Report) : (starting n && n.2.about? = some c) = starting n := by
    obtain ⟨t, n⟩ := n
    cases n <;> simp [starting, Report.starts?, Report.about?]
  have same : (σ.who Report.starts? c).length = ((σ.about c).filter starting).length := by
    rw [Moment.who, List.length_map, Moment.about, List.filter_filter]
    simp only [within]
    rfl
  rw [same]
  cases fits with
  | untouched none _ => simp [none]
  | inHand _ stage =>
    generalize σ.about c = l at stage
    cases stage <;> simp [starting, Report.starts?]
  | finished _ outcome =>
    generalize σ.about c = l at outcome
    cases outcome <;> simp [starting, Report.starts?]
  | received _ about outcome =>
    rw [about]
    cases outcome <;> simp [starting, Report.starts?]

theorem isBystander_announcing (callers : code.IsCaller) : code.announcing.IsBystander where
  execute m args env := .remark (callers.execute m args env).bystander
  native f call env := .remark (callers.native f call env).bystander

open Initialization (Fresh)

theorem licit_of_run (callers : code.IsCaller) (built : p.moment.world.registry.Built)
    (fresh : Fresh p.moment.world.registry) (unnoted : p.moment.notes = [])
    (tasks : ∀ t, Caller (fun _ => True) (p.tasks t)) (run : Pool.Run code.announcing meant p q) :
    Licit q ∧ Sound q.moment := by
  have kept {q : Pool η Report} (run : Pool.Run code.announcing meant p q) : Sound q.moment :=
    (kept_of_run (isBystander_announcing callers) built fresh unnoted
      (fun t => (tasks t).bystander) run).sound
  refine ⟨?_, kept run⟩
  induction run with
  | refl =>
    refine ⟨fun n member => ?_, fun t => ⟨none, (tasks t).licensed, fun c => ?_⟩⟩
    · rw [unnoted] at member
      cases member
    · simp [Moment.who, unnoted]
  | step run step ih => exact ih.step callers (kept run).built step

theorem Licit.entries_le (licit : Licit p) (sound : Sound p.moment) (c : ClassId) :
    p.moment.entries c ≤ 1 + p.moment.reflectiveCalls c := by
  have each (t : ThreadId) : (p.moment.who Report.uses? c).count t ≤
      (p.moment.who Report.grants? c).count t := by
    obtain ⟨l, -, covers⟩ := licit.solvent t
    exact Nat.le_trans (Nat.le_add_right _ _) (covers c)
  calc p.moment.entries c
    _ ≤ (p.moment.who Report.grants? c).length := (List.subperm_iff_count.mpr each).length_le
    _ ≤ (p.moment.who Report.starts? c).length + p.moment.reflectiveCalls c :=
      Moment.length_grants c
    _ ≤ 1 + p.moment.reflectiveCalls c := Nat.add_le_add_right (sound.fits c).starts_once _

theorem Licit.reflectiveCalls_apart (licit : Licit p) (apart : p.moment.KeptApart) (c : ClassId) :
    p.moment.reflectiveCalls c = 0 := by
  have none (n : ThreadId × Report) (noted : n ∈ p.moment.notes) : n.2.reflects? = none := by
    have apart := apart n noted
    have named := licit.named n noted
    obtain ⟨t, n⟩ := n
    cases n with
    | remarks k =>
      cases k with
      | invokes n m =>
        have other : n.isInitializer = false := by simpa [Report.apart] using apart
        exact if_neg fun initializer => by
          simp [Method.isInitializer, ← (show m.name = n.name from named), initializer] at other
      | constructs m =>
        have constructor : m.name = "<init>" := by
          simpa [Report.apart, Method.isConstructor] using apart
        exact if_neg fun initializer => by simp [constructor] at initializer
      | enters m => rfl
    | _ => rfl
  rw [Moment.reflectiveCalls, Moment.who, List.length_map, List.length_eq_zero_iff,
    List.filter_eq_nil_iff]
  intro n noted
  simp [none n noted]

end Reporting

namespace Exec

/-- The steps of a reflective construction: the method at the position and the converted arguments, the
object that is made, and the call of the method on it. -/
inductive Constructs (code : Code η) (rely : World η → World η → Prop) (w : World η) (env : Env)
    (c : ClassId) (slot : Nat) (args : Reference) : ObjectId → World η → Prop
  | intro {x y z v v' s s' u : World η} {m : Method} {values : List Value} {d b : Env} {o : ObjectId}
      {returned : Option Value} (faces : Faces rely w env x)
      (found : (x.cls c).method? slot = some m) (reads : Faces rely x env y)
      (concrete : ((y.cls c).isInterface || (y.cls c).isAbstract) = false)
      (goes : Faces rely y env z)
      (converts : (convertArguments m (y.cls c).loader args).runOn z = (.ok values, v))
      (initialized : Ends code rely v
        ((env.hold (v.madeSince z.heap.objects.size)).hold (Value.objects values))
        (initializeClass c) (.ok ()) d v')
      (makes : Faces rely v' d s) (made : (Atomic.newInstance c).runOn s = (.ok o, s'))
      (called : Ends code rely s' (d.hold (s'.madeSince s.heap.objects.size))
        (callMethod m (.ref (some o) :: values)) (.ok returned) b u) :
      Constructs code rely w env c slot args o u

/-- An object that has been made reflectively is one on which the method at the position has run. -/
theorem Ends.construct {code : Code η} {rely : World η → World η → Prop} {w u : World η}
    {env e : Env} {c : ClassId} {slot : Nat} {args : Reference} {o : ObjectId}
    (ends : Ends code rely w env (Exec.construct c slot args) (.ok o) e u) :
    Constructs code rely w env c slot args o u := by
  obtain ⟨m, d, x, first, rest⟩ := ends.bind_ok
  obtain ⟨faces, found, rfl⟩ := first.methodAt
  obtain ⟨k, d, y, asked, rest⟩ := rest.bind_ok
  obtain ⟨reads, same, rfl⟩ := ends_ask.mp asked
  cases same
  dsimp only at rest
  split at rest
  · cases (ends_throw_bind.mp rest).1
  rename_i concrete
  obtain ⟨values, d, v, passes, rest⟩ := rest.bind_ok
  obtain ⟨z, goes, converts, rfl⟩ := ends_act_iff.mp passes
  rw [hold, ends_modify_bind] at rest
  obtain ⟨_, d, v', initialized, rest⟩ := rest.bind_ok
  obtain ⟨made, d', s', allocates, rest⟩ := rest.bind_ok
  obtain ⟨s, makes, allocated, rfl⟩ := ends_act_iff.mp allocates
  obtain ⟨_, d', u', ran, rest⟩ := rest.bind_ok
  obtain ⟨same, rfl, rfl⟩ := ends_pure.mp rest
  cases same
  obtain ⟨d'', ran, -⟩ := ends_keeping.mp ran
  obtain ⟨q, called, ok⟩ := ends_discard.mp ran
  cases q with
  | error f => cases ok
  | ok returned =>
    exact .intro faces found reads (Bool.eq_false_iff.mpr concrete) goes converts initialized makes
      allocated called.callTarget_ok

end Exec

namespace Reporting
variable {code : AnnotatedCode η Report} {p q : Pool η Report}
open Initialization (Fresh)

/-- After any run a reflective call has run a method of the name of the one at the position, and class
initialisers have been entered once and beyond that as often as they were called reflectively. Where
calls and constructors are kept apart from initialisers no call has run one, and none has been entered
twice. Whatever they are given, requests and the natives of reflected members are callers; without
reports and remarks they are the runtime's own, and so is the code. A constructed object is one on
which the method at the position has run. -/
theorem initializers_kept_apart (callers : code.IsCaller)
    (built : p.moment.world.registry.Built) (fresh : Fresh p.moment.world.registry)
    (unnoted : p.moment.notes = []) (tasks : ∀ t, Caller (fun _ => True) (p.tasks t))
    (run : Pool.Run code.announcing meant p q) :
    (∀ t n m, (t, .remarks (.invokes n m)) ∈ q.moment.notes → m.name = n.name) ∧
      (∀ c, q.moment.entries c ≤ 1 + q.moment.reflectiveCalls c) ∧
      (q.moment.KeptApart →
        (∀ t n m, (t, .remarks (.invokes n m)) ∈ q.moment.notes → m.isInitializer = false) ∧
          ∀ c, q.moment.entries c ≤ 1) ∧
      (∀ c, IsCaller (fun _ => True) (request c : Noting η Report Unit) ∧
        (request c : Noting η Report Unit).plain = Exec.initializeClass c) ∧
      (∀ n call, IsCaller (fun _ => True) (memberNative n call : Noting η Report Nat) ∧
        (memberNative n call : Noting η Report Nat).plain = n.run call) ∧
      code.announcing.plain = code.plain ∧
      ∀ (code : Code η) rely w env c slot args o e u,
        Exec.Ends code rely w env (Exec.construct c slot args) (.ok o) e u →
          Exec.Constructs code rely w env c slot args o u := by
  obtain ⟨licit, sound⟩ := licit_of_run callers built fresh unnoted tasks run
  have named (t : ThreadId) (n m : Method)
      (noted : (t, .remarks (.invokes n m)) ∈ q.moment.notes) : m.name = n.name :=
    licit.named (t, .remarks (.invokes n m)) noted
  refine ⟨named, licit.entries_le sound, fun apart => ⟨fun t n m noted => ?_, fun c => ?_⟩,
    fun c => ⟨isCaller_request c, plain_request c⟩,
    fun n call => ⟨isCaller_memberNative n call, plain_memberNative n call⟩,
    code.plain_announcing, fun _ _ _ _ _ _ _ _ _ _ ends => ends.construct⟩
  · have other : n.isInitializer = false := by simpa [Report.apart] using apart _ noted
    rw [← other]
    simp only [Method.isInitializer, Method.isConstructor, named t n m noted]
  · have entered := licit.entries_le sound c
    rw [licit.reflectiveCalls_apart apart c] at entered
    exact entered

/-! A class with an initialiser and a constructor at the positions 0 and 1, and two ordinary methods,
the first of them static. A thread asks for the class, calls one method and makes an object with
another. -/

def crossing : Registry :=
  let root := (Registry.empty.define (ClassDef.named Registry.rootName).root none).2
  let c := ((((ClassDef.named "C").method "<clinit>" "()V" (.isPublic ||| .isStatic)).method
    "<init>" "()V" .isPublic).method "f" "()V" (.isPublic ||| .isStatic)).method "g" "()V" .isPublic
  (root.define c none).2

theorem built_crossing : crossing.Built := (Registry.Built.empty.define _ _).define _ _

theorem fresh_crossing : Fresh crossing := fresh_of_built built_crossing (by decide +kernel)

def quietCode : AnnotatedCode Unit Report where
  execute _ _ := pure none
  native _ _ := throw .nullReference

theorem isCaller_quietCode : quietCode.IsCaller where
  execute _ _ := isCaller_pure trivial
  native _ _ := isCaller_throw .nullReference

def visit (method constructor : Nat) : Noting Unit Report Unit := do
  request ⟨10⟩
  let _ ← invokeMember ⟨10⟩ method none none
  let _ ← construct ⟨10⟩ constructor none

def visiting (method constructor : Nat) : Pool Unit Report where
  moment := ⟨Boot.initialWorld .silent crossing 0, []⟩
  tasks t := ((visit method constructor).runIn (.new t 8)).bind fun _ => .done ()

theorem caller_visiting (method constructor : Nat) (t : ThreadId) :
    Caller (fun _ => True) ((visiting method constructor).tasks t) := by
  have visits : IsCaller (fun _ => True) (visit method constructor) :=
    isCaller_bind (isCaller_request _) fun _ _ =>
      isCaller_bind (isCaller_invokeMember _ _ _ _) fun _ _ =>
        isCaller_bind (isCaller_construct _ _ _) fun _ _ => isCaller_pure trivial
  exact (visits _).bind fun _ _ => .done trivial

/-- With an ordinary method and a constructor nothing is entered twice, and what has been called
reflectively is no initialiser. -/
theorem entered_once_apart :
    ∃ q, Pool.Run quietCode.announcing meant (visiting 2 1) q ∧ q.moment.entries ⟨10⟩ = 1 ∧
      q.moment.KeptApart ∧
      (∀ t n m, (t, .remarks (.invokes n m)) ∈ q.moment.notes → m.isInitializer = false) ∧
      ∀ c, q.moment.entries c ≤ 1 := by
  have driven : ((visiting 2 1).drive quietCode.announcing meant (List.replicate 35 ⟨0⟩)).map
      (fun q => (q.moment.entries ⟨10⟩, q.moment.notes.all (·.2.apart))) = some (1, true) := by
    decide +kernel
  obtain ⟨q, drove, same⟩ := Option.map_eq_some_iff.mp driven
  obtain ⟨entered, apart⟩ := Prod.mk.inj same
  have run := Pool.run_of_drive drove
  have apart : q.moment.KeptApart := List.all_eq_true.mp apart
  have fresh : Fresh (visiting 2 1).moment.world.registry := fresh_crossing
  obtain ⟨-, -, kept, -⟩ := initializers_kept_apart isCaller_quietCode built_crossing fresh rfl
    (caller_visiting 2 1) run
  exact ⟨q, run, entered, apart, kept apart⟩

/-- Given the position of the class initialiser, a call enters it for the second time; given that of
an ordinary method, an object comes from it. -/
theorem entered_again_by_call :
    (∃ q, Pool.Run quietCode.announcing meant (visiting 0 3) q ∧ q.moment.entries ⟨10⟩ = 2 ∧
      ∃ t n m, (t, .remarks (.invokes n m)) ∈ q.moment.notes ∧ m.name = "<clinit>") ∧
      (∃ m, (crossing.cls ⟨10⟩).method? 3 = some m ∧ m.name = "g") ∧
      ∃ e u, Exec.Ends quietCode.plain Exec.Undisturbed (Boot.initialWorld .silent crossing 0)
        (.new ⟨0⟩ 8) (Exec.construct ⟨10⟩ 3 none) (.ok ⟨0⟩) e u := by
  refine ⟨?_, ?_, ?_⟩
  · have driven : ((visiting 0 3).drive quietCode.announcing meant (List.replicate 35 ⟨0⟩)).map
        (fun q => (q.moment.entries ⟨10⟩, q.moment.notes.any (·.2.callsInitializer))) =
          some (2, true) := by
      decide +kernel
    obtain ⟨q, drove, same⟩ := Option.map_eq_some_iff.mp driven
    obtain ⟨entered, called⟩ := Prod.mk.inj same
    obtain ⟨⟨t, n⟩, noted, call⟩ := List.any_eq_true.mp called
    refine ⟨q, Pool.run_of_drive drove, entered, ?_⟩
    cases n with
    | remarks k =>
      cases k with
      | invokes n m => exact ⟨t, n, m, noted, of_decide_eq_true call⟩
      | _ => cases call
    | _ => cases call
  · have declared : ((crossing.cls ⟨10⟩).method? 3).any (·.name = "g") = true := by decide +kernel
    obtain ⟨m, found, name⟩ := (Option.any_eq_true _ _).mp declared
    exact ⟨m, found, of_decide_eq_true name⟩
  · have ended : (((Exec.construct ⟨10⟩ 3 none : Exec Unit ObjectId).runIn (.new ⟨0⟩ 8)).runAlone
        quietCode.plain 64 (Boot.initialWorld .silent crossing 0)).map (·.1.1) =
          some (.ok ⟨0⟩) := by
      decide +kernel
    exact Exec.exists_ends_of_runAlone Exec.undisturbed_refl ended

end Reporting
end ManagedRuntime
