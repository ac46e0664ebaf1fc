import ManagedRuntime.Proofs.Reflect.Handles
import ManagedRuntime.Proofs.Reflect.Positions

/-!
Enumeration of the members of a class by reflection. While a native lists members, other threads may do
anything but write to the objects that it makes. Main statement: the natives that list members return
handles for the members that they should list, in order, and whoever passes the mirror and the position
from a handle to a native for members has that native work on the member with the name in the handle.
-/
namespace ManagedRuntime
variable {η : Type}

theorem World.Steady.recalls {w u : World η} (steady : w.Steady u) : w.Recalls u :=
  ⟨steady.later, steady.mirrors⟩

namespace Exec
open World
-- only the rules are used here; unfolded, the judgement goes through the task step by step
attribute [local irreducible] Sheltered
variable {w v u : World η} {env : Env} {kind : MemberKind} {c : ClassId} {o mirror : ObjectId}
  {slot : Nat} {y : Member} {call : NativeCall} {publicOnly : Bool}

/-- For the natives that are given a mirror and a position, these designate this member: all that such
a native does, it does as it would with the member. Others have classes stay, and mirrors. -/
def Designates (w : World η) (mirror : ObjectId) (slot : Nat) (y : Member) : Prop :=
  ∀ (code : Code η) (rely : World η → World η → Prop), (∀ x z, rely x z → x.Recalls z) →
    ∀ (n : MemberNative) (call : NativeCall) (prog : Exec η Nat) (env : Env),
      n.on? call y = some prog →
      call.argument? env.stack n.mirrorAt = some (.ref (some mirror)) →
      call.argument? env.stack n.slotAt = some (.int (.ofNat slot)) →
      ∀ r e u, Ends code rely w env (n.run call) r e u ↔ Ends code rely w env prog r e u

theorem designates_of_names (names : w.Names mirror c slot y) (small : slot < 2 ^ 31) :
    Designates w mirror slot y := by
  intro code rely steady n call prog env on mirrorGiven slotGiven r e u
  exact ends_on steady small mirrorGiven slotGiven names on

/-- The array is a new one of handles for the members of class `c` that were to be listed. They all
have the mirror of the class, and with it their positions designate the members they are named after,
then and later. -/
def Enumerates (w : World η) (c : ClassId) (kind : MemberKind) (publicOnly : Bool) (array : ObjectId)
    (u : World η) : Prop :=
  ∃ mirror os, (u.registry.state c).mirror = some mirror ∧ os.Nodup ∧
    u.HoldsRefs w.heap.objects.size array (os.map some) ∧
    List.Forall₂ (fun m o => u.Handle kind mirror m.1 m.2 o) ((w.cls c).members kind publicOnly) os ∧
    ∀ m ∈ (w.cls c).members kind publicOnly, ∃ y, (w.cls c).member? kind m.1 = some y ∧
      y.name = m.2 ∧ ∀ v, u.Recalls v → m.1 < 2 ^ 31 → Designates v mirror m.1 y

/-- In a canonical state without a limit on memory, with the runtime's own class for handles: a native
that lists members of a class that is there has nothing run. The lists are as they should be, and the
native returns handles for what is on its list. -/
theorem members_enumerated (canonical : w.Canonical) (unlimited : w.heap.accounting.maxBytes = 0)
    (builtIn : w.registry.BuiltIn kind) (there : c.index < w.registry.loaded.size)
    (mirrors : (w.heap.get o).mirrored? = some c) (fits : env.stack.size ≤ env.stack.capacity)
    (asked : call.argument? env.stack 0 = some (.ref (some o)))
    (filter : call.argument? env.stack 1 = some (.boolean publicOnly)) :
    (w.cls c).Enumerated ∧
      Sheltered SparesOwn [] w env (kind.lister.run call) fun r _ d u =>
        ∃ array, Returned call env.stack array r d ∧ w.Steady u ∧
          Enumerates w c kind publicOnly array u := by
  have enumerated : (w.cls c).Enumerated := canonical.built.enumerated c
  refine ⟨enumerated, ?_⟩
  obtain ⟨k, start, layout⟩ := builtIn.layout
  rw [run_lister]
  unfold memberArray
  have ready : w.Ready kind k start := ⟨canonical, unlimited, layout⟩
  refine (furnishes_classArg canonical asked mirrors).next
    fun c' own d₁ v₁ stack₁ more spares₁ same => ?_
  subst same
  rw [← stack₁] at filter
  refine (furnishes_booleanArg filter).next fun b _ d₂ v₂ stack₂ _ spares₂ same => ?_
  subst same
  have before := spares₁.toSteady.trans spares₂.toSteady
  have class_same : v₂.cls c' = w.cls c' := before.later.cls c' there
  refine (furnishes_declaredMembers (ready.steady before)
    (Nat.lt_of_lt_of_le there before.later.size) b).next
    fun array _ d₃ v₃ stack₃ _ spares₃ made => ?_
  obtain ⟨mirror, os, record, distinct, ⟨fresh, refs⟩, each⟩ := made
  have whole := before.trans spares₃.toSteady
  have ready := ready.steady whole
  have stack := (stack₃.trans stack₂).trans stack₁
  rw [class_same] at each
  rw [← stack] at fits asked ⊢
  have finishes : Unaided (fun _ _ => True) (fun _ _ => True) v₃ d₃ (finishRef call (some array))
      fun r e u => Returned call d₃.stack array r e ∧ u = v₃ :=
    unaided_finishRef (base_lt_of_argument asked) fits fun r e returned => ⟨returned, rfl⟩
  refine (finishes.sheltered fun _ _ _ _ _ => trivial).weaken fun r _ e u comes => ?_
  obtain ⟨-, returned, rfl⟩ := comes
  refine ⟨array, returned, whole, mirror, os, record, distinct,
    ⟨Nat.le_trans before.size fresh, refs⟩, each.imp fun _ _ handed => handed.handle ready,
    fun ⟨slot, name⟩ listed => ?_⟩
  obtain ⟨y, here, named⟩ := enumerated.named kind b slot name listed
  refine ⟨y, here, named, fun v recalls small => designates_of_names (c := c') ?_ small⟩
  have names : World.Names u mirror c' slot y := by
    refine ⟨ready.canonical.mirrors c' mirror record,
      Nat.lt_of_lt_of_le there whole.later.size, ?_⟩
    rw [World.cls, whole.later.cls c' there]
    exact Class.has_of_member? here
  exact names.recalled recalls

/-! A class with methods of one name, one of them private, an initialiser and a constructor. -/

def shape : ClassDef :=
  (((((ClassDef.named "t/Shape").method "<clinit>" "()V" .isStatic).method "<init>" "()V"
    .isPublic).method "area" "()I" .isPublic).method "area" "(I)I" .isPrivate).method "scale" "(I)V"
    .isPublic

def shapeClasses : List ClassDef :=
  (Universe.definitions.filter (·.name ∈ Universe.required)).map (fun d =>
    if d.name = MemberKind.method.className then d else { d with methods := [] }) ++ [shape]

def HasShape (r : Registry) : Bool := decide (
  (∀ name ∈ Universe.required, (r.find? name none).isSome = true) ∧ 21 < r.loaded.size ∧
    (r.cls ⟨21⟩).members .method true = [(2, "area"), (4, "scale")])

def listMethod : Method :=
  ⟨⟨9⟩, "java/lang/VMClass", "getDeclaredMethods",
    "(Ljava/lang/Class;Z)[Ljava/lang/reflect/Method;",
    ⟨[.object "java/lang/Class", .primitive .boolean],
      some (.array (.object "java/lang/reflect/Method"))⟩, .isStatic ||| .isNative, 0⟩

theorem shape_methods_listed :
    ∃ (w : World Unit) (o : ObjectId) (c : ClassId), w.Canonical ∧
      w.heap.accounting.maxBytes = 0 ∧ w.registry.BuiltIn .method ∧
      c.index < w.registry.loaded.size ∧ (w.heap.get o).mirrored? = some c ∧
      ∃ r e u, Ends noCode Undisturbed w (calling #[.ref (some o), .int 1])
          (ClassNative.getDeclaredMethods.run ⟨listMethod, 0⟩) r e u ∧
        ∃ array first second, e.stack.pop = .ok (.ref (some array), .empty 8) ∧
          u.HoldsRefs 0 array [some first, some second] ∧ first ≠ second ∧
          u.Handle .method o 2 "area" first ∧ u.Handle .method o 4 "scale" second ∧
          ∃ y, (w.cls c).member? .method 4 = some y ∧ y.name = "scale" ∧ Designates u o 4 y := by
  have loaded : (Boot.defineCore .bootstrap shapeClasses .empty).toOption.map HasShape = some true := by
    decide +kernel
  obtain ⟨r, defined, has⟩ := Option.map_eq_some_iff.mp loaded
  obtain ⟨required, there, listed⟩ := of_decide_eq_true has
  have core : Boot.defineCore .bootstrap shapeClasses .empty = .ok r := by
    cases given : Boot.defineCore .bootstrap shapeClasses .empty with
    | error f =>
      rw [given] at defined
      cases defined
    | ok r' =>
      rw [given] at defined
      cases defined
      rfl
  let start : World Unit := Boot.initialWorld .silent r 0
  have bare := Boot.unmirrored_defineCore .empty Registry.unmirrored_empty core
  have canonical : start.Canonical :=
    ⟨Boot.built_defineCore .empty core, fun c o mirror => (nomatch (bare c).symm.trans mirror), nofun,
      fun name member => Option.isSome_iff_exists.mp (required name member)⟩
  have builtIn : start.registry.BuiltIn .method := by
    let d := ((Universe.definitions.find? (·.name = MemberKind.method.className)).getD shape)
    have facts : d ∈ Universe.definitions ∧ d ∈ shapeClasses ∧
        d.name = MemberKind.method.className := by decide +kernel
    exact ⟨d, facts.1, facts.2.2, (Boot.defined_defineCore .empty core).made d facts.2.1⟩
  obtain ⟨o, w, -, spares, record⟩ :=
    Atomic.mirror_spares [] canonical (rfl : start.heap.accounting.maxBytes = 0) there
  have canonical := spares.canonical canonical
  have same : w.cls ⟨21⟩ = r.cls ⟨21⟩ := spares.later.cls ⟨21⟩ there
  have there := Nat.lt_of_lt_of_le there spares.later.size
  have mirrors := canonical.mirrors ⟨21⟩ o record
  have builtIn : w.registry.BuiltIn .method := by
    obtain ⟨d, member, named, k, made⟩ := builtIn
    exact ⟨d, member, named, k, made.later spares.later⟩
  refine ⟨w, o, ⟨21⟩, canonical, spares.limit, builtIn, there, mirrors, ?_⟩
  have asked : NativeCall.argument? ⟨listMethod, 0⟩ (calling #[.ref (some o), .int 1]).stack 0 =
      some (.ref (some o)) := rfl
  have filter : NativeCall.argument? ⟨listMethod, 0⟩ (calling #[.ref (some o), .int 1]).stack 1 =
      some (.boolean true) := rfl
  have fits : (calling #[.ref (some o), .int 1]).stack.size ≤ 8 := (by decide : 2 ≤ 8)
  obtain ⟨-, lists⟩ := members_enumerated canonical spares.limit builtIn there mirrors fits asked filter
  have unaided := lists.unaided fun _ x y (same : Undisturbed x y) => same ▸ .refl y
  have ends := unaided.ends undisturbed_refl (fun first second => second.trans first) noCode
  obtain ⟨r, e, u, ended⟩ := ends.ends
  obtain ⟨-, array, returned, steady, mirror, os, record', distinct, refs, each, usable⟩ :=
    ends.each r e u ended
  refine ⟨r, e, u, ended, array, ?_⟩
  cases (steady.records _ _ record).symm.trans record'
  rw [same, listed] at each usable
  obtain ⟨y, here, named, designates⟩ := usable (4, "scale") (by decide)
  cases each with
  | cons first each =>
    cases each with
    | cons second each =>
      cases each
      refine ⟨_, _, returned.result, ⟨Nat.zero_le _, refs.2⟩, by simpa using distinct, first, second,
        y, same ▸ here, named, designates u (Steady.refl u).recalls (by decide)⟩

end Exec
end ManagedRuntime
