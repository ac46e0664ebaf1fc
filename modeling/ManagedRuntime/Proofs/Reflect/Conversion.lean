import ManagedRuntime.Boot.Basic
import ManagedRuntime.Proofs.Class.ByName
import ManagedRuntime.Proofs.Execution.Orderly
import ManagedRuntime.Proofs.World.Running
import ManagedRuntime.Reflect.Invocation
import Mathlib.Control.Monad.Basic

/-!
Which objects reflection accepts for a reference type. A class that the caller supplies under the
name of the type decides; without one an object is accepted for the class that the loader sees and
for every type that it has by name. Main statement: this holds for every reflective store and for
every argument of a reflective call.
-/
namespace ManagedRuntime

namespace Registry

def inScope (r : Registry) (name : String) (loader : Reference) : Option ClassId × Registry :=
  if isArrayName name then r.arrayClass name loader
  else
    match r.find? name loader with
    | some c => (some c, r)
    | none => r.findBootstrap name

theorem inScope_widens {r : Registry} (ordered : r.Ordered) (name : String) (loader : Reference) :
    Widens r (r.inScope name loader).2 := by
  unfold inScope
  split
  · exact (arrayClass_leads ordered.primitives name loader).1
  · split
    · exact .refl
    · exact (findLoaded_leads ordered.primitives name none).1

theorem inScope_extends {r : Registry} (ordered : r.Ordered) (name : String) (loader : Reference) :
    Extends r (r.inScope name loader).2 := (inScope_widens ordered name loader).extends ordered

/-- Is an object of class `c` accepted for the type called `name`? -/
def Accepts (r : Registry) (c : ClassId) (name : String) (given : Option ClassId)
    (loader : Reference) : Prop :=
  (∃ k, given = some k ∧ (r.cls k).name = name ∧ r.assignable c k = true) ∨
    (∀ k, given = some k → (r.cls k).name ≠ name) ∧
      ((∃ k, (r.inScope name loader).1 = some k ∧
          (r.inScope name loader).2.assignable c k = true) ∨
        (r.inScope name loader).2.NamedAs c name)

end Registry

namespace Atomic
variable {η : Type} {w : World η}

theorem isOfType_runOn (ordered : w.registry.Ordered) (o : ObjectId) (name : String)
    (given : Option ClassId) (loader : Reference) :
    ∃ b w', (isOfType o name given loader).runOn w = (.ok b, w') ∧
      (b = true ↔ w.registry.Accepts (w.classOf o) name given loader) ∧
      w'.heap = w.heap ∧ w.registry.Extends w'.registry := by
  unfold isOfType
  rw [runOn_get_bind]
  cases supplied : given.filter fun c => (w.cls c).name == name with
  | some k =>
    obtain ⟨rfl, same⟩ := Option.filter_eq_some_iff.mp supplied
    have named : (w.registry.cls k).name = name := beq_iff_eq.mp same
    refine ⟨_, w, rfl, ⟨fun accepted => .inl ⟨k, rfl, named, accepted⟩, ?_⟩, rfl, .refl ordered⟩
    rintro (⟨_, ⟨⟩, -, accepted⟩ | ⟨others, -⟩)
    · exact accepted
    · exact absurd named (others k rfl)
  | none =>
    have others (k : ClassId) (same : given = some k) : (w.registry.cls k).name ≠ name := by
      rw [Option.filter_eq_none_iff] at supplied
      exact fun named => supplied k same (beq_iff_eq.mpr named)
    have extended := Registry.inScope_extends ordered name loader
    let seen := w.registry.inScope name loader
    refine ⟨(match seen.1 with
        | some k => seen.2.assignable (w.classOf o) k
        | none => false) || seen.2.subtypeNamed (w.classOf o) name,
      { w with registry := seen.2 }, rfl, ?_, rfl, extended⟩
    rw [Bool.or_eq_true, Registry.subtypeNamed_iff extended.ordered]
    constructor
    · rintro (assignable | named)
      · split at assignable
        · rename_i k found
          exact .inr ⟨others, .inl ⟨k, found, assignable⟩⟩
        · cases assignable
      · exact .inr ⟨others, .inr named⟩
    · rintro (⟨k, same, named, -⟩ | ⟨-, ⟨k, found, assignable⟩ | named⟩)
      · exact absurd named (others k same)
      · left
        rw [show seen.1 = some k from found]
        exact assignable
      · exact .inr named

theorem convert_runOn (ordered : w.registry.Ordered) (o : ObjectId) {target : FieldType}
    (reference : target.primitive? = none) (given : Option ClassId) (loader : Reference)
    (mismatch : Failure) :
    ∃ w', w'.heap = w.heap ∧ w.registry.Extends w'.registry ∧
      (w.registry.Accepts (w.classOf o) target.className given loader ∧
          (convert (some o) target given loader mismatch).runOn w = (.ok (.ref (some o)), w') ∨
        ¬ w.registry.Accepts (w.classOf o) target.className given loader ∧
          (convert (some o) target given loader mismatch).runOn w = (.error mismatch, w')) := by
  obtain ⟨b, w', ran, accepts, heap, extended⟩ :=
    isOfType_runOn ordered o target.className given loader
  refine ⟨w', heap, extended, ?_⟩
  unfold convert
  rw [reference]
  simp only
  rw [runOn_bind, ran]
  cases b with
  | true => exact .inl ⟨accepts.mp rfl, rfl⟩
  | false => exact .inr ⟨fun accepted => Bool.noConfusion (accepts.mpr accepted), rfl⟩

/-- A conversion leaves the heap alone and loads at most array classes. -/
theorem convert_extends (ordered : w.registry.Ordered) (arg : Reference) (target : FieldType)
    (given : Option ClassId) (loader : Reference) (mismatch : Failure) :
    let after := ((convert arg target given loader mismatch).runOn w).2
    after.heap = w.heap ∧ w.registry.Extends after.registry := by
  cases reference : target.primitive? with
  | some p =>
    unfold convert
    rw [reference]
    simp only [runOn_get_bind]
    split <;> exact ⟨rfl, .refl ordered⟩
  | none =>
    cases arg with
    | none =>
      unfold convert
      rw [reference]
      exact ⟨rfl, .refl ordered⟩
    | some o =>
      obtain ⟨w', heap, extended, ⟨-, ran⟩ | ⟨-, ran⟩⟩ :=
        convert_runOn ordered o reference given loader mismatch
      · simp only [ran]
        exact ⟨heap, extended⟩
      · simp only [ran]
        exact ⟨heap, extended⟩

theorem mapM_convert {args : List (Reference × FieldType)} {loader : Reference}
    {mismatch : Failure} {values : List Value} {w' : World η} (ordered : w.registry.Ordered)
    (ran : (args.mapM fun a => convert a.1 a.2 none loader mismatch).runOn w = (.ok values, w')) :
    w'.heap = w.heap ∧ w.registry.Extends w'.registry ∧
      ∀ o type, (some o, type) ∈ args → type.primitive? = none →
        ∃ r, w.registry.Extends r ∧ r.Extends w'.registry ∧
          r.Accepts (w.classOf o) type.className none loader := by
  induction args generalizing w values with
  | nil =>
    cases ran
    exact ⟨rfl, .refl ordered, by simp⟩
  | cons a rest ih =>
    rw [List.mapM_cons] at ran
    obtain ⟨v, u, first, ran⟩ := runOn_bind_eq_ok.mp ran
    obtain ⟨vs, u', others, ended⟩ := runOn_bind_eq_ok.mp ran
    cases ended
    obtain ⟨heap, extended⟩ := convert_extends ordered a.1 a.2 none loader mismatch
    rw [first] at heap extended
    obtain ⟨heap', extended', accepts⟩ := ih extended.ordered others
    refine ⟨heap'.trans heap, extended.trans extended', fun o type member reference => ?_⟩
    rcases List.mem_cons.mp member with same | later
    · subst same
      obtain ⟨u'', -, -, ⟨accepted, -⟩ | ⟨-, refused⟩⟩ :=
        convert_runOn ordered o reference none loader mismatch
      · exact ⟨w.registry, .refl ordered, extended.trans extended', accepted⟩
      · rw [refused] at first
        cases first
    · obtain ⟨r, further, before, accepted⟩ := accepts o type later reference
      have sameClass : u.classOf o = w.classOf o := congrArg (·.classOf o) heap
      rw [sameClass] at accepted
      exact ⟨r, extended.trans further, before, accepted⟩

end Atomic

namespace Exec
open Atomic
variable {η : Type}

theorem argumentRefs_world {w w' : World η} {args : Reference} {refs : List Reference}
    (read : (argumentRefs args).runOn w = (.ok refs, w')) : w' = w := by
  unfold argumentRefs at read
  cases args with
  | none =>
    cases read
    rfl
  | some o =>
    simp only [runOn_get_bind] at read
    split at read <;> cases read
    rfl

theorem convertArguments_accepts {w w' : World η} {m : Method} {loader args : Reference}
    {values : List Value} (ordered : w.registry.Ordered)
    (ran : (convertArguments m loader args).runOn w = (.ok values, w')) :
    ∃ refs, (argumentRefs args).runOn w = (.ok refs, w) ∧ refs.length = m.type.params.length ∧
      ∀ o type, (some o, type) ∈ refs.zip m.type.params → type.primitive? = none →
        ∃ r, w.registry.Extends r ∧ r.Extends w'.registry ∧
          r.Accepts (w.classOf o) type.className none loader := by
  obtain ⟨refs, u, read, ran⟩ := runOn_bind_eq_ok.mp ran
  cases argumentRefs_world read
  refine ⟨refs, read, ?_⟩
  by_cases count : refs.length = m.type.params.length
  · rw [if_neg (by simpa using count)] at ran
    exact ⟨count, (mapM_convert ordered ran).2.2⟩
  · rw [if_pos count] at ran
    cases ran

variable {code : Code η} {rely : World η → World η → Prop} {w u : World η} {env e : Env}

theorem Faces.known {c : ClassId} {C : Class} {x : World η}
    (reached : ∀ w x, rely w x → x.registry.Built ∧ x.cls c = C) (faces : Faces rely w env x) :
    x.registry.Built ∧ x.cls c = C := by
  obtain ⟨y, refs, change, rfl⟩ := faces
  exact reached w y change

theorem Ends.locateField {c : ClassId} {C : Class} {slot : Nat} {receiver : Reference}
    {p : FieldPlace} (reached : ∀ w x, rely w x → x.registry.Built ∧ x.cls c = C)
    (ends : Ends code rely w env (locateField c slot receiver) (.ok p) e u) :
    C.field? slot = some p.field := by
  obtain ⟨x, d, v, read, rest⟩ := ends.bind_ok
  obtain ⟨faces, same, -⟩ := ends_ask.mp read
  cases same
  rw [(faces.known reached).2] at rest
  cases found : C.field? slot with
  | none =>
    rw [found] at rest
    cases (ends_throw.mp rest).1
  | some f =>
    rw [found] at rest
    simp only at rest
    split at rest
    · obtain ⟨_, d, v, -, rest⟩ := rest.bind_ok
      cases (ends_pure.mp rest).1
      rfl
    · obtain ⟨o, d, v, -, rest⟩ := rest.bind_ok
      cases (ends_pure.mp rest).1
      rfl

/-- The field is looked up, the object is converted in a state `x`, and what came out is written. -/
theorem Ends.setField {c : ClassId} {C : Class} {slot : Nat} {receiver : Reference}
    {given : Option ClassId} {o : ObjectId}
    (reached : ∀ w x, rely w x → x.registry.Built ∧ x.cls c = C)
    (ends : Ends code rely w env (setField c slot receiver given (some o)) (.ok ()) e u) :
    ∃ p d v y x x' value, Ends code rely w env (Exec.locateField c slot receiver) (.ok p) d v ∧
      C.field? slot = some p.field ∧ Faces rely v d y ∧ Faces rely y d x ∧
      (convert (some o) p.field.type given C.loader .fieldTypeMismatch).runOn x = (.ok value, x') ∧
      Ends code rely x' d (act (writePlace p value)) (.ok ()) e u := by
  obtain ⟨p, d₀, v, located, rest⟩ := ends.bind_ok
  obtain ⟨loader, d, y, read, rest⟩ := rest.bind_ok
  obtain ⟨seen, same, rfl⟩ := ends_ask.mp read
  obtain rfl : loader = C.loader := by
    cases same
    exact congrArg Class.loader (seen.known reached).2
  obtain ⟨value, d', x', converted, written⟩ := rest.bind_ok
  have heap (x : World η) (faces : Faces rely y d x) :=
    (convert_extends (faces.known reached).1.ordered (some o) p.field.type given C.loader
      .fieldTypeMismatch).1
  obtain ⟨x, faces, ran, rfl⟩ := (ends_unmaking heap).mp converted
  exact ⟨p, _, v, y, x, x', value, located, located.locateField reached, seen, faces, ran, written⟩

/-- An object is accepted for a reference type by the class that the caller supplies under its
name, or else by the class that the loader sees and by the names of its own types; so are the object
that a store writes into a field of class `C` and the arguments of a call of one of its methods. The
state `x` is the one in which the store converts the object that it then writes. -/
theorem reflection_accepts {c : ClassId} {C : Class}
    (reached : ∀ w x, rely w x → x.registry.Built ∧ x.cls c = C) :
    (∀ (w : World η) o target given mismatch, w.registry.Built → target.primitive? = none →
      ((∃ w', (convert (some o) target given C.loader mismatch).runOn w =
          (.ok (.ref (some o)), w')) ↔
        w.registry.Accepts (w.classOf o) target.className given C.loader)) ∧
    (∀ w env slot receiver given o e u,
      Ends code rely w env (Exec.setField c slot receiver given (some o)) (.ok ()) e u →
      ∃ p d v y x x' value, Ends code rely w env (Exec.locateField c slot receiver) (.ok p) d v ∧
        C.field? slot = some p.field ∧ Faces rely v d y ∧ Faces rely y d x ∧
        x.registry.Built ∧ x.cls c = C ∧
        (convert (some o) p.field.type given C.loader .fieldTypeMismatch).runOn x =
          (.ok value, x') ∧
        Ends code rely x' d (act (writePlace p value)) (.ok ()) e u ∧
        (p.field.type.primitive? = none → value = .ref (some o) ∧
          x.registry.Accepts (x.classOf o) p.field.type.className given C.loader)) ∧
    ∀ (w : World η) w' m args values, w.registry.Built →
      (convertArguments m C.loader args).runOn w = (.ok values, w') →
      ∃ refs, (argumentRefs args).runOn w = (.ok refs, w) ∧ refs.length = m.type.params.length ∧
        ∀ o type, (some o, type) ∈ refs.zip m.type.params → type.primitive? = none →
          ∃ r, w.registry.Extends r ∧ r.Extends w'.registry ∧
            r.Accepts (w.classOf o) type.className none C.loader := by
  refine ⟨fun w o target given mismatch built reference => ?_, ?_, ?_⟩
  · obtain ⟨w', -, -, ⟨accepted, ran⟩ | ⟨refused, ran⟩⟩ :=
      convert_runOn built.ordered o reference given C.loader mismatch
    · exact ⟨fun _ => accepted, fun _ => ⟨w', ran⟩⟩
    · refine ⟨fun ⟨v, same⟩ => ?_, fun accepted => absurd accepted refused⟩
      rw [ran] at same
      cases same
  · intro w env slot receiver given o e u ends
    obtain ⟨p, d, v, y, x, x', value, located, found, seen, faces, ran, written⟩ :=
      ends.setField reached
    obtain ⟨built, isC⟩ := faces.known reached
    refine ⟨p, d, v, y, x, x', value, located, found, seen, faces, built, isC, ran, written,
      fun reference => ?_⟩
    obtain ⟨w', -, -, ⟨accepted, passed⟩ | ⟨-, refused⟩⟩ :=
      convert_runOn built.ordered o reference given C.loader .fieldTypeMismatch
    · rw [passed] at ran
      cases ran
      exact ⟨rfl, accepted⟩
    · rw [refused] at ran
      cases ran
  · exact fun w w' m args values built ran => convertArguments_accepts built.ordered ran

/-! Two classes of one name. -/

def namesakes : Registry :=
  let root := (Registry.empty.define (ClassDef.named Registry.rootName).root none).2
  let first := (root.define (.named "P") none).2
  let second := (first.define (.named "P") (some ⟨0⟩)).2
  (second.define ((ClassDef.named "C").field "p" "LP;" .isPublic) (some ⟨0⟩)).2

theorem built_namesakes : namesakes.Built := by
  unfold namesakes
  exact (((Registry.Built.empty.define _ _).define _ _).define _ _).define _ _

def namesakeWorld : World Unit :=
  { Boot.initialWorld .silent namesakes 0 with
    heap := { Heap.empty 0 0 with objects := #[
      { cls := ⟨9⟩, fields := #[], payload := .plain },
      { cls := ⟨10⟩, fields := #[], payload := .plain },
      { cls := ⟨12⟩, fields := #[.ref none], payload := .plain }] } }

theorem sane_namesakeWorld : namesakeWorld.Sane where
  built := built_namesakes
  objects o := by
    rw [show namesakeWorld.registry.loaded.size = 13 by decide +kernel]
    obtain ⟨_ | _ | _ | n⟩ := o
    · exact (by decide : 9 < 13)
    · exact (by decide : 10 < 13)
    · exact (by decide : 12 < 13)
    · exact (by decide : 0 < 13)
  mirrors o c found := by
    obtain ⟨_ | _ | _ | n⟩ := o <;> cases found

def noCode : Code Unit where
  execute m _ := throw (.noCode m.text)
  native _ call := throw (.unbound call.method.text)

theorem orderly_noCode : noCode.Orderly where
  execute _ _ _ _ := tracks_orderly.throw _
  native _ _ _ := tracks_orderly.throw _

/-- The store of an object of the first `P` succeeds although the field's type is the second. -/
theorem namesake_stored :
    namesakes.Built ∧
      (∃ e u, Ends noCode (fun _ _ => True) namesakeWorld (.new ⟨0⟩ 8)
        (Exec.setField ⟨12⟩ 0 (some ⟨2⟩) none (some ⟨1⟩)) (.ok ()) e u) ∧
      ∃ k, (namesakes.inScope "P" (namesakes.cls ⟨12⟩).loader).1 = some k ∧
        namesakes.assignable (namesakeWorld.classOf ⟨1⟩) k = false := by
  refine ⟨built_namesakes, ?_, ⟨11⟩, by decide +kernel, by decide +kernel⟩
  let ended := Machine.run noCode (fun _ => .done ()) 8
    ((Exec.setField ⟨12⟩ 0 (some ⟨2⟩) none (some ⟨1⟩)).runIn (.new ⟨0⟩ 8)) ⟨namesakeWorld, []⟩
  have result : ended.map (·.1.1) = some (.ok ()) := by decide +kernel
  obtain ⟨⟨⟨r, e⟩, n⟩, run, same⟩ := Option.map_eq_some_iff.mp result
  cases same
  exact ⟨e, n.world, Machine.runs_of_run run⟩

def namesakeRely (_ x : World Unit) : Prop := x.Sane ∧ Registry.Later namesakes x.registry

/-- The conversion accepts the object, and the store has found it accepted. -/
theorem namesake_accepted :
    namesakes.Built ∧ (FieldType.object "P").primitive? = none ∧
      (∃ w', (convert (some ⟨1⟩) (.object "P") none (namesakes.cls ⟨12⟩).loader
        .fieldTypeMismatch).runOn namesakeWorld = (.ok (.ref (some ⟨1⟩)), w')) ∧
      ∃ e u, Ends noCode namesakeRely namesakeWorld (.new ⟨0⟩ 8)
          (Exec.setField ⟨12⟩ 0 (some ⟨2⟩) none (some ⟨1⟩)) (.ok ()) e u ∧
        ∃ x : World Unit, x.registry.Built ∧
          x.registry.Accepts (x.classOf ⟨1⟩) "P" none (namesakes.cls ⟨12⟩).loader := by
  have reached (w x : World Unit) (change : namesakeRely w x) :
      x.registry.Built ∧ x.cls ⟨12⟩ = namesakes.cls ⟨12⟩ :=
    ⟨change.1.built, change.2.cls ⟨12⟩ (by decide +kernel)⟩
  have accepts := @reflection_accepts Unit noCode namesakeRely _ _ reached
  have stored : (((Exec.setField ⟨12⟩ 0 (some ⟨2⟩) none (some ⟨1⟩)).runIn (.new ⟨0⟩ 8)).runAlone
      noCode 8 namesakeWorld).map (·.1.1) = some (.ok ()) := by decide +kernel
  obtain ⟨⟨⟨r, e⟩, u⟩, run, same⟩ := Option.map_eq_some_iff.mp stored
  cases same
  have ends : Ends noCode namesakeRely _ _ _ _ e u := (tracks_orderly.setField orderly_callMethod
    ⟨12⟩ 0 (some ⟨2⟩) none (some ⟨1⟩)).ends orderly_noCode .nil sane_namesakeWorld run
  refine ⟨built_namesakes, rfl, (accepts.1 namesakeWorld ⟨1⟩ (.object "P") none .fieldTypeMismatch
    built_namesakes rfl).mpr (.inr ⟨by simp, .inr (.here (by decide +kernel))⟩), e, u, ends, ?_⟩
  obtain ⟨p, d, v, y, x, x', value, -, found, -, -, built, -, -, -, accepted⟩ :=
    accepts.2.1 _ _ _ _ _ _ _ _ ends
  have declared : ((namesakes.cls ⟨12⟩).field? 0).map (·.type) = some (.object "P") := by
    decide +kernel
  rw [found, Option.map_some, Option.some.injEq] at declared
  rw [declared] at accepted
  exact ⟨x, built, (accepted rfl).2⟩

end Exec
end ManagedRuntime
