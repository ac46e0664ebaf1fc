import ManagedRuntime.Proofs.Loading.Clients
import ManagedRuntime.Proofs.Reflect.Conversion
import ManagedRuntime.Proofs.World.Changes

/-!
Actions that mind the initialisation of classes: where operations on the registry have made the
classes, they leave the phases of classes alone, and objects keep their classes. Main statement: what
the programs of reflection do by themselves is of this kind.
-/
namespace ManagedRuntime
variable {η α β : Type}

namespace Registry
variable {r r' r'' : Registry}

theorem Quiet.trans (first : Quiet r r') (second : Quiet r' r'') : Quiet r r'' where
  ordered ordered := second.ordered (first.ordered ordered)
  size := Nat.le_trans first.size second.size
  cls c there := (second.cls c (Nat.lt_of_lt_of_le there first.size)).trans (first.cls c there)
  phase c there := (second.phase c (Nat.lt_of_lt_of_le there first.size)).trans (first.phase c there)
  added c outside there := by
    by_cases known : c.index < r'.loaded.size
    · rw [second.phase c known, second.cls c known]
      exact first.added c outside known
    · exact second.added c (Nat.le_of_not_lt known) there

theorem Quiet.add (x : Class) (ordered : r.Ordered → (r.add x).2.Ordered) :
    Quiet r (r.add x).2 where
  ordered := ordered
  size := by rw [size_add]; omega
  cls c there := cls_add_before (by omega)
  phase c there := by rw [state_add, if_neg (by omega)]
  added c outside there := by
    rw [size_add] at there
    have last : c.index = r.loaded.size := by omega
    rw [state_add, if_pos last, cls_add_last last]

theorem Widens.quiet (widens : Widens r r') (ordered : r.Ordered) : Quiet r r' := by
  induction widens with
  | refl => exact .refl r
  | array widens there new ih =>
    refine ih.trans (.add _ fun _ => ?_)
    exact ((Widens.array widens there new).extends ordered).ordered

end Registry

namespace World
open Registry

structure Spares (w v : World η) : Prop where
  quiet : w.registry.Quiet v.registry
  objects : w.heap.objects.size ≤ v.heap.objects.size
  classOf : ∀ o : ObjectId, o.index < w.heap.objects.size → v.classOf o = w.classOf o

variable {w v u : World η}

theorem Spares.refl (w : World η) : w.Spares w := ⟨.refl _, Nat.le_refl _, fun _ _ => rfl⟩

theorem Spares.trans (first : w.Spares v) (second : v.Spares u) : w.Spares u where
  quiet := first.quiet.trans second.quiet
  objects := Nat.le_trans first.objects second.objects
  classOf o made := (second.classOf o (Nat.lt_of_lt_of_le made first.objects)).trans
    (first.classOf o made)

/-- Where operations on the registry have made the classes they still have, and phases and objects
have been spared. -/
def Minds (w v : World η) : Prop := w.registry.Built → v.registry.Built ∧ w.Spares v

theorem Minds.refl (w : World η) : w.Minds w := fun built => ⟨built, .refl w⟩

theorem Minds.trans (first : w.Minds v) (second : v.Minds u) : w.Minds u := fun built =>
  have before := first built
  have after := second before.1
  ⟨after.1, before.2.trans after.2⟩

theorem Minds.widens {r : Registry} (widens : w.registry.Built → Widens w.registry r) :
    w.Minds { w with registry := r } := fun built =>
  ⟨(widens built).built built, (widens built).quiet built.ordered, Nat.le_refl _, fun _ _ => rfl⟩

theorem Minds.modifyState {c : ClassId} {f : ClassState → ClassState}
    (keeps : ∀ s, (f s).phase = s.phase) :
    w.Minds { w with registry := w.registry.modifyState c f } := fun built =>
  ⟨built.modifyState c f, .modifyState (keeps _), Nat.le_refl _, fun _ _ => rfl⟩

theorem Minds.heap {heap : Heap} (objects : w.heap.objects.size ≤ heap.objects.size)
    (cls : ∀ o : ObjectId, o.index < w.heap.objects.size →
      (heap.get o).cls = (w.heap.get o).cls) :
    w.Minds { w with heap } := fun built => ⟨built, .refl _, objects, cls⟩

end World

/-! Atomic actions. -/

namespace Atomic
open Registry World

theorem minds_pure (a : α) : (pure a : Atomic η α).Within Minds := Minds.refl

theorem minds_throw (f : Failure) : (throw f : Atomic η α).Within Minds := Minds.refl

theorem minds_ask (f : World η → α) : (ask f : Atomic η α).Within Minds := Minds.refl

theorem minds_bind {x : Atomic η α} {g : α → Atomic η β} (first : x.Within Minds)
    (rest : ∀ a, (g a).Within Minds) : (x >>= g).Within Minds := .bind Minds.trans first rest

theorem minds_get_bind {g : World η → Atomic η β} (rest : ∀ w, (g w).Within Minds) :
    (get >>= g).Within Minds := fun w => rest w w

theorem minds_mapM {f : α → Atomic η β} (each : ∀ a, (f a).Within Minds) (as : List α) :
    (as.mapM f).Within Minds := by
  induction as with
  | nil => exact minds_pure []
  | cons a as ih =>
    rw [List.mapM_cons]
    exact minds_bind (each a) fun b => minds_bind ih fun bs => minds_pure (b :: bs)

/-! Classes. -/

theorem minds_link (m : Method) : (link m : Atomic η _).Within Minds := by
  intro w
  unfold link
  rw [runOn_get_bind]
  split
  · exact .refl w
  · split
    · exact .modifyState fun _ => rfl
    · exact .refl w
    · exact .refl w

theorem minds_findBootstrap (name : String) : (findBootstrap name : Atomic η _).Within Minds :=
  fun _ => .widens fun built => (findLoaded_leads built.ordered.primitives name none).1

theorem minds_bootClass (name : String) : (bootClass name : Atomic η _).Within Minds := by
  refine minds_bind (minds_findBootstrap name) fun found => ?_
  cases found with
  | none => exact minds_throw _
  | some c => exact minds_pure c

theorem minds_classInScope (name : String) (loader : Reference) :
    (classInScope name loader : Atomic η _).Within Minds := fun _ =>
  .widens fun built => inScope_widens built.ordered name loader

theorem minds_isOfType (o : ObjectId) (name : String) (given : Option ClassId)
    (loader : Reference) : (isOfType o name given loader : Atomic η _).Within Minds := by
  refine minds_get_bind fun w => ?_
  split
  · exact minds_ask _
  · exact minds_bind (minds_classInScope name loader) fun _ => minds_ask _

/-! Objects and fields. -/

theorem minds_allocate (x : Object) : (allocate x : Atomic η _).Within Minds := by
  intro w
  have comes := allocate_cases w x
  generalize (allocate x).runOn w = result at comes ⊢
  cases comes with
  | exhausted alike _ => exact .heap (Nat.le_of_eq alike.size.symm) fun o _ => alike.cls o
  | made alike _ =>
    refine .heap ?_ fun o there => ?_
    · rw [Array.size_push, alike.size]
      exact Nat.le_succ _
    · rw [Heap.get_push, if_neg (by rw [alike.size]; omega)]
      exact alike.cls o

theorem minds_newInstance (c : ClassId) : (newInstance c : Atomic η _).Within Minds := by
  refine minds_get_bind fun w => ?_
  cases Heap.newInstance w.registry c with
  | error f => exact minds_throw f
  | ok x => exact minds_allocate x

theorem minds_writeField (o : ObjectId) (offset : Nat) (v : Value) :
    (writeField o offset v : Atomic η _).Within Minds := by
  intro w
  rw [runOn_writeField]
  cases wrote : w.heap.writeField? o offset v with
  | none => exact .refl w
  | some heap =>
    obtain ⟨x, written, rfl⟩ := Option.map_eq_some_iff.mp wrote
    obtain ⟨fields, -, rfl⟩ := Option.map_eq_some_iff.mp written
    refine .heap ?_ fun p _ => ?_
    · exact Nat.le_of_eq Array.size_modify.symm
    · rw [Heap.get_modify]
      split
      · rename_i same
        rw [← same.1]
      · rfl

theorem minds_writeStatic (c : ClassId) (offset : Nat) (v : Value) :
    (writeStatic c offset v : Atomic η _).Within Minds := by
  intro w
  rw [runOn_writeStatic]
  cases wrote : w.registry.writeStatic? c offset v with
  | none => exact .refl w
  | some registry =>
    obtain ⟨statics, -, rfl⟩ := Option.map_eq_some_iff.mp wrote
    exact .modifyState fun _ => rfl

/-! Reflection. -/

theorem minds_readPlace (p : Exec.FieldPlace) : (Exec.readPlace p : Atomic η _).Within Minds := by
  refine minds_get_bind fun w => ?_
  dsimp only
  split
  · exact minds_pure _
  · exact minds_throw _

theorem minds_writePlace (p : Exec.FieldPlace) (v : Value) :
    (Exec.writePlace p v : Atomic η _).Within Minds := by
  have check (written : Bool) : (unless written do throw (.unwritableField p.field.name) :
      Atomic η Unit).Within Minds := by
    cases written
    · exact minds_throw _
    · exact minds_pure ()
  unfold Exec.writePlace
  cases p.holder with
  | none => exact minds_bind (minds_writeStatic _ _ _) check
  | some o => exact minds_bind (minds_writeField _ _ _) check

theorem minds_receiverOf (c : ClassId) (receiver : Reference) :
    (Exec.receiverOf c receiver : Atomic η _).Within Minds := by
  cases receiver with
  | none => exact minds_throw _
  | some o =>
    refine minds_get_bind fun w => ?_
    split
    · exact minds_pure o
    · exact minds_throw _

theorem minds_methodAt (c : ClassId) (slot : Nat) :
    (Exec.methodAt c slot : Atomic η _).Within Minds := by
  refine minds_bind (minds_ask _) fun x => ?_
  split
  · exact minds_pure _
  · exact minds_throw _

theorem minds_argumentRefs (args : Reference) :
    (Exec.argumentRefs args : Atomic η _).Within Minds := by
  cases args with
  | none => exact minds_pure []
  | some o =>
    refine minds_get_bind fun w => ?_
    split
    · exact minds_pure _
    · exact minds_throw _

theorem minds_box (v : Value) : (box v : Atomic η _).Within Minds := by
  unfold box
  split
  · exact minds_pure _
  · refine minds_bind (minds_bootClass _) fun c => minds_bind (minds_ask _) fun x => ?_
    split
    · exact minds_throw _
    · refine minds_bind (minds_newInstance c) fun o => minds_bind (minds_writeField _ _ _) fun b => ?_
      cases b
      · exact minds_throw _
      · exact minds_pure _

theorem minds_convert (arg : Reference) (target : FieldType) (given : Option ClassId)
    (loader : Reference) (mismatch : Failure) :
    (convert arg target given loader mismatch : Atomic η _).Within Minds := by
  unfold convert
  split
  · refine minds_get_bind fun w => ?_
    split
    · exact minds_pure _
    · exact minds_throw _
  · cases arg with
    | none => exact minds_pure _
    | some o =>
      refine minds_bind (minds_isOfType _ _ _ _) fun fits => ?_
      cases fits
      · exact minds_throw _
      · exact minds_pure _

theorem minds_convertArguments (m : Method) (loader args : Reference) :
    (Exec.convertArguments m loader args : Atomic η _).Within Minds := by
  refine minds_bind (minds_argumentRefs args) fun refs => ?_
  dsimp only
  split
  · exact minds_throw _
  · exact minds_mapM (fun a => minds_convert _ _ _ _ _) _

end Atomic
end ManagedRuntime
