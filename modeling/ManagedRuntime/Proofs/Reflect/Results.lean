import ManagedRuntime.Proofs.Execution.ArgumentPassing
import ManagedRuntime.Proofs.Execution.Orderly
import ManagedRuntime.Proofs.Reflect.Dispatch

/-!
Results of reflective calls. What a body returned is boxed by what it is; the type that the method
declares is not looked at. Natives return what they declare, since their results are read from the
stack by the declared type. Main statement: the result of a reflective call follows the declared type
exactly if the value that the body returned does.
-/
namespace ManagedRuntime

theorem Value.primitive?_read {slots : List Slot} {type : Option Primitive} {v : Value}
    (found : read slots type = some v) : v.primitive? = type := by
  unfold read at found
  split at found
  · cases found
    rfl
  · cases found
    rfl
  · cases found
    rfl
  · cases found
  · cases found
  · cases found
  · rename_i p bits _ long double void
    cases found
    cases p with
    | long => exact absurd rfl long
    | double => exact absurd rfl double
    | void => exact absurd rfl void
    | _ => rfl
  · cases found

theorem Heap.readField_written {h h' : Heap} {o : ObjectId} {offset : Nat} {v : Value}
    (there : o.index < h.objects.size) (wrote : h.writeField? o offset v = some h') :
    h'.readField o offset v.primitive? = some v ∧ h'.classOf o = h.classOf o := by
  obtain ⟨slots, writes, rfl⟩ := writeField?_cases wrote
  have object : (h.modify o fun _ => { h.get o with fields := slots }).get o =
      { h.get o with fields := slots } := by
    rw [get_modify, if_pos ⟨rfl, there⟩]
  constructor
  · rw [readField, object]
    exact writes.read
  · rw [classOf, object]
    rfl

namespace World
variable {η : Type} {w : World η} {returned : Option Value} {answer : Reference}

structure Boxes (w : World η) (o : ObjectId) (p : Primitive) (v : Value) : Prop where
  wrapper : w.registry.find? p.wrapper none = some (w.classOf o)
  unboxed : Atomic.unbox? w o = some v
  type : v.primitive? = some p

inductive Answers (w : World η) : Option Value → Reference → Prop
  | nothing : Answers w none none
  | reference (b : Reference) : Answers w (some (.ref b)) b
  | boxed {o : ObjectId} {p : Primitive} {v : Value} (boxes : w.Boxes o p v) :
      Answers w (some v) (some o)

/-- The reference is what a method of this result type should answer: null if there is none, a box
for a primitive type, else the reference that the body returned. -/
def Follows (w : World η) (declared : Option FieldType) (returned : Option Value)
    (answer : Reference) : Prop :=
  match declared with
  | none => answer = none
  | some (.primitive p) => ∃ o v, answer = some o ∧ w.Boxes o p v
  | some (.object _) | some (.array _) => returned = some (.ref answer)

/-- The body returned what a method of this result type may return. A box may stand for a primitive
value, and null for no value. -/
def Fits (w : World η) (declared : Option FieldType) (returned : Option Value) : Prop :=
  match declared with
  | none => returned = none ∨ returned = some .null
  | some (.primitive p) =>
    (∃ v, returned = some v ∧ v.primitive? = some p) ∨
      ∃ o v, returned = some (.ref (some o)) ∧ w.Boxes o p v
  | some (.object _) | some (.array _) => ∃ b, returned = some (.ref b)

theorem Answers.follows_iff (answers : w.Answers returned answer) (declared : Option FieldType) :
    w.Follows declared returned answer ↔ w.Fits declared returned := by
  unfold Follows Fits
  cases declared with
  | none =>
    cases answers with
    | nothing => simp
    | reference b => simp [Value.null]
    | boxed boxes =>
      -- a box is not null, and what is in it is no reference
      refine iff_of_false (Option.some_ne_none _) ?_
      rintro (none | null)
      · cases none
      · cases null
        cases boxes.type
  | some t =>
    cases t with
    | primitive p =>
      cases answers with
      | nothing => simp
      | reference b =>
        constructor
        · rintro ⟨o, v, rfl, boxes⟩
          exact .inr ⟨o, v, rfl, boxes⟩
        · rintro (⟨v, same, type⟩ | ⟨o, v, same, boxes⟩)
          · cases same
            cases type
          · cases same
            exact ⟨o, v, rfl, boxes⟩
      | @boxed o q v boxes =>
        constructor
        · rintro ⟨_, v', same, boxes'⟩
          cases same
          cases boxes.unboxed.symm.trans boxes'.unboxed
          exact .inl ⟨v, rfl, boxes'.type⟩
        · rintro (⟨_, same, type⟩ | ⟨_, _, same, -⟩)
          · cases same
            cases boxes.type.symm.trans type
            exact ⟨o, v, rfl, boxes⟩
          · cases same
            cases boxes.type
    | object | array =>
      cases answers with
      | nothing => simp
      | reference b => simp
      | @boxed o p v boxes =>
        have primitive (b : Reference) (same : some v = some (.ref b)) : False := by
          cases same
          cases boxes.type
        exact iff_of_false (primitive _) fun ⟨b, same⟩ => primitive b same

theorem fits_of_returns {m : Method} (returns : m.Returns returned) :
    w.Fits m.type.result returned := by
  unfold Method.Returns at returns
  unfold Fits
  cases declared : m.type.result with
  | none =>
    rw [declared] at returns
    exact .inl (Option.map_eq_none_iff.mp returns)
  | some t =>
    rw [declared, Option.map_some] at returns
    obtain ⟨v, rfl, type⟩ := Option.map_eq_some_iff.mp returns
    cases t with
    | primitive p => exact .inl ⟨v, rfl, type⟩
    | object | array =>
      cases v with
      | ref b => exact ⟨b, rfl⟩
      | _ => cases type

end World

namespace Atomic
open Registry
variable {η : Type} {w u : World η}

theorem bootClass_found {name : String} {c : ClassId} (plain : isArrayName name = false)
    (ran : (bootClass name).runOn w = (.ok c, u)) :
    w.registry.find? name none = some c ∧ u = w := by
  unfold bootClass at ran
  rw [runOn_bind, runOn_findBootstrap plain] at ran
  cases found : w.registry.find? name none with
  | none =>
    rw [found] at ran
    cases ran
  | some d =>
    rw [found] at ran
    cases ran
    exact ⟨rfl, rfl⟩

theorem newInstance_made {c : ClassId} {o : ObjectId} (ordinary : (w.cls c).kind = .ordinary)
    (ran : (newInstance c).runOn w = (.ok o, u)) :
    u.registry = w.registry ∧ u.classOf o = c ∧ o.index < u.heap.objects.size := by
  have comes := allocate_cases w
    { cls := c, fields := (w.cls c).template.toArray, payload := .plain }
  rw [← runOn_newInstance ordinary, ran] at comes
  cases comes with
  | made alike limit =>
    refine ⟨rfl, ?_, ?_⟩
    · rw [World.classOf, Heap.classOf, Heap.get_push, if_pos alike.size.symm]
    · rw [Array.size_push, alike.size]
      exact Nat.lt_succ_self _

theorem box_answers (built : w.registry.Built) {v : Value} {b : Reference}
    (ran : (box v).runOn w = (.ok b, u)) : u.Answers (some v) b := by
  unfold box at ran
  cases type : v.primitive? with
  | none =>
    cases v with
    | ref r =>
      cases ran
      exact .reference r
    | _ => cases type
  | some p =>
    simp only [type] at ran
    obtain ⟨c, w₁, named, rest⟩ := runOn_bind_eq_ok.mp ran
    obtain ⟨found, rfl⟩ := bootClass_found p.isArrayName_wrapper named
    have known := find?_known found
    rw [runOn_ask_bind] at rest
    cases declared : (w₁.cls c).declaredField? valueField with
    | none =>
      rw [declared] at rest
      cases rest
    | some f =>
      simp only [declared] at rest
      obtain ⟨o, w₂, made, rest⟩ := runOn_bind_eq_ok.mp rest
      obtain ⟨registry, cls, there⟩ :=
        newInstance_made (built.keyed.ordinary_of_plain known p.isArrayName_wrapper) made
      obtain ⟨written, w₃, wrote, rest⟩ := runOn_bind_eq_ok.mp rest
      rw [runOn_writeField] at wrote
      split at wrote
      · rename_i heap stored
        cases wrote
        cases rest
        obtain ⟨read, kept⟩ := Heap.readField_written there stored
        have object : heap.classOf o = c := kept.trans cls
        have inhabited : p ≠ .void := by
          rintro rfl
          cases v <;> cases type
        refine .boxed (p := p) ⟨?_, ?_, type⟩
        · rw [World.classOf, object, registry]
          exact found
        · rw [World.cls] at declared
          rw [unbox?, World.classOf, object, World.cls, registry,
            boxedType?_wrapper inhabited known.name known.loader, declared]
          rw [type] at read
          exact read
      · cases wrote
        cases rest

end Atomic

namespace Exec
open Registry
variable {η : Type} {code : Code η} {rely : World η → World η → Prop} {w u : World η} {env e : Env}
  {m target : Method} {c : ClassId} {slot : Nat} {receiver args answer : Reference}
  {values : List Value} {returned : Option Value}

theorem ends_execute {r : Except Failure (Option Value)} :
    Ends code rely w env (execute m values) r e u ↔
      Ends code rely w env (code.execute m values) r e u := by
  rw [Ends, show (execute m values : Exec η _).runIn env = .execute m values env .done from rfl,
    Task.runs_execute_iff, Task.bind_done, Ends]

theorem returns_of_readable {base : Nat} {s : OperandStack} (found : readable m base s = true) :
    m.Returns (result? m base s) := by
  unfold readable result? at found
  unfold Method.Returns result?
  cases declared : m.type.result with
  | none => rfl
  | some t =>
    rw [declared] at found
    obtain ⟨x, read⟩ := Option.isSome_iff_exists.mp found
    rw [Option.bind_some] at read ⊢
    rw [read, Option.map_some, Option.map_some, Value.primitive?_read read]

/-- The result of a native is read from the stack by its declared type. -/
theorem Ends.callOnStack_ok
    (ends : Ends code rely w env (Exec.callOnStack m values) (.ok returned) e u) :
    ∃ top d, Ends code rely w (pushed env (values.flatMap Value.slots)) (Exec.invokeNative m)
        (.ok top) d u ∧
      returned = result? m env.stack.size d.stack ∧ m.Returns returned := by
  unfold Exec.callOnStack at ends
  rw [ends_get_bind] at ends
  dsimp only at ends
  split at ends
  · cases (ends_throw_bind.mp ends).1
  obtain ⟨_, d, v, pushes, rest⟩ := ends.bind_ok
  obtain ⟨room, rfl⟩ := ends_pushArguments.mp pushes
  split at room
  · obtain ⟨-, rfl⟩ := room
    obtain ⟨q, d, v, called, rest⟩ := ends_outcome_bind.mp rest
    cases q with
    | error f => cases (ends_throw.mp (ends_modify_bind.mp rest)).1
    | ok top =>
      obtain ⟨taken, rfl⟩ := ends_takeResult.mp rest
      split at taken
      · rename_i found
        obtain ⟨same, -⟩ := taken
        cases same
        exact ⟨top, d, called, rfl, returns_of_readable found⟩
      · cases taken.1
  · cases room.1

/-- What the body of a method returns when the method is called from this state: what its code ends
with, or what a native leaves on the stack, which is of the declared type. -/
structure BodyReturned (code : Code η) (rely : World η → World η → Prop) (w : World η) (env : Env)
    (m : Method) (values : List Value) (returned : Option Value) (u : World η) : Prop where
  body : m.isNative = false → ∃ e, Ends code rely w ((atBoundary env values).pushFrame (.real m))
    (code.execute m values) (.ok returned) e u
  native : m.isNative = true → ∃ top e,
    Ends code rely w (pushed (atBoundary env values) (values.flatMap Value.slots))
      (Exec.invokeNative m) (.ok top) e u ∧
    returned = result? m env.stack.size e.stack ∧ m.Returns returned

theorem Ends.callMethod_returned
    (ends : Ends code rely w env (Exec.callMethod m values) (.ok returned) e u) :
    BodyReturned code rely w env m values returned u := by
  rw [callMethod_eq] at ends
  split at ends
  · cases (ends_throw.mp ends).1
  split at ends
  · cases (ends_throw.mp ends).1
  obtain ⟨d, called, -⟩ := ends_keeping.mp ends
  rw [hold, ends_modify_bind, ends_onFrame] at called
  obtain ⟨d', inside, -⟩ := called
  cases native : m.isNative with
  | true =>
    rw [native, if_pos rfl] at inside
    exact ⟨fun other => absurd (native.symm.trans other) (by decide), fun _ => inside.callOnStack_ok⟩
  | false =>
    rw [native, if_neg Bool.false_ne_true] at inside
    obtain ⟨d'', ran, -⟩ := ends_onFrame.mp inside
    exact ⟨fun _ => ⟨_, ends_execute.mp ran⟩,
      fun other => absurd (native.symm.trans other) (by decide)⟩

/-- The method that a reflective call of `m` comes to, and the receiver that is passed: `m` itself if
it is static, else the one that is selected for the class of the receiver once that is accepted. -/
inductive Dispatches (code : Code η) (rely : World η → World η → Prop) (w : World η) (env : Env)
    (c : ClassId) (m : Method) : Reference → Method → List Value → Env → World η → Prop
  | static {receiver : Reference} {e : Env} {u : World η} (static : m.isStatic = true)
      (initialized : Ends code rely w env (initializeClass c) (.ok ()) e u) :
      Dispatches code rely w env c m receiver m [] e u
  | own {o : ObjectId} {target : Method} {y u : World η} (own : m.isStatic = false)
      (checks : Faces rely w env y) (valid : y.registry.assignable (y.classOf o) c = true)
      (selects : Faces rely y env u)
      (selected : u.registry.virtualTarget (u.classOf o) m = .ok target) :
      Dispatches code rely w env c m (some o) target [.ref (some o)] env u

theorem ends_invocationTarget {this : List Value} :
    Ends code rely w env (invocationTarget c m receiver) (.ok (target, this)) e u ↔
      Dispatches code rely w env c m receiver target this e u := by
  have checking (receiver : Reference) (y : World η) :
      (receiverOf c receiver).runOn y = (y.receiverOf c receiver, y) := runOn_receiverOf c receiver
  have selecting (o : ObjectId) (y : World η) :
      (do let w ← get; w.registry.virtualTarget (w.classOf o) m : Atomic η _).runOn y =
        (y.registry.virtualTarget (y.classOf o) m, y) := by
    rw [Atomic.runOn_get_bind]
    cases y.registry.virtualTarget (y.classOf o) m <;> rfl
  unfold invocationTarget
  constructor
  · intro ends
    split at ends
    · rename_i static
      obtain ⟨_, d, v, initialized, rest⟩ := ends.bind_ok
      obtain ⟨same, rfl, rfl⟩ := ends_pure.mp rest
      cases same
      exact .static static initialized
    · rename_i own
      obtain ⟨o, d, y, checked, rest⟩ := ends.bind_ok
      obtain ⟨checks, accepted, rfl⟩ := (ends_reads (checking receiver)).mp checked
      obtain ⟨rfl, valid⟩ := World.receiverOf_ok accepted.symm
      obtain ⟨t, d, v, chosen, passes⟩ := rest.bind_ok
      obtain ⟨selects, selected, rfl⟩ := (ends_reads (selecting o)).mp chosen
      obtain ⟨same, rfl, rfl⟩ := ends_pure.mp passes
      cases same
      exact .own (Bool.eq_false_iff.mpr own) checks valid selects selected.symm
  · intro dispatches
    cases dispatches with
    | static static initialized =>
      rw [if_pos static]
      exact ends_bind.mpr (.inr ⟨_, _, _, initialized, ends_pure.mpr ⟨rfl, rfl, rfl⟩⟩)
    | @own o _ y _ own checks valid selects selected =>
      rw [if_neg (Bool.eq_false_iff.mp own)]
      refine ends_bind.mpr (.inr ⟨o, env, y, (ends_reads (checking (some o))).mpr
        ⟨checks, (if_pos valid).symm, rfl⟩, ?_⟩)
      exact ends_bind.mpr (.inr ⟨target, env, u, (ends_reads (selecting o)).mpr
        ⟨selects, selected.symm, rfl⟩, ends_pure.mpr ⟨rfl, rfl, rfl⟩⟩)

/-- The steps of a reflective call of `m`, up to the call of the method that it comes to. -/
inductive Prepared (code : Code η) (rely : World η → World η → Prop) (w : World η) (env : Env)
    (c : ClassId) (slot : Nat) (receiver args : Reference) (m target : Method) :
    List Value → Env → World η → Prop
  | intro {x v y z u : World η} {d : Env} {this converted : List Value} (faces : Faces rely w env x)
      (found : (x.cls c).method? slot = some m)
      (dispatches : Dispatches code rely x env c m receiver target this d v)
      (reads : Faces rely v d y) (goes : Faces rely y d z)
      (converts : (convertArguments target (y.cls c).loader args).runOn z = (.ok converted, u)) :
      Prepared code rely w env c slot receiver args m target (this ++ converted)
        ((d.hold (u.madeSince z.heap.objects.size)).hold (Value.objects (this ++ converted))) u

theorem Ends.prepared
    (ends : Ends code rely w env (Exec.prepare c slot receiver args) (.ok (target, values)) e u) :
    ∃ m, Prepared code rely w env c slot receiver args m target values e u := by
  obtain ⟨m, d, x, first, rest⟩ := ends.bind_ok
  obtain ⟨faces, found, rfl⟩ := first.methodAt
  obtain ⟨⟨t, this⟩, d', v, chosen, rest⟩ := rest.bind_ok
  obtain ⟨loader, d'', y, asked, rest⟩ := rest.bind_ok
  obtain ⟨reads, same, rfl⟩ := ends_ask.mp asked
  cases same
  obtain ⟨converted, d', u', passes, rest⟩ := rest.bind_ok
  obtain ⟨z, goes, converts, rfl⟩ := ends_act_iff.mp passes
  simp only [hold, ends_modify_bind] at rest
  obtain ⟨same, rfl, rfl⟩ := ends_pure.mp rest
  cases same
  exact ⟨m, .intro faces found (ends_invocationTarget.mp chosen) reads goes converts⟩

section result
variable {C : Class} (reached : ∀ w x, rely w x → x.registry.Built ∧ x.cls c = C)
include reached

theorem Dispatches.type {this : List Value}
    (dispatches : Dispatches code rely w env c m receiver target this e u)
    (declared : m ∈ C.methods) : target.type = m.type := by
  cases dispatches with
  | static => rfl
  | own _ _ _ selects selected =>
    obtain ⟨built, isC⟩ := selects.known reached
    rw [← isC] at declared
    exact built.target_type declared selected

theorem Prepared.asked (prepared : Prepared code rely w env c slot receiver args m target values e u) :
    C.method? slot = some m ∧ target.type = m.type := by
  obtain ⟨faces, found, dispatches, -⟩ := prepared
  rw [(faces.known reached).2] at found
  exact ⟨found, dispatches.type reached (List.mem_of_getElem? found)⟩

theorem Ends.boxed_answers (ends : Ends code rely w env (boxed returned) (.ok answer) e u) :
    u.Answers returned answer := by
  cases returned with
  | none =>
    cases (ends_pure.mp ends).1
    exact .nothing
  | some value =>
    obtain ⟨y, faces, ran, -⟩ := ends_act_iff.mp ends
    exact Atomic.box_answers (faces.known reached).1 ran

/-- A reflective call that succeeds has called the method that it comes to, with the receiver and the
converted arguments, and has boxed what the body of that method returned. Its result follows the
declared type exactly if what the body returned does, as the value of a native always does. -/
theorem invoke_follows_iff
    (ends : Ends code rely w env (invokeMember c slot receiver args) (.ok answer) e u) :
    ∃ m target values returned d v d' v', C.method? slot = some m ∧ target.type = m.type ∧
      Prepared code rely w env c slot receiver args m target values d v ∧
      Ends code rely v d (callMethod target values) (.ok returned) d' v' ∧
      BodyReturned code rely v d target values returned v' ∧
      Ends code rely v' d' (boxed returned) (.ok answer) e u ∧ u.Answers returned answer ∧
      (u.Follows m.type.result returned answer ↔ u.Fits m.type.result returned) ∧
      (target.isNative = true → u.Follows m.type.result returned answer) := by
  rcases ends_invokeMember.mp ends with ⟨f, -, same⟩ |
    ⟨target, values, d, v, q, d', v', prepared, called, relays⟩
  · cases same
  cases q with
  | error f => cases relays.1
  | ok returned =>
    obtain ⟨m, prepared⟩ := prepared.prepared
    obtain ⟨found, type⟩ := prepared.asked reached
    have answers := relays.boxed_answers reached
    have gave := called.callMethod_returned
    refine ⟨m, target, values, returned, d, v, d', v', found, type, prepared, called, gave, relays,
      answers, answers.follows_iff _, fun native => (answers.follows_iff _).mpr ?_⟩
    obtain ⟨_, _, -, -, returns⟩ := gave.native native
    rw [← type]
    exact World.fits_of_returns returns

end result

/-! Two static methods whose bodies both return an integer; only the second one declares that. -/

def answering : Registry :=
  let m := ((ClassDef.named "t/M").method "f" "()V" (.isPublic ||| .isStatic)).method "g" "()I"
    (.isPublic ||| .isStatic)
  (Universe.roots ++ Universe.wrappers ++ [m]).foldl (fun r d => (r.define d none).2) .empty

theorem built_answering : answering.Built := by
  have defined (ds : List ClassDef) {r : Registry} (built : r.Built) :
      (ds.foldl (fun r d => (r.define d none).2) r).Built := by
    induction ds generalizing r with
    | nil => exact built
    | cons d ds ih => exact ih (built.define d none)
  exact defined _ .empty

def answeringWorld : World Unit := Boot.initialWorld .silent answering 0

theorem sane_answeringWorld : answeringWorld.Sane := Boot.sane_initialWorld .silent built_answering 0

def fives : Code Unit where
  execute _ _ := pure (some (.int 5))
  native _ call := throw (.unbound call.method.text)

theorem orderly_fives : fives.Orderly where
  execute _ _ _ _ := tracks_orderly.pure .nil
  native _ _ _ := tracks_orderly.throw _

def answeringRely (_ x : World Unit) : Prop := x.Sane ∧ Later answering x.registry

theorem answering_reached (w x : World Unit) (change : answeringRely w x) :
    x.registry.Built ∧ x.cls ⟨27⟩ = answering.cls ⟨27⟩ :=
  ⟨change.1.built, change.2.cls ⟨27⟩ (by decide +kernel)⟩

theorem exists_ends_answering (slot : Nat) (seen : Except Failure Reference × Option Value)
    (ran : (((invokeMember ⟨27⟩ slot none none : Exec Unit _).runIn (.new ⟨0⟩ 8)).runAlone fives 64
      answeringWorld).map (fun x => (x.1.1, Atomic.unbox? x.2 ⟨0⟩)) = some seen) :
    ∃ e u, Ends fives answeringRely answeringWorld (.new ⟨0⟩ 8) (invokeMember ⟨27⟩ slot none none)
      seen.1 e u ∧ Atomic.unbox? u ⟨0⟩ = seen.2 := by
  obtain ⟨⟨⟨r, e⟩, u⟩, run, same⟩ := Option.map_eq_some_iff.mp ran
  cases same
  exact ⟨e, u, (tracks_orderly.invokeMember orderly_callMethod ⟨27⟩ slot none none).ends
    orderly_fives .nil sane_answeringWorld run, rfl⟩

/-- The integer that a method of type `()I` returns comes back in a box. -/
theorem integer_follows :
    ∃ e u, Ends fives answeringRely answeringWorld (.new ⟨0⟩ 8) (invokeMember ⟨27⟩ 1 none none)
        (.ok (some ⟨0⟩)) e u ∧
      ∃ m values d v v', (answering.cls ⟨27⟩).method? 1 = some m ∧
        BodyReturned fives answeringRely v d m values (some (.int 5)) v' ∧
        u.Follows m.type.result (some (.int 5)) (some ⟨0⟩) := by
  obtain ⟨e, u, ends, -⟩ := exists_ends_answering 1 (.ok (some ⟨0⟩), some (.int 5))
    (by decide +kernel)
  refine ⟨e, u, ends, ?_⟩
  obtain ⟨m, target, values, returned, d, v, -, v', found, -, prepared, -, gave, -, -, follows, -⟩ :=
    invoke_follows_iff answering_reached ends
  have declared : ((answering.cls ⟨27⟩).method? 1).all (fun m => !m.isNative &&
      m.type.result == some (.primitive .int)) = true := by decide +kernel
  rw [found, Option.all_some, Bool.and_eq_true, Bool.not_eq_true', beq_iff_eq] at declared
  obtain ⟨bodied, result⟩ := declared
  obtain ⟨-, -, dispatches, -⟩ := prepared
  cases dispatches with
  | static =>
    obtain ⟨_, returns⟩ := gave.body bodied
    cases (ends_pure.mp returns).1
    refine ⟨m, _, _, v, v', found, gave, follows.mpr ?_⟩
    rw [result]
    exact .inl ⟨_, rfl, rfl⟩

/-- The integer that a void method returns comes back in a box too. -/
theorem void_boxed :
    (∃ m, (answering.cls ⟨27⟩).method? 0 = some m ∧ m.type.result = none) ∧
      ∃ e u, Ends fives answeringRely answeringWorld (.new ⟨0⟩ 8) (invokeMember ⟨27⟩ 0 none none)
        (.ok (some ⟨0⟩)) e u ∧ Atomic.unbox? u ⟨0⟩ = some (.int 5) := by
  constructor
  · have declared : ((answering.cls ⟨27⟩).method? 0).any (·.type.result = none) = true := by
      decide +kernel
    obtain ⟨m, found, void⟩ := (Option.any_eq_true _ _).mp declared
    exact ⟨m, found, of_decide_eq_true void⟩
  · exact exists_ends_answering 0 (.ok (some ⟨0⟩), some (.int 5)) (by decide +kernel)

end Exec
end ManagedRuntime
