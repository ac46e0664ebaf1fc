import ManagedRuntime.Proofs.Class.Dispatch
import ManagedRuntime.Proofs.Reflect.Stores
import ManagedRuntime.Reflect.Invocation

/-!
Whether the method that a call has selected can take the call. Methods are selected by name and
descriptor alone, so a static or private method of a subclass can come before the one that was asked
for. Main statement: a call on an instance is refused for the number of its arguments exactly if the
selected method is static.
-/
namespace ManagedRuntime

namespace Registry
variable {r : Registry} {k : ClassId} {m target : Method}

structure StandsFor (target m : Method) : Prop where
  onInstance : target.isStatic = false
  name : target.name = m.name
  descriptor : target.descriptor = m.descriptor
  shared : target = m ∨ target.isPrivate = false

/-- Calls of `m` on instances of `k`, and calls of its name and descriptor, select methods that can
take them. -/
structure Callable (r : Registry) (k : ClassId) (m : Method) : Prop where
  selected : ∀ target, r.virtualTarget k m = .ok target → StandsFor target m
  named : ∀ target, r.lookupMethod? k m.name m.descriptor = some target →
    target.isAbstract = false → target.isStatic = false

/-- The first declaration of the name and descriptor of `m` is abstract or an instance method, and
not a private one if `m` can be overridden. -/
def Unhidden (r : Registry) (k : ClassId) (m : Method) : Prop :=
  ∀ first, r.First k first → first.name = m.name → first.descriptor = m.descriptor →
    first.isAbstract = true ∨ first.isStatic = false ∧ (Virtual m → first.isPrivate = false)

theorem virtualTarget_of_not_virtual (fixed : ¬ Virtual m) : r.virtualTarget k m = .ok m := by
  unfold virtualTarget
  rw [if_pos]
  by_contra none
  simp only [Bool.or_eq_true, not_or, Bool.not_eq_true] at none
  exact fixed ⟨none.1.1, none.1.2, none.2⟩

theorem Built.callable_iff (built : r.Built) (onInstance : m.isStatic = false) :
    r.Callable k m ↔ r.Unhidden k m := by
  constructor
  · intro callable first comes name descriptor
    by_cases abstract : first.isAbstract = true
    · exact .inl abstract
    have concrete := Bool.eq_false_iff.mpr abstract
    have looked := built.lookupMethod?_eq_some_iff.mpr ⟨comes, name, descriptor⟩
    refine .inr ⟨callable.named first looked concrete, fun virtual => ?_⟩
    have selected := (built.virtualTarget_eq_ok_iff virtual).mpr ⟨comes, name, descriptor, concrete⟩
    rcases (callable.selected first selected).shared with rfl | shared
    · exact virtual.shared
    · exact shared
  · intro unhidden
    constructor
    · intro target selected
      by_cases virtual : Virtual m
      · obtain ⟨comes, name, descriptor, concrete⟩ :=
          (built.virtualTarget_eq_ok_iff virtual).mp selected
        rcases unhidden target comes name descriptor with abstract | ⟨instance_, shared⟩
        · rw [concrete] at abstract
          cases abstract
        · exact ⟨instance_, name, descriptor, .inr (shared virtual)⟩
      · rw [virtualTarget_of_not_virtual virtual] at selected
        cases selected
        exact ⟨onInstance, rfl, rfl, .inl rfl⟩
    · intro target looked concrete
      obtain ⟨comes, name, descriptor⟩ := built.lookupMethod?_eq_some_iff.mp looked
      rcases unhidden target comes name descriptor with abstract | ⟨instance_, -⟩
      · rw [concrete] at abstract
        cases abstract
      · exact instance_

theorem Built.type_eq (built : r.Built) {c d : ClassId} {target m : Method}
    (declared : target ∈ (r.cls c).methods) (declared' : m ∈ (r.cls d).methods)
    (descriptor : target.descriptor = m.descriptor) : target.type = m.type := by
  obtain ⟨i, here⟩ := List.getElem?_of_mem declared
  obtain ⟨j, here'⟩ := List.getElem?_of_mem declared'
  have parsed := (built.numbered here).2
  rw [descriptor, (built.numbered here').2] at parsed
  exact (Except.ok.inj parsed).symm

/-- A selected method has the name, the descriptor and the type of the one that was asked for. -/
theorem Built.target_type (built : r.Built) {c : ClassId} (declared : m ∈ (r.cls c).methods)
    (selected : r.virtualTarget k m = .ok target) :
    target.type = m.type := by
  by_cases virtual : Virtual m
  · obtain ⟨comes, -, descriptor, -⟩ := (built.virtualTarget_eq_ok_iff virtual).mp selected
    exact built.type_eq (declaredMethod?_named comes.inClass).1 declared descriptor
  · rw [virtualTarget_of_not_virtual virtual] at selected
    cases selected
    rfl

end Registry

namespace Exec
open Registry
variable {η : Type} {code : Code η} {rely : World η → World η → Prop} {w u : World η} {env e : Env}
  {m target : Method} {o : ObjectId} {c : ClassId} {slot : Nat} {args : Reference}
  {values : List Value}

def entered (m : Method) (args : List Value) : Exec η (Option Value) :=
  keeping (fun v => Value.objects v.toList) do
    hold (Value.objects args)
    onFrame .boundary
      (if m.isNative then callOnStack m args else onFrame (.real m) (execute m args))

theorem callMethod_eq (m : Method) (args : List Value) :
    (callMethod m args : Exec η _) =
      if m.isAbstract then throw (.abstractMethod m.text)
      else if args.length ≠ m.arity then throw (.wrongArgumentCount m.text args.length)
      else entered m args := by
  unfold callMethod
  by_cases abstract : m.isAbstract = true
  · rw [if_pos abstract, if_pos abstract]
    rfl
  · rw [if_neg abstract, if_neg abstract]
    by_cases count : args.length ≠ m.arity
    · rw [if_pos count, if_pos count]
      rfl
    · rw [if_neg count, if_neg count]
      rfl

/-- How a call on an instance goes, with the other arguments as the type of the method asks: a static
method refuses it, for the receiver is one too many. -/
def CallEnds (code : Code η) (rely : World η → World η → Prop) (w : World η) (env : Env)
    (target : Method) (o : ObjectId) (values : List Value) (r : Except Failure (Option Value))
    (e : Env) (u : World η) : Prop :=
  if target.isAbstract then r = .error (.abstractMethod target.text) ∧ e = env ∧ u = w
  else if target.isStatic then
    r = .error (.wrongArgumentCount target.text (values.length + 1)) ∧ e = env ∧ u = w
  else Ends code rely w env (entered target (.ref (some o) :: values)) r e u

theorem Ends.callMethod_instance (count : values.length = target.type.params.length)
    {r : Except Failure (Option Value)}
    (ends : Ends code rely w env (Exec.callMethod target (.ref (some o) :: values)) r e u) :
    CallEnds code rely w env target o values r e u := by
  rw [callMethod_eq, List.length_cons, Method.arity, ← count] at ends
  unfold CallEnds
  by_cases abstract : target.isAbstract = true
  · rw [if_pos abstract] at ends ⊢
    exact ends_throw.mp ends
  rw [if_neg abstract] at ends ⊢
  by_cases static : target.isStatic = true
  · rw [if_pos static, if_pos (by simp)] at ends
    rw [if_pos static]
    exact ends_throw.mp ends
  · rw [if_neg static, if_neg (by simp)] at ends
    rw [if_neg static]
    exact ends

end Exec

structure World.Retains {η : Type} (o : ObjectId) (w x : World η) : Prop where
  later : Registry.Later w.registry x.registry
  ofClass : x.classOf o = w.classOf o

theorem World.Retains.trans {η : Type} {o : ObjectId} {w v u : World η} (first : w.Retains o v)
    (second : v.Retains o u) : w.Retains o u :=
  ⟨first.later.trans second.later, second.ofClass.trans first.ofClass⟩

namespace Exec
open Registry
variable {η α : Type} {code : Code η} {rely : World η → World η → Prop} {w u : World η}
  {env e : Env} {m target : Method} {o : ObjectId} {c : ClassId} {slot : Nat} {args : Reference}
  {values : List Value}

theorem length_of_mapM {β : Type} {f : β → Atomic η α} {bs : List β} {as : List α}
    (ran : (bs.mapM f).runOn w = (.ok as, u)) : as.length = bs.length := by
  induction bs generalizing w as with
  | nil =>
    cases ran
    rfl
  | cons b bs ih =>
    rw [List.mapM_cons] at ran
    obtain ⟨a, v, -, ran⟩ := Atomic.runOn_bind_eq_ok.mp ran
    obtain ⟨as', v', rest, ended⟩ := Atomic.runOn_bind_eq_ok.mp ran
    cases ended
    rw [List.length_cons, List.length_cons, ih rest]

theorem length_of_convertArguments {loader : Reference}
    (ran : (convertArguments m loader args).runOn w = (.ok values, u)) :
    values.length = m.type.params.length := by
  obtain ⟨refs, v, -, ran⟩ := Atomic.runOn_bind_eq_ok.mp ran
  by_cases count : refs.length = m.type.params.length
  · rw [if_neg (by simpa using count)] at ran
    rw [length_of_mapM ran, List.length_zip, count, Nat.min_self]
  · rw [if_pos count] at ran
    cases ran

theorem runOn_methodAt (c : ClassId) (slot : Nat) (y : World η) :
    (methodAt c slot).runOn y =
      (((y.cls c).method? slot).elim (.error (.noMethodSlot (y.cls c).name slot)) .ok, y) := by
  rw [methodAt, Atomic.runOn_ask_bind]
  cases (y.cls c).method? slot <;> rfl

theorem Ends.methodAt (ends : Ends code rely w env (act (methodAt c slot)) (.ok m) e u) :
    Faces rely w env u ∧ (u.cls c).method? slot = some m ∧ e = env := by
  obtain ⟨faces, found, rfl⟩ := (ends_reads (runOn_methodAt c slot)).mp ends
  cases here : (u.cls c).method? slot <;> rw [here] at found <;> cases found
  exact ⟨faces, rfl, rfl⟩

theorem convertArguments_congr (type : target.type = m.type) (loader args : Reference) :
    (convertArguments target loader args : Atomic η _) = convertArguments m loader args := by
  unfold convertArguments
  rw [type]

def prepare (c : ClassId) (slot : Nat) (receiver args : Reference) :
    Exec η (Method × List Value) := do
  let m ← act (methodAt c slot)
  let (target, this) ← invocationTarget c m receiver
  let loader ← act (Atomic.ask fun w => (w.cls c).loader)
  let values ← act (convertArguments target loader args)
  let all := this ++ values
  hold (Value.objects all)
  return (target, all)

def boxed : Option Value → Exec η Reference
  | none => return none
  | some v => act (Atomic.box v)

theorem invokeMember_eq (c : ClassId) (slot : Nat) (receiver args : Reference) :
    (invokeMember c slot receiver args : Exec η _) =
      prepare c slot receiver args >>= fun p => callTarget p.1 p.2 >>= boxed := by
  unfold invokeMember prepare
  simp only [bind_assoc, pure_bind]
  rfl

theorem ends_callTarget {r : Except Failure (Option Value)} :
    Ends code rely w env (callTarget target values) r e u ↔
      ∃ q, Ends code rely w env (callMethod target values) q e u ∧
        r = q.mapError .invocationTarget := by
  unfold callTarget
  rw [ends_outcome_bind]
  constructor
  · rintro ⟨q, d, v, call, rest⟩
    cases q with
    | error f =>
      obtain ⟨rfl, rfl, rfl⟩ := ends_throw.mp rest
      exact ⟨_, call, rfl⟩
    | ok returned =>
      obtain ⟨rfl, rfl, rfl⟩ := ends_pure.mp rest
      exact ⟨_, call, rfl⟩
  · rintro ⟨q, call, rfl⟩
    refine ⟨q, e, u, call, ?_⟩
    cases q with
    | error f => exact ends_throw.mpr ⟨rfl, rfl, rfl⟩
    | ok returned => exact ends_pure.mpr ⟨rfl, rfl, rfl⟩

theorem Ends.callTarget_ok {returned : Option Value}
    (ends : Ends code rely w env (callTarget target values) (.ok returned) e u) :
    Ends code rely w env (Exec.callMethod target values) (.ok returned) e u := by
  obtain ⟨q, call, same⟩ := ends_callTarget.mp ends
  cases q <;> cases same
  exact call

/-- How a reflective call ends when the call that it makes has ended with `q`. -/
def Relays (code : Code η) (rely : World η → World η → Prop) (w : World η) (env : Env)
    (q : Except Failure (Option Value)) (r : Except Failure Reference) (e : Env) (u : World η) :
    Prop :=
  match q with
  | .error f => r = .error (.invocationTarget f) ∧ e = env ∧ u = w
  | .ok returned => Ends code rely w env (boxed returned) r e u

theorem ends_invokeMember {receiver : Reference} {r : Except Failure Reference} :
    Ends code rely w env (invokeMember c slot receiver args) r e u ↔
      (∃ f, Ends code rely w env (prepare c slot receiver args) (.error f) e u ∧ r = .error f) ∨
        ∃ target values d v q d' v',
          Ends code rely w env (prepare c slot receiver args) (.ok (target, values)) d v ∧
          Ends code rely v d (callMethod target values) q d' v' ∧
          Relays code rely v' d' q r e u := by
  simp only [invokeMember_eq, ends_bind, ends_callTarget, Prod.exists]
  refine or_congr_right ?_
  constructor
  · rintro ⟨target, values, d, v, prepared,
      ⟨f, ⟨q, call, same⟩, rfl⟩ | ⟨_, d', v', ⟨q, call, same⟩, rest⟩⟩
    · refine ⟨target, values, d, v, q, e, u, prepared, call, ?_⟩
      cases q <;> cases same
      exact ⟨rfl, rfl, rfl⟩
    · refine ⟨target, values, d, v, q, d', v', prepared, call, ?_⟩
      cases q <;> cases same
      exact rest
  · rintro ⟨target, values, d, v, q, d', v', prepared, call, relays⟩
    refine ⟨target, values, d, v, prepared, ?_⟩
    cases q with
    | error f =>
      obtain ⟨rfl, rfl, rfl⟩ := relays
      exact .inl ⟨_, ⟨_, call, rfl⟩, rfl⟩
    | ok returned => exact .inr ⟨returned, d', v', ⟨_, call, rfl⟩, relays⟩

/-- A call that has succeeded is not reported as one that failed. -/
theorem Ends.boxed_error {returned : Option Value} {f : Failure}
    (ends : Ends code rely w env (boxed returned) (.error f) e u) : Atomic.Unboxable f := by
  cases returned with
  | none => cases (ends_pure.mp ends).1
  | some v =>
    obtain ⟨y, -, ran, -⟩ := ends_act_iff.mp ends
    exact Atomic.failsWith_box v y f u ran

def Watches (rely : World η → World η → Prop) (env : Env) : World η → World η → Prop :=
  Relation.TransGen fun v x => Faces rely v env x

section retains
variable (retains : ∀ w x, rely w x → World.Retains o w x)
include retains

theorem Faces.retained {x : World η} (faces : Faces rely w env x) : w.Retains o x := by
  obtain ⟨y, refs, change, rfl⟩ := faces
  exact ⟨(retains w y change).later, (retains w y change).ofClass⟩

theorem Watches.retained {x : World η} (watches : Watches rely env w x) : w.Retains o x := by
  induction watches with
  | single first => exact first.retained retains
  | tail _ next ih => exact ih.trans (next.retained retains)

section call
variable (built : w.registry.Built) (here : (w.classOf o).index < w.registry.loaded.size)
  (there : c.index < w.registry.loaded.size)
  (receiver : w.registry.assignable (w.classOf o) c = true) (onInstance : m.isStatic = false)
include built here there receiver onInstance

/-- The receiver is accepted and the target selected before anything is run. -/
theorem Ends.invocationTarget {x : World η} {q : Except Failure (Method × List Value)}
    (start : w.Retains o x) (ends : Ends code rely x env (invocationTarget c m (some o)) q e u) :
    (∃ f, w.registry.virtualTarget (w.classOf o) m = .error f ∧ q = .error f) ∨
      ∃ target, w.registry.virtualTarget (w.classOf o) m = .ok target ∧
        q = .ok (target, [.ref (some o)]) ∧ e = env ∧ Watches rely env x u := by
  unfold Exec.invocationTarget at ends
  rw [onInstance, if_neg (by simp)] at ends
  obtain ⟨v, first, rest⟩ := ends.reads_bind (f := fun y => y.receiverOf c (some o))
    fun y => runOn_receiverOf c (some o)
  have checked := start.trans (first.retained retains)
  have accepted : v.receiverOf c (some o) = .ok o := by
    rw [World.receiverOf, checked.ofClass, checked.later.assignable built.ordered here there,
      if_pos receiver]
  simp only [accepted] at rest
  obtain ⟨v', second, rest⟩ :=
    rest.reads_bind (f := fun y => y.registry.virtualTarget (y.classOf o) m) fun y => by
      rw [Atomic.runOn_get_bind]
      cases y.registry.virtualTarget (y.classOf o) m <;> rfl
  have chosen := checked.trans (second.retained retains)
  simp only [chosen.ofClass, chosen.later.virtualTarget built.ordered here] at rest
  cases selected : w.registry.virtualTarget (w.classOf o) m with
  | error f =>
    simp only [selected] at rest
    exact .inl ⟨f, rfl, rest.1⟩
  | ok target =>
    simp only [selected] at rest
    obtain ⟨rfl, rfl, rfl⟩ := ends_pure.mp rest
    exact .inr ⟨target, rfl, rfl, rfl, (Relation.TransGen.single first).tail second⟩

/-- Before an instance method is called, the target is selected and its arguments are converted. -/
theorem Ends.prepare {q : Except Failure (Method × List Value)}
    (found : (w.cls c).method? slot = some m)
    (ends : Ends code rely w env (prepare c slot (some o) args) q e u) :
    (∃ f, w.registry.virtualTarget (w.classOf o) m = .error f ∧ q = .error f) ∨
      ∃ target, w.registry.virtualTarget (w.classOf o) m = .ok target ∧
        ∃ y converted, Watches rely env w y ∧
          (convertArguments target (w.cls c).loader args).runOn y = (converted, u) ∧
          q = converted.map (target, .ref (some o) :: ·) := by
  obtain ⟨v, first, rest⟩ := ends.reads_bind (runOn_methodAt c slot)
  have named := first.retained retains
  have same {x : World η} (retained : w.Retains o x) : x.cls c = w.cls c :=
    retained.later.cls c there
  simp only [same named, found, Option.elim_some] at rest
  have select {q : Except Failure (Method × List Value)} {d : Env} {v' : World η}
      (chosen : Ends code rely v env (Exec.invocationTarget c m (some o)) q d v') :=
    chosen.invocationTarget retains built here there receiver onInstance named
  rcases ends_bind.mp rest with ⟨f, chosen, rfl⟩ | ⟨⟨target, this⟩, d, v', chosen, rest⟩
  · rcases select chosen with ⟨g, failed, refused⟩ | ⟨_, _, refused, -⟩
    · cases refused
      exact .inl ⟨f, failed, rfl⟩
    · cases refused
  right
  rcases select chosen with ⟨_, _, passed⟩ | ⟨_, selected, passed, rfl, second⟩
  · cases passed
  cases passed
  obtain ⟨v₃, third, rest⟩ := rest.reads_bind (f := fun y => .ok (y.cls c).loader) fun _ => rfl
  have watched : Watches rely d w v₃ := ((Relation.TransGen.single first).trans second).tail third
  rw [same (watched.retained retains)] at rest
  refine ⟨target, selected, ?_⟩
  rcases ends_bind.mp rest with ⟨f, converted, rfl⟩ | ⟨values, d₄, v₄, converted, rest⟩
  · obtain ⟨y, faces, ran, -⟩ := ends_act_iff.mp converted
    exact ⟨y, .error f, watched.tail faces, ran, rfl⟩
  · obtain ⟨y, faces, ran, rfl⟩ := ends_act_iff.mp converted
    rw [hold, ends_modify_bind, ends_pure] at rest
    obtain ⟨rfl, rfl, rfl⟩ := rest
    exact ⟨y, .ok values, watched.tail faces, ran, rfl⟩

end call

theorem Ends.callVirtual {name descriptor : String} {r : Except Failure (Option Value)}
    (built : w.registry.Built) (here : (w.classOf o).index < w.registry.loaded.size)
    (found : w.registry.lookupMethod? (w.classOf o) name descriptor = some target)
    (ends : Ends code rely w env (callVirtual o name descriptor values) r e u) :
    ∃ v, Faces rely w env v ∧
      Ends code rely v env (Exec.callMethod target (.ref (some o) :: values)) r e u := by
  obtain ⟨v, first, rest⟩ := ends.reads_bind
    (f := fun y => .ok (y.registry.lookupMethod? (y.classOf o) name descriptor, y.classNameOf o))
    fun _ => rfl
  have retained := first.retained retains
  simp only [retained.ofClass, retained.later.lookupMethod? built.ordered here, found] at rest
  exact ⟨v, first, rest⟩

/-- The methods that calls of `m` on an instance select can take the calls exactly if no static or
private declaration comes first. A reflective call that gets past its receiver and its arguments,
and a call by name, are calls of the selected method, which refuses them exactly if it is static. What
has been called successfully is not reported as a failed call. -/
theorem dispatched_calls_taken_iff (built : w.registry.Built)
    (here : (w.classOf o).index < w.registry.loaded.size)
    (found : (w.cls c).method? slot = some m) (onInstance : m.isStatic = false)
    (receiver : w.registry.assignable (w.classOf o) c = true) :
    (w.registry.Callable (w.classOf o) m ↔ w.registry.Unhidden (w.classOf o) m) ∧
    (∀ env args r e u, Ends code rely w env (invokeMember c slot (some o) args) r e u →
      (∃ f, w.registry.virtualTarget (w.classOf o) m = .error f ∧ r = .error f) ∨
      ∃ target, w.registry.virtualTarget (w.classOf o) m = .ok target ∧
        ∃ y converted d v, Watches rely env w y ∧
          (convertArguments m (w.cls c).loader args).runOn y = (converted, v) ∧
          Ends code rely w env (Exec.prepare c slot (some o) args)
            (converted.map (target, .ref (some o) :: ·)) d v ∧
          match converted with
          | .error f => r = .error f ∧ e = d ∧ u = v
          | .ok values => values.length = m.type.params.length ∧
            ∃ q d' v', CallEnds code rely v d target o values q d' v' ∧
              Relays code rely v' d' q r e u ∧
              ∀ returned f, q = .ok returned → r = .error f → Atomic.Unboxable f ∧
                (∀ g, f ≠ .invocationTarget g) ∧ ∀ text n, f ≠ .wrongArgumentCount text n) ∧
    ∀ env values r e u, values.length = m.type.params.length →
      Ends code rely w env (callVirtual o m.name m.descriptor values) r e u →
      ∀ target, w.registry.lookupMethod? (w.classOf o) m.name m.descriptor = some target →
        ∃ v, Faces rely w env v ∧ CallEnds code rely v env target o values r e u := by
  have there : c.index < w.registry.loaded.size := by
    refine Nat.lt_of_not_le fun outside => ?_
    rw [World.cls, cls_of_unloaded outside] at found
    cases found
  have declared : m ∈ (w.registry.cls c).methods := List.mem_of_getElem? found
  refine ⟨built.callable_iff onInstance, ?_, ?_⟩
  · intro env args r e u ends
    have prepares {q d v} (ends : Ends code rely w env (Exec.prepare c slot (some o) args) q d v) :=
      ends.prepare retains built here there receiver onInstance found
    have asked {target : Method} (selected : w.registry.virtualTarget (w.classOf o) m = .ok target) :
        (convertArguments target (w.cls c).loader args : Atomic η _) =
          convertArguments m (w.cls c).loader args :=
      convertArguments_congr (built.target_type declared selected) _ _
    rcases ends_invokeMember.mp ends with ⟨f, failed, rfl⟩ |
      ⟨target, all, d, v, q, d', v', prepared, call, relays⟩
    · rcases prepares failed with ⟨g, refused, same⟩ |
        ⟨target, selected, y, converted, watched, ran, same⟩
      · cases same
        exact .inl ⟨f, refused, rfl⟩
      · rw [asked selected] at ran
        refine .inr ⟨target, selected, y, converted, e, u, watched, ran, same ▸ failed, ?_⟩
        cases converted <;> cases same
        exact ⟨rfl, rfl, rfl⟩
    · rcases prepares prepared with ⟨_, _, same⟩ |
        ⟨target, selected, y, converted, watched, ran, same⟩
      · cases same
      rw [asked selected] at ran
      refine .inr ⟨target, selected, y, converted, d, v, watched, ran, same ▸ prepared, ?_⟩
      cases converted <;> cases same
      rename_i values
      have count := length_of_convertArguments ran
      have taken := call.callMethod_instance (built.target_type declared selected ▸ count)
      refine ⟨count, q, d', v', taken, relays, ?_⟩
      rintro returned f rfl rfl
      have unboxable := relays.boxed_error
      exact ⟨unboxable, unboxable.not_call⟩
  · intro env values r e u count ends target looked
    obtain ⟨comes, -, descriptor⟩ := built.lookupMethod?_eq_some_iff.mp looked
    have type := built.type_eq (declaredMethod?_named comes.inClass).1 declared descriptor
    obtain ⟨v, faces, call⟩ := ends.callVirtual retains built here looked
    exact ⟨v, faces, call.callMethod_instance (type ▸ count)⟩

end retains

/-! A method of `t/A` that `t/B` declares once more as static, and that `t/C` overrides. -/

def redeclared : Registry :=
  let root := (Registry.empty.define (ClassDef.named rootName).root none).2
  let a := (root.define ((ClassDef.named "t/A").publicMethod "f" "()V") none).2
  let b := (a.define (((ClassDef.named "t/B").extending "t/A").method "f" "()V"
    (.isPublic ||| .isStatic)) none).2
  (b.define (((ClassDef.named "t/C").extending "t/A").publicMethod "f" "()V") none).2

theorem built_redeclared : redeclared.Built := by
  unfold redeclared
  exact (((Registry.Built.empty.define _ _).define _ _).define _ _).define _ _

def redeclaredMethod (c : ClassId) : Method :=
  ((redeclared.cls c).method? 0).getD ⟨⟨0⟩, "", "", "", ⟨[], none⟩, .empty, 0⟩

def redeclaredWorld (c : ClassId) : World Unit :=
  { Boot.initialWorld .silent redeclared 0 with
    heap := { Heap.empty 0 0 with objects := #[{ cls := c, fields := #[], payload := .plain }] } }

/-- Both calls on a `t/C` run its own method. -/
theorem overridden_taken :
    redeclared.virtualTarget ⟨12⟩ (redeclaredMethod ⟨10⟩) = .ok (redeclaredMethod ⟨12⟩) ∧
      redeclared.Callable ⟨12⟩ (redeclaredMethod ⟨10⟩) := by
  have own : redeclared.lookupMethod? ⟨12⟩ (redeclaredMethod ⟨10⟩).name
      (redeclaredMethod ⟨10⟩).descriptor = some (redeclaredMethod ⟨12⟩) := by decide +kernel
  have retains : ∀ w x : World Unit, Undisturbed w x → World.Retains ⟨0⟩ w x := by
    rintro w _ rfl
    exact ⟨.refl _, rfl⟩
  have calls := @dispatched_calls_taken_iff Unit noCode Undisturbed (redeclaredWorld ⟨12⟩)
    (redeclaredMethod ⟨10⟩) ⟨0⟩ ⟨10⟩ 0 retains built_redeclared (by decide +kernel)
    (by decide +kernel) (by decide +kernel) (by decide +kernel)
  refine ⟨by decide +kernel, calls.1.mpr ?_⟩
  intro k comes name descriptor
  have looked := built_redeclared.lookupMethod?_eq_some_iff.mpr ⟨comes, name, descriptor⟩
  cases own.symm.trans looked
  exact .inr ⟨by decide +kernel, fun _ => by decide +kernel⟩

/-- Both calls on a `t/B` select the static method, which refuses the receiver. -/
theorem static_refused :
    redeclared.assignable ⟨11⟩ ⟨10⟩ = true ∧ (redeclaredMethod ⟨10⟩).isStatic = false ∧
      redeclared.virtualTarget ⟨11⟩ (redeclaredMethod ⟨10⟩) = .ok (redeclaredMethod ⟨11⟩) ∧
      (redeclaredMethod ⟨11⟩).isStatic = true ∧
      (∃ e u, Ends noCode Undisturbed (redeclaredWorld ⟨11⟩) (.new ⟨0⟩ 8)
        (invokeMember ⟨10⟩ 0 (some ⟨0⟩) none)
        (.error (.invocationTarget (.wrongArgumentCount "t/B.f()V" 1))) e u) ∧
      ∃ e u, Ends noCode Undisturbed (redeclaredWorld ⟨11⟩) (.new ⟨0⟩ 8)
        (callVirtual ⟨0⟩ "f" "()V" []) (.error (.wrongArgumentCount "t/B.f()V" 1)) e u := by
  refine ⟨by decide +kernel, by decide +kernel, by decide +kernel, by decide +kernel, ?_, ?_⟩
  · have ended : (((invokeMember ⟨10⟩ 0 (some ⟨0⟩) none : Exec Unit _).runIn (.new ⟨0⟩ 8)).runAlone
        noCode 16 (redeclaredWorld ⟨11⟩)).map (·.1.1) =
        some (.error (.invocationTarget (.wrongArgumentCount "t/B.f()V" 1))) := by decide +kernel
    exact exists_ends_of_runAlone undisturbed_refl ended
  · have ended : (((callVirtual ⟨0⟩ "f" "()V" [] : Exec Unit _).runIn (.new ⟨0⟩ 8)).runAlone
        noCode 16 (redeclaredWorld ⟨11⟩)).map (·.1.1) =
        some (.error (.wrongArgumentCount "t/B.f()V" 1)) := by decide +kernel
    exact exists_ends_of_runAlone undisturbed_refl ended

end Exec
end ManagedRuntime
