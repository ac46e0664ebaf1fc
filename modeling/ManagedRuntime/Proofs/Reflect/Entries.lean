import ManagedRuntime.Proofs.Execution.Opens
import ManagedRuntime.Proofs.Reflect.Results

/-!
Which reflective calls come to a body, and with which arguments. A call is let in if its receiver and
its arguments fit, and then the body gets the receiver and the converted arguments; a call that is
not let in has changed nothing but that array classes may have been loaded. Main statement: a call
whose receiver and arguments fit comes to the body of the selected method exactly if that method is
static where the one asked for is.
-/
namespace ManagedRuntime

namespace World
open Registry
variable {η : Type} {w x u : World η} {c : ClassId} {m target : Method} {receiver args : Reference}
  {loader : Reference} {o : ObjectId}

def Holds (w : World η) (o : ObjectId) (p : Primitive) (v : Value) : Prop :=
  ∃ f, w.registry.Wraps p (w.classOf o) f ∧ w.heap.readField o f.offset (some p) = some v

/-- The receiver is as method `m` of class `c` asks, and the call selects this method and passes this
receiver. -/
inductive Selects (w : World η) (c : ClassId) (m : Method) (receiver : Reference) :
    Method → List Value → Prop
  | static (static : m.isStatic = true) : Selects w c m receiver m []
  | own {o : ObjectId} {target : Method} (own : m.isStatic = false) (given : receiver = some o)
      (valid : w.registry.assignable (w.classOf o) c = true)
      (dispatched : w.registry.virtualTarget (w.classOf o) m = .ok target) :
      Selects w c m receiver target [.ref (some o)]

inductive Arguments (w : World η) : Reference → List Reference → Prop
  | none : Arguments w none []
  | array {o : ObjectId} {e : Elements} {refs : Array Reference}
      (elements : (w.heap.get o).elements? = some e) (references : e.references? = some refs) :
      Arguments w (some o) refs.toList

/-- An argument converts to a value of a type: a box to what its value widens to, null to null, and
an object that is accepted for the type to itself. The lookup of the type may load array classes. -/
inductive Converts (w : World η) (loader : Reference) (r : Registry) :
    Reference → FieldType → Value → Registry → Prop
  | primitive {o : ObjectId} {q p : Primitive} {v x : Value} (holds : w.Holds o q v)
      (widened : v.widen p = some x) : Converts w loader r (some o) (.primitive p) x r
  | null {t : FieldType} (reference : t.primitive? = none) : Converts w loader r none t .null r
  | object {o : ObjectId} {t : FieldType} (reference : t.primitive? = none)
      (accepted : r.Accepts (w.classOf o) t.className none loader) :
      Converts w loader r (some o) t (.ref (some o)) (r.inScope t.className loader).2

inductive ConvertsAll (w : World η) (loader : Reference) :
    Registry → List Reference → List FieldType → List Value → Prop
  | nil {r : Registry} : ConvertsAll w loader r [] [] []
  | cons {r r' : Registry} {a : Reference} {t : FieldType} {v : Value} {refs : List Reference}
      {types : List FieldType} {values : List Value} (first : Converts w loader r a t v r')
      (rest : ConvertsAll w loader r' refs types values) :
      ConvertsAll w loader r (a :: refs) (t :: types) (v :: values)

/-- The receiver and the arguments fit, this is the method that is selected, and these are the
receiver and the converted arguments. -/
structure Prepares (w : World η) (c : ClassId) (m : Method) (receiver args : Reference)
    (target : Method) (values : List Value) : Prop where
  fits : ∃ this refs converted, w.Selects c m receiver target this ∧ w.Arguments args refs ∧
    w.ConvertsAll (w.cls c).loader w.registry refs m.type.params converted ∧
    values = this ++ converted

theorem Holds.type {p : Primitive} {v : Value} (holds : w.Holds o p v) : v.primitive? = some p := by
  obtain ⟨f, -, read⟩ := holds
  exact Value.primitive?_read read

/-- The call can be let in: receiver and arguments fit, and the selected method has a body. -/
structure Admits (w : World η) (c : ClassId) (m : Method) (receiver args : Reference)
    (target : Method) (values : List Value) : Prop
    extends Prepares w c m receiver args target values where
  concrete : target.isAbstract = false

theorem unbox?_iff (built : w.registry.Built) (wrappers : w.registry.HasWrappers)
    (there : (w.classOf o).index < w.registry.loaded.size) {v : Value} :
    Atomic.unbox? w o = some v ↔ ∃ p, w.Holds o p v := by
  constructor
  · intro unboxed
    unfold Atomic.unbox? at unboxed
    dsimp only at unboxed
    split at unboxed
    · rename_i p f boxed declared
      have ordinary : (w.registry.cls (w.classOf o)).kind = .ordinary := by
        by_contra other
        have fields := List.mem_of_find?_eq_some declared
        rw [World.cls, (built.unstored there other).1] at fields
        cases fields
      unfold Atomic.boxedType? at boxed
      split at boxed
      · cases boxed
      · rename_i bootstrap
        have named : p ≠ .void ∧ p.wrapper = (w.cls (w.classOf o)).name := by
          simpa using List.find?_some boxed
        have known : w.registry.Known p.wrapper none (w.classOf o) :=
          ⟨⟨there, by rw [Class.isPrimitive, ordinary]⟩, named.2.symm,
            Option.not_isSome_iff_eq_none.mp bootstrap⟩
        obtain ⟨c, g, wraps⟩ := wrappers p named.1
        cases wraps.found.symm.trans (built.keyed.find?_iff.mpr known)
        cases wraps.declared.symm.trans declared
        exact ⟨p, f, wraps, unboxed⟩
    · cases unboxed
  · rintro ⟨p, holds⟩
    have type := holds.type
    obtain ⟨f, wraps, read⟩ := holds
    have known := find?_known wraps.found
    have inhabited : p ≠ .void := by
      rintro rfl
      cases v <;> cases type
    unfold Atomic.unbox?
    dsimp only
    rw [World.cls, Atomic.boxedType?_wrapper inhabited known.name known.loader, wraps.declared]
    exact read

theorem Widened.unbox? (widened : w.Widened x) (there : (w.classOf o).index < w.registry.loaded.size) :
    Atomic.unbox? x o = Atomic.unbox? w o := by
  have cls : x.classOf o = w.classOf o := congrArg (·.classOf o) widened.heap
  have same : x.cls (x.classOf o) = w.cls (w.classOf o) := by
    rw [cls, World.cls, widened.registry.grows.cls there]
    rfl
  unfold Atomic.unbox?
  rw [same, widened.heap]

theorem receiverOf_eq_ok_iff :
    w.receiverOf c receiver = .ok o ↔
      receiver = some o ∧ w.registry.assignable (w.classOf o) c = true := by
  refine ⟨receiverOf_ok, ?_⟩
  rintro ⟨rfl, valid⟩
  exact if_pos valid

theorem selects_static_iff (static : m.isStatic = true) {this : List Value} :
    w.Selects c m receiver target this ↔ (m, []) = (target, this) := by
  constructor
  · intro selects
    cases selects with
    | static => rfl
    | own own => exact absurd (static.symm.trans own) (by decide)
  · rintro ⟨⟩
    exact .static static

theorem selects_own_iff (own : m.isStatic = false) {this : List Value} :
    w.Selects c m receiver target this ↔ ∃ o, w.receiverOf c receiver = .ok o ∧
      w.registry.virtualTarget (w.classOf o) m = .ok target ∧ [.ref (some o)] = this := by
  constructor
  · intro selects
    cases selects with
    | static static => exact absurd (static.symm.trans own) (by decide)
    | own _ given valid dispatched =>
      exact ⟨_, receiverOf_eq_ok_iff.mpr ⟨given, valid⟩, dispatched, rfl⟩
  · rintro ⟨o, accepted, dispatched, rfl⟩
    obtain ⟨given, valid⟩ := receiverOf_eq_ok_iff.mp accepted
    exact .own own given valid dispatched

theorem Selects.type {this : List Value} (selects : w.Selects c m receiver target this)
    (built : w.registry.Built) (declared : m ∈ (w.cls c).methods) : target.type = m.type := by
  cases selects with
  | static => rfl
  | own _ _ _ dispatched => exact built.target_type declared dispatched

variable {r r' : Registry} {a : Reference} {t : FieldType} {v : Value}

theorem converts_primitive_iff {p : Primitive} :
    w.Converts loader r a (.primitive p) v r' ↔
      (∃ o q b, a = some o ∧ w.Holds o q b ∧ b.widen p = some v) ∧ r' = r := by
  constructor
  · intro converts
    cases converts with
    | primitive holds widened => exact ⟨⟨_, _, _, rfl, holds, widened⟩, rfl⟩
    | null reference => cases reference
    | object reference => cases reference
  · rintro ⟨⟨o, q, b, rfl, holds, widened⟩, rfl⟩
    exact .primitive holds widened

theorem converts_null_iff (reference : t.primitive? = none) :
    w.Converts loader r none t v r' ↔ v = .null ∧ r' = r := by
  constructor
  · intro converts
    cases converts
    exact ⟨rfl, rfl⟩
  · rintro ⟨rfl, rfl⟩
    exact .null reference

theorem converts_object_iff (reference : t.primitive? = none) :
    w.Converts loader r (some o) t v r' ↔
      (r.Accepts (w.classOf o) t.className none loader ∧ v = .ref (some o)) ∧
        r' = (r.inScope t.className loader).2 := by
  constructor
  · intro converts
    cases converts with
    | primitive => cases reference
    | object _ accepted => exact ⟨⟨accepted, rfl⟩, rfl⟩
  · rintro ⟨⟨accepted, rfl⟩, rfl⟩
    exact .object reference accepted

theorem ConvertsAll.length {refs : List Reference} {types : List FieldType} {values : List Value}
    (converts : w.ConvertsAll loader r refs types values) :
    refs.length = types.length ∧ values.length = types.length := by
  induction converts with
  | nil => exact ⟨rfl, rfl⟩
  | cons _ _ ih => exact ⟨congrArg (· + 1) ih.1, congrArg (· + 1) ih.2⟩

theorem Prepares.length {values : List Value}
    (prepares : w.Prepares c m receiver args target values) :
    values.length = m.type.params.length + if m.isStatic then 0 else 1 := by
  obtain ⟨this, refs, converted, selects, -, converts, rfl⟩ := prepares
  rw [List.length_append, converts.length.2, Nat.add_comm]
  cases selects with
  | static static => rw [static, if_pos rfl, List.length_nil]
  | own own => rw [own, if_neg Bool.false_ne_true, List.length_singleton]

theorem Prepares.type {values : List Value}
    (prepares : w.Prepares c m receiver args target values) (built : w.registry.Built)
    (declared : m ∈ (w.cls c).methods) : target.type = m.type := by
  obtain ⟨this, refs, converted, selects, -⟩ := prepares
  exact selects.type built declared

/-- As many values as the selected method takes are passed exactly if it is static where the one asked
for is. -/
theorem Prepares.arity_iff {values : List Value}
    (prepares : w.Prepares c m receiver args target values) (built : w.registry.Built)
    (declared : m ∈ (w.cls c).methods) :
    values.length = target.arity ↔ target.isStatic = m.isStatic := by
  rw [prepares.length, Method.arity, prepares.type built declared]
  cases target.isStatic <;> cases m.isStatic <;> simp

end World

namespace Atomic
open Registry World
variable {η : Type} {w x u : World η} {m : Method} (loader args : Reference)

theorem runOn_isOfType (ordered : x.registry.Ordered) (o : ObjectId) (name : String)
    (loader : Reference) :
    ∃ b, (isOfType o name none loader).runOn x =
        (.ok b, { x with registry := (x.registry.inScope name loader).2 }) ∧
      (b = true ↔ x.registry.Accepts (x.classOf o) name none loader) := by
  obtain ⟨b, u, ran, accepts, -⟩ := isOfType_runOn ordered o name none loader
  have state : ((isOfType o name none loader).runOn x).2 =
      { x with registry := (x.registry.inScope name loader).2 } := rfl
  rw [ran] at state
  exact ⟨b, by rw [ran, ← state], accepts⟩

section
variable (sane : w.Sane) (wrappers : w.registry.HasWrappers)
include sane wrappers

theorem runOn_convert (widened : w.Widened x) (a : Reference) (t : FieldType)
    (mismatch : Failure) :
    ∃ r u, (convert a t none loader mismatch).runOn x = (r, u) ∧ w.Widened u ∧
      ∀ v r', w.Converts loader x.registry a t v r' ↔ r = .ok v ∧ r' = u.registry := by
  have built := widened.registry.built sane.built
  unfold convert
  cases type : t.primitive? with
  | some p =>
    obtain rfl : t = .primitive p := by
      cases t with
      | primitive q =>
        cases type
        rfl
      | object | array => cases type
    have held (o : ObjectId) (b : Value) : Atomic.unbox? x o = some b ↔ ∃ q, w.Holds o q b := by
      rw [widened.unbox? (sane.objects o), unbox?_iff sane.built wrappers (sane.objects o)]
    have comes (v : Value) : (a.bind (Atomic.unbox? x)).bind (·.widen p) = some v ↔
        ∃ o q b, a = some o ∧ w.Holds o q b ∧ b.widen p = some v := by
      simp only [Option.bind_eq_some_iff, held]
      exact ⟨fun ⟨b, ⟨o, given, q, holds⟩, wide⟩ => ⟨o, q, b, given, holds, wide⟩,
        fun ⟨o, q, b, given, holds, wide⟩ => ⟨b, ⟨o, given, q, holds⟩, wide⟩⟩
    dsimp only
    rw [runOn_get_bind]
    simp only [converts_primitive_iff, ← comes]
    cases (a.bind (Atomic.unbox? x)).bind (·.widen p) with
    | some v => exact ⟨.ok v, x, rfl, widened, fun v' r' => by simp⟩
    | none => exact ⟨.error mismatch, x, rfl, widened, fun v' r' => by simp⟩
  | none =>
    cases a with
    | none =>
      refine ⟨.ok .null, x, rfl, widened, fun v' r' => ?_⟩
      rw [converts_null_iff type, Except.ok.injEq, eq_comm (a := Value.null)]
    | some o =>
      obtain ⟨b, ran, accepts⟩ := runOn_isOfType built.ordered o t.className loader
      have loads : w.Widened { x with registry := (x.registry.inScope t.className loader).2 } :=
        ⟨widened.registry.trans (inScope_widens built.ordered _ _), widened.heap⟩
      rw [show x.classOf o = w.classOf o from congrArg (·.classOf o) widened.heap] at accepts
      dsimp only
      rw [runOn_bind, ran]
      simp only [converts_object_iff type, ← accepts]
      cases b with
      | true => exact ⟨.ok (.ref (some o)), _, rfl, loads, fun v' r' => by simp [eq_comm]⟩
      | false => exact ⟨.error mismatch, _, rfl, loads, fun v' r' => by simp⟩

theorem runOn_mapM_convert (widened : w.Widened x) {refs : List Reference}
    {types : List FieldType} (count : refs.length = types.length) (mismatch : Failure) :
    ∃ r u, ((refs.zip types).mapM fun a => convert a.1 a.2 none loader mismatch).runOn x = (r, u) ∧
      w.Widened u ∧ ∀ vs, w.ConvertsAll loader x.registry refs types vs ↔ r = .ok vs := by
  induction refs generalizing types x with
  | nil =>
    obtain rfl := List.length_eq_zero_iff.mp count.symm
    refine ⟨.ok [], x, rfl, widened, fun vs => ⟨?_, ?_⟩⟩
    · rintro ⟨⟩
      rfl
    · rintro ⟨⟩
      exact .nil
  | cons a refs ih =>
    obtain ⟨t, types, rfl⟩ := List.exists_cons_of_length_eq_add_one count.symm
    obtain ⟨q, v, ran, first, one⟩ := runOn_convert loader sane wrappers widened a t mismatch
    -- all convert exactly if the first one does and then the others do
    have each (vs : List Value) : w.ConvertsAll loader x.registry (a :: refs) (t :: types) vs ↔
        ∃ value values, vs = value :: values ∧ q = .ok value ∧
          w.ConvertsAll loader v.registry refs types values := by
      constructor
      · rintro ⟨⟩
        rename_i head rest
        obtain ⟨same, rfl⟩ := (one _ _).mp head
        exact ⟨_, _, rfl, same, rest⟩
      · rintro ⟨value, values, rfl, same, rest⟩
        exact .cons ((one _ _).mpr ⟨same, rfl⟩) rest
    rw [List.zip_cons_cons, List.mapM_cons, runOn_bind, ran]
    simp only [each]
    cases q with
    | error f => exact ⟨.error f, v, rfl, first, fun vs => by simp⟩
    | ok value =>
      obtain ⟨q, u, ran', second, others⟩ := ih first (Nat.succ.inj count)
      dsimp only
      rw [runOn_bind, ran']
      simp only [others]
      cases q with
      | error f => exact ⟨.error f, u, rfl, second, fun vs => by simp⟩
      | ok values => exact ⟨.ok (value :: values), u, rfl, second, fun vs => by simp [eq_comm]⟩

omit sane wrappers in
theorem runOn_argumentRefs (heap : x.heap = w.heap) :
    ∃ r, (Exec.argumentRefs args).runOn x = (r, x) ∧ ∀ refs, w.Arguments args refs ↔ r = .ok refs := by
  unfold Exec.argumentRefs
  cases args with
  | none =>
    refine ⟨.ok [], rfl, fun refs => ⟨?_, ?_⟩⟩
    · rintro ⟨⟩
      rfl
    · rintro ⟨⟩
      exact .none
  | some o =>
    dsimp only
    rw [runOn_get_bind, heap]
    have found (refs : List Reference) : w.Arguments (some o) refs ↔
        ∃ a, ((w.heap.get o).elements?.bind Elements.references?) = some a ∧ refs = a.toList := by
      simp only [Option.bind_eq_some_iff]
      constructor
      · intro given
        cases given with
        | @array _ e refs elements references => exact ⟨refs, ⟨e, elements, references⟩, rfl⟩
      · rintro ⟨a, ⟨e, elements, references⟩, rfl⟩
        exact .array elements references
    simp only [found]
    cases (w.heap.get o).elements?.bind Elements.references? with
    | some refs => exact ⟨.ok refs.toList, rfl, fun refs' => by simp [eq_comm]⟩
    | none => exact ⟨.error .argumentsNotAnArray, rfl, fun refs' => by simp⟩

theorem runOn_convertArguments (widened : w.Widened x) (registry : x.registry = w.registry) :
    ∃ r u, (Exec.convertArguments m loader args).runOn x = (r, u) ∧ w.Widened u ∧
      ∀ vs, (∃ refs, w.Arguments args refs ∧
        w.ConvertsAll loader w.registry refs m.type.params vs) ↔ r = .ok vs := by
  obtain ⟨q, read, given⟩ := runOn_argumentRefs args widened.heap
  unfold Exec.convertArguments
  rw [runOn_bind, read]
  simp only [given]
  cases q with
  | error f => exact ⟨.error f, x, rfl, widened, fun vs => by simp⟩
  | ok refs =>
    by_cases count : refs.length = m.type.params.length
    · obtain ⟨r, u, ran, loads, all⟩ :=
        runOn_mapM_convert loader sane wrappers widened count .argumentTypeMismatch
      refine ⟨r, u, ?_, loads, fun vs => ?_⟩
      · dsimp only
        rw [if_neg (by simpa using count)]
        exact ran
      · rw [← all, registry]
        simp
    · refine ⟨.error .argumentCountMismatch, x, ?_, widened, fun vs => ⟨?_, nofun⟩⟩
      · dsimp only
        rw [if_pos count]
        rfl
      · rintro ⟨refs', same, converts⟩
        cases same
        exact absurd converts.length.1 count

end

end Atomic

namespace Exec
open Registry World
variable {η : Type} {code : Code η} {w v u : World η} {env e : Env} {c : ClassId} {slot : Nat}
  {m target : Method} {receiver args : Reference} {values : List Value}

theorem unaided_read {α : Type} {x : Atomic η α} {q : Except Failure α}
    {T : Except Failure α → Env → World η → Prop} (like : w.Like v)
    (reads : ∀ y, w.Like y → x.runOn y = (q, y)) (holds : ∀ d y, w.Like y → T q d y) :
    Unaided Undisturbed Widened v env (act x) T := by
  refine unaided_act fun y refs change => ?_
  cases change
  have during := like.trans (.during v (env.references ++ refs))
  rw [reads _ during]
  exact ⟨(Like.during _ _).widened, holds _ _ during⟩

theorem unaided_initializeClass (initialized : (v.registry.state c).phase = .initialized) :
    Unaided Undisturbed Widened v env (initializeClass c) fun r _ u => r = .ok () ∧ v.Like u := by
  unfold initializeClass initializeWithin requestInit
  refine unaided_bind (unaided_get_bind (unaided_await fun y refs change => ?_))
  cases change
  have same : v.registry.modifyState c ({ · with phase := .initialized }) = v.registry := by
    apply modifyState_same
    rw [← initialized]
  have request : ((v.during (env.references ++ refs)).registry.state c).phase.request? env.thread =
      some (.available, .initialized) := by
    rw [show (v.during (env.references ++ refs)).registry = v.registry from rfl, initialized]
    rfl
  exact ⟨.ok .available, setPhase c .initialized (v.during (env.references ++ refs)),
    by rw [request]; rfl, Like.widened ⟨same, rfl⟩, rfl, same, rfl⟩

theorem unaided_invocationTarget (initialized : (w.registry.state c).phase = .initialized)
    (like : w.Like v) :
    Unaided Undisturbed Widened v env (invocationTarget c m receiver) fun r _ u =>
      w.Like u ∧ ∀ t this, w.Selects c m receiver t this ↔ r = .ok (t, this) := by
  unfold invocationTarget
  cases static : m.isStatic with
  | true =>
    rw [if_pos rfl]
    simp only [selects_static_iff static]
    rw [← like.registry] at initialized
    refine unaided_bind ((unaided_initializeClass initialized).weaken fun r e u holds => ?_)
    obtain ⟨rfl, like'⟩ := holds
    exact unaided_pure ⟨like.trans like', fun t this => by simp⟩
  | false =>
    rw [if_neg Bool.false_ne_true]
    simp only [selects_own_iff static]
    refine unaided_bind (unaided_read like
      (fun y like => by rw [runOn_receiverOf, like.receiverOf]) fun d y like => ?_)
    cases w.receiverOf c receiver with
    | error f => exact ⟨like, fun t this => by simp⟩
    | ok o =>
      refine unaided_bind (unaided_read (q := w.registry.virtualTarget (w.classOf o) m) like
        (fun y like => ?_) fun d y like => ?_)
      · rw [Atomic.runOn_get_bind, World.classOf, World.classOf, like.registry, like.heap]
        cases w.registry.virtualTarget (w.heap.classOf o) m <;> rfl
      · cases dispatched : w.registry.virtualTarget (w.classOf o) m with
        | error f => exact ⟨like, fun t this => by simp [dispatched]⟩
        | ok t => exact unaided_pure ⟨like, fun t' this => by simp [dispatched, and_comm]⟩

/-- Before anything is called no more than array classes are loaded, and the call goes on exactly if
the receiver and the arguments fit. -/
theorem unaided_prepare (sane : w.Sane) (wrappers : w.registry.HasWrappers)
    (initialized : (w.registry.state c).phase = .initialized)
    (found : (w.cls c).method? slot = some m) :
    Unaided Undisturbed Widened w env (prepare c slot receiver args) fun r _ u =>
      w.Widened u ∧ ∀ target values, w.Prepares c m receiver args target values ↔
        r = .ok (target, values) := by
  unfold prepare
  refine unaided_bind (unaided_read (q := .ok m) (w := w) ⟨rfl, rfl⟩ (fun y like => ?_)
    fun d y like => ?_)
  · rw [methodAt, Atomic.runOn_ask_bind, World.cls, like.registry, ← World.cls, found]
    rfl
  refine unaided_bind ((unaided_invocationTarget initialized like).weaken fun r d y holds => ?_)
  obtain ⟨like, selects⟩ := holds
  cases r with
  | error f =>
    refine ⟨like.widened, fun target values => ⟨?_, fun same => by cases same⟩⟩
    rintro ⟨this, refs, converted, selected, -⟩
    cases (selects _ _).mp selected
  | ok chosen =>
    obtain ⟨target, this⟩ := chosen
    have selected := (selects target this).mpr rfl
    have type := selected.type sane.built (List.mem_of_getElem? found)
    refine unaided_bind (unaided_read (q := .ok (w.cls c).loader) like
      (fun y like => ?_) fun d y like => ?_)
    · rw [World.cls, ← like.registry]
      rfl
    refine unaided_bind (unaided_act fun z refs change => ?_)
    cases change
    have during := like.trans (.during y (d.references ++ refs))
    obtain ⟨r, u, ran, widened, converts⟩ := Atomic.runOn_convertArguments (m := target)
      (w.cls c).loader args sane wrappers during.widened during.registry
    have prepares (t : Method) (vs : List Value) : w.Prepares c m receiver args t vs ↔
        t = target ∧ ∃ converted, r = .ok converted ∧ vs = this ++ converted := by
      simp only [← converts, type]
      constructor
      · rintro ⟨this', refs', converted, selected', given, all, rfl⟩
        cases (selects _ _).mp selected'
        exact ⟨rfl, converted, ⟨refs', given, all⟩, rfl⟩
      · rintro ⟨rfl, converted, ⟨refs', given, all⟩, rfl⟩
        exact ⟨this, refs', converted, selected, given, all, rfl⟩
    rw [ran]
    simp only [prepares]
    refine ⟨?_, ?_⟩
    · exact ⟨like.registry ▸ widened.registry, widened.heap.trans like.heap.symm⟩
    · cases r with
      | error f => exact ⟨widened, fun t vs => by simp⟩
      | ok converted =>
        exact unaided_modify_bind (unaided_pure ⟨widened, fun t vs => by simp [eq_comm]⟩)

/-- A call that is let in runs the body of its method, and what that raises becomes the cause of its
own failure. -/
theorem opens_callTarget {rely does : World η → World η → Prop} {V : World η → Prop}
    (concrete : target.isAbstract = false) (bodied : target.isNative = false)
    (count : values.length = target.arity) (holds : V v) :
    Opens rely does v env (callTarget target values >>= boxed) target values V fun q r =>
      ∀ f, q = .error f → r = .error (.invocationTarget f) := by
  have body : Opens rely does v env (callMethod target values) target values V fun q r => r = q := by
    rw [callMethod_eq, concrete, if_neg Bool.false_ne_true, if_neg (by simpa using count), entered,
      bodied, if_neg Bool.false_ne_true]
    exact opens_keeping (opens_modify_bind (opens_onFrame (opens_onFrame (opens_execute holds))))
  have wrapped : Opens rely does v env (callTarget target values) target values V fun q r =>
      (∀ f, q = .error f → r = .error (.invocationTarget f)) ∧ ∀ a, r = .ok a → q = .ok a := by
    refine opens_outcome_bind body fun q r d x same => ?_
    subst same
    cases r with
    | ok a => exact unaided_pure ⟨nofun, fun _ same => same⟩
    | error f => exact unaided_conclude ⟨fun _ same => by cases same; rfl, nofun⟩
  refine wrapped.bind (fun q a d x holds => ?_) fun q f holds g failed => ?_
  · obtain rfl := holds.2 a rfl
    cases a with
    | none => exact unaided_pure nofun
    | some value => exact unaided_act fun y refs change => ⟨trivial, nofun⟩
  · cases holds.1 g failed
    rfl

/-- A call that is not let in fails at once. -/
theorem unaided_callTarget {rely does : World η → World η → Prop}
    (refused : target.isAbstract = true ∨ values.length ≠ target.arity) :
    Unaided rely does v env (callTarget target values >>= boxed) fun r _ u =>
      (∃ f, r = .error f) ∧ u = v := by
  have failed : ∃ f, (callMethod target values : Exec η _) = throw f := by
    rw [callMethod_eq]
    by_cases abstract : target.isAbstract = true
    · exact ⟨_, if_pos abstract⟩
    · rw [if_neg abstract, if_pos (refused.resolve_left abstract)]
      exact ⟨_, rfl⟩
  obtain ⟨f, failed⟩ := failed
  rw [callTarget, failed]
  exact unaided_bind (unaided_bind (unaided_outcome (unaided_conclude
    (unaided_conclude ⟨⟨_, rfl⟩, rfl⟩))))

theorem undisturbed_trans {w v u : World η} (first : Undisturbed w v) (second : Undisturbed v u) :
    Undisturbed w u := second.trans first

section invoke
variable (sane : w.Sane) (wrappers : w.registry.HasWrappers)
  (initialized : (w.registry.state c).phase = .initialized)
  (found : (w.cls c).method? slot = some m)
include sane wrappers initialized found

theorem entersOnce_invokeMember (admits : w.Admits c m receiver args target values)
    (bodied : target.isNative = false) (same : target.isStatic = m.isStatic) :
    Activity.EntersOnce code Undisturbed w ((invokeMember c slot receiver args).runIn env) target
      values w.Widened fun q r => ∀ f, q = .error f → r.1 = .error (.invocationTarget f) := by
  have opens : Opens Undisturbed Widened w env (invokeMember c slot receiver args) target values
      w.Widened fun q r => ∀ f, q = .error f → r = .error (.invocationTarget f) := by
    rw [invokeMember_eq]
    refine ((unaided_prepare sane wrappers initialized found).weaken fun r d v holds => ?_).opens_bind
    obtain ⟨widened, prepares⟩ := holds
    refine ⟨(target, values), (prepares target values).mp admits.toPrepares, ?_⟩
    refine opens_callTarget admits.concrete bodied ?_ widened
    exact (admits.toPrepares.arity_iff sane.built (List.mem_of_getElem? found)).mpr same
  exact Activity.entersOnce_of_opens undisturbed_refl undisturbed_trans opens

theorem endsUnaided_invokeMember
    (refused : ∀ target values, w.Admits c m receiver args target values →
      target.isStatic ≠ m.isStatic) :
    EndsUnaided code Undisturbed w env (invokeMember c slot receiver args) fun r _ u =>
      (∃ f, r = .error f) ∧ w.Widened u := by
  refine Unaided.ends (?_ : Unaided Undisturbed Widened w env _ _) undisturbed_refl undisturbed_trans code
  rw [invokeMember_eq]
  refine unaided_bind ((unaided_prepare sane wrappers initialized found).weaken fun r d v holds => ?_)
  obtain ⟨widened, prepares⟩ := holds
  cases r with
  | error f => exact ⟨⟨f, rfl⟩, widened⟩
  | ok chosen =>
    obtain ⟨target, values⟩ := chosen
    have fits := (prepares target values).mpr rfl
    refine (unaided_callTarget ?_).weaken fun r d u holds => ⟨holds.1, holds.2 ▸ widened⟩
    by_contra entered
    rw [not_or, not_not, fits.arity_iff sane.built (List.mem_of_getElem? found)] at entered
    exact refused target values ⟨fits, Bool.eq_false_iff.mpr entered.1⟩ entered.2

/-- A reflective call comes to the body of a method with these values exactly if receiver and
arguments fit, the method is the one that is selected, it is not abstract, the values are the receiver
and the converted arguments, and the method is static where the one asked for is. It enters that body
once, and a failure of the body comes back as the cause of its own. A call that comes to no body fails,
and has changed nothing but that array classes may have been loaded. -/
theorem invoke_enters_iff
    (bodied : ∀ target this, w.Selects c m receiver target this → target.isNative = false) :
    (∀ target values,
      (∃ v, Activity.Enters code Undisturbed w ((invokeMember c slot receiver args).runIn env)
        target values v) ↔
      w.Admits c m receiver args target values ∧ target.isStatic = m.isStatic) ∧
    (∀ target values, w.Admits c m receiver args target values → target.isStatic = m.isStatic →
      Activity.EntersOnce code Undisturbed w ((invokeMember c slot receiver args).runIn env) target
        values w.Widened fun q r => ∀ f, q = .error f → r.1 = .error (.invocationTarget f)) ∧
    ((∀ target values, w.Admits c m receiver args target values → target.isStatic ≠ m.isStatic) →
      EndsUnaided code Undisturbed w env (invokeMember c slot receiver args) fun r _ u =>
        (∃ f, r = .error f) ∧ w.Widened u) := by
  have once (target : Method) (values : List Value)
      (admits : w.Admits c m receiver args target values) (same : target.isStatic = m.isStatic) :
      Activity.EntersOnce code Undisturbed w ((invokeMember c slot receiver args).runIn env) target
        values w.Widened fun q r => ∀ f, q = .error f → r.1 = .error (.invocationTarget f) := by
    obtain ⟨this, _, _, selects, -⟩ := admits.toPrepares
    exact entersOnce_invokeMember sane wrappers initialized found admits (bodied target this selects) same
  refine ⟨fun target values => ⟨?_, fun ⟨admits, same⟩ => (once target values admits same).enters⟩,
    once, endsUnaided_invokeMember sane wrappers initialized found⟩
  rintro ⟨v, enters⟩
  by_cases admitted : ∃ target values, w.Admits c m receiver args target values ∧
      target.isStatic = m.isStatic
  · obtain ⟨target', values', admits, same⟩ := admitted
    obtain ⟨rfl, rfl, -⟩ := (once target' values' admits same).only target values v enters
    exact ⟨admits, same⟩
  · obtain ⟨env', next, reaches⟩ := enters
    have refused : EndsUnaided code Undisturbed w env (invokeMember c slot receiver args)
        fun r _ u => (∃ f, r = .error f) ∧ w.Widened u :=
      endsUnaided_invokeMember sane wrappers initialized found fun target values admits same =>
        admitted ⟨target, values, admits, same⟩
    cases refused.inactive _ _ (reaches.tail .execute)

end invoke

end Exec

/-! A class that takes arguments, and one that inherits a static method and an instance method. -/

def Registry.KeepsOwn (r : Registry) (c : ClassId) : Prop :=
  ∀ s ∈ (r.cls c).methods, s.isStatic = true → ∀ j, j < r.loaded.size → ∀ m ∈ (r.cls ⟨j⟩).methods,
    r.assignable c ⟨j⟩ = true → s.name = m.name → s.descriptor = m.descriptor → m.isStatic = true

instance (r : Registry) (c : ClassId) : Decidable (r.KeepsOwn c) :=
  inferInstanceAs (Decidable (∀ s ∈ (r.cls c).methods, _))

/-- No method is abstract and also static or private, and no class declares as static what it inherits
as an instance method. -/
def Registry.Regular (r : Registry) : Prop :=
  ∀ i, i < r.loaded.size → r.KeepsOwn ⟨i⟩ ∧ ∀ m ∈ (r.cls ⟨i⟩).methods, m.isAbstract = true →
    m.isStatic = false ∧ m.isPrivate = false

instance (r : Registry) : Decidable r.Regular :=
  inferInstanceAs (Decidable (∀ i, i < r.loaded.size → _))

namespace Exec
open Registry World

/-- `t/R` extends `t/S`, which has a static `f`, and implements `t/I`, which has one for instances. -/
def offering : Registry :=
  let s := (taggedReady.define ((ClassDef.named "t/S").method "f" "()V" (.isPublic ||| .isStatic))
    none).2
  let i := (s.define ((ClassDef.interfaceNamed "t/I").publicMethod "f" "()V") none).2
  let r := (i.define (((ClassDef.named "t/R").extending "t/S").implementing "t/I") none).2
  (r.define ((ClassDef.named "t/P").publicMethod "put" "(JLt/P;)V") none).2

def offeringReady : Registry :=
  (offering.modifyState ⟨30⟩ ({ · with phase := .initialized })).modifyState ⟨32⟩
    ({ · with phase := .initialized })

theorem built_offeringReady : offeringReady.Built ∧ Later taggedReady offeringReady := by
  have built : taggedReady.Built := ((reaches_tagged.built .empty).modifyState _ _).modifyState _ _
  have reaches : Reaches taggedReady offering :=
    (((Relation.ReflTransGen.refl.tail (.define _ none)).tail (.define _ none)).tail
      (.define _ none)).tail (.define _ none)
  exact ⟨((reaches.built built).modifyState _ _).modifyState _ _,
    ((reaches.later built).trans (.modifyState _ _)).trans (.modifyState _ _)⟩

def offeredMethod (c : ClassId) : Method :=
  ((offeringReady.cls c).method? 0).getD ⟨⟨0⟩, "", "", "", ⟨[], none⟩, .empty, 0⟩

def offeringWorld : World Unit :=
  let byteBox := (offeringReady.find? Primitive.byte.wrapper none).getD ⟨0⟩
  { Boot.initialWorld .silent offeringReady 0 with
    heap := { Heap.empty 0 0 with objects := #[
      { cls := ⟨31⟩, fields := #[], payload := .plain },
      { cls := ⟨32⟩, fields := #[], payload := .plain },
      { cls := byteBox, fields := #[.int 5], payload := .plain },
      { cls := ⟨9⟩, fields := #[], payload := .array (.references [some ⟨2⟩, some ⟨1⟩]) }] } }

theorem offering_evaluated :
    (offeringReady.Regular ∧ offeringReady.loaded.size = 33 ∧
      (offeringWorld.classOf ⟨2⟩).index < 33 ∧ Atomic.unbox? offeringWorld ⟨2⟩ = some (.byte 5)) ∧
    ((offeringReady.state ⟨30⟩).phase = .initialized ∧ (offeringReady.state ⟨32⟩).phase = .initialized ∧
      (offeringReady.cls ⟨30⟩).method? 0 = some (offeredMethod ⟨30⟩) ∧
      (offeringReady.cls ⟨32⟩).method? 0 = some (offeredMethod ⟨32⟩)) ∧
    (offeringReady.assignable ⟨31⟩ ⟨30⟩ = true ∧ offeringReady.assignable ⟨32⟩ ⟨32⟩ = true ∧
      offeringReady.virtualTarget ⟨31⟩ (offeredMethod ⟨30⟩) = .ok (offeredMethod ⟨29⟩) ∧
      offeringReady.virtualTarget ⟨32⟩ (offeredMethod ⟨32⟩) = .ok (offeredMethod ⟨32⟩)) ∧
    ((offeredMethod ⟨29⟩).isStatic = true ∧ (offeredMethod ⟨29⟩).isAbstract = false ∧
      (offeredMethod ⟨29⟩).isNative = false ∧
      (offeredMethod ⟨30⟩).isStatic = false ∧ (offeredMethod ⟨30⟩).type.params = []) ∧
    ((offeredMethod ⟨32⟩).isStatic = false ∧ (offeredMethod ⟨32⟩).isAbstract = false ∧
      (offeredMethod ⟨32⟩).isNative = false ∧
      (offeredMethod ⟨32⟩).type.params = [.primitive .long, .object "t/P"]) ∧
    (offeringReady.cls ⟨32⟩).loader = none ∧ (offeringReady.inScope "t/P" none).1 = some ⟨32⟩ ∧
      (offeringReady.inScope "t/P" none).2.assignable ⟨32⟩ ⟨32⟩ = true := by
  decide +kernel

theorem sane_offeringWorld : offeringWorld.Sane where
  built := built_offeringReady.1
  objects o := by
    obtain ⟨⟨-, size, box, -⟩, -⟩ := offering_evaluated
    rw [show offeringWorld.registry = offeringReady from rfl, size]
    obtain ⟨_ | _ | _ | _ | n⟩ := o
    · exact (by decide : 31 < 33)
    · exact (by decide : 32 < 33)
    · exact box
    · exact (by decide : 9 < 33)
    · exact (by decide : 0 < 33)
  mirrors o c found := by
    obtain ⟨_ | _ | _ | _ | n⟩ := o <;> cases found

theorem hasWrappers_offeringReady : offeringReady.HasWrappers :=
  hasWrappers_taggedReady.later built_offeringReady.1 built_offeringReady.2

/-- A byte in a box is passed as a long, and an object of the class as itself. -/
theorem put_entered :
    offeringWorld.Sane ∧ offeringReady.HasWrappers ∧
      (offeringReady.state ⟨32⟩).phase = .initialized ∧
      (offeringWorld.cls ⟨32⟩).method? 0 = some (offeredMethod ⟨32⟩) ∧
      (∀ target this, offeringWorld.Selects ⟨32⟩ (offeredMethod ⟨32⟩) (some ⟨1⟩) target this →
        target.isNative = false) ∧
      ∃ v, Activity.Enters noCode Undisturbed offeringWorld
        ((invokeMember ⟨32⟩ 0 (some ⟨1⟩) (some ⟨3⟩)).runIn (.new ⟨0⟩ 8)) (offeredMethod ⟨32⟩)
        [.ref (some ⟨1⟩), .long 5, .ref (some ⟨1⟩)] v := by
  obtain ⟨⟨-, -, -, unboxed⟩, ⟨-, initialized, -, found⟩, ⟨-, valid, -, dispatched⟩, -,
    ⟨own, concrete, bodied, params⟩, bootstrap, seen, assignable⟩ := offering_evaluated
  have selected (target : Method) (this : List Value)
      (selects : offeringWorld.Selects ⟨32⟩ (offeredMethod ⟨32⟩) (some ⟨1⟩) target this) :
      target.isNative = false := by
    cases selects with
    | static => exact bodied
    | own _ given _ dispatched' =>
      cases given
      cases dispatched.symm.trans dispatched'
      exact bodied
  have enters := @invoke_enters_iff Unit noCode offeringWorld (.new ⟨0⟩ 8) ⟨32⟩ 0 (offeredMethod ⟨32⟩)
    (some ⟨1⟩) (some ⟨3⟩) sane_offeringWorld hasWrappers_offeringReady initialized found selected
  refine ⟨sane_offeringWorld, hasWrappers_offeringReady, initialized, found, selected, ?_⟩
  obtain ⟨p, holds⟩ := (unbox?_iff built_offeringReady.1 hasWrappers_offeringReady
    (sane_offeringWorld.objects ⟨2⟩)).mp unboxed
  refine (enters.1 _ _).mpr ⟨⟨⟨_, [some ⟨2⟩, some ⟨1⟩], [.long 5, .ref (some ⟨1⟩)],
    .own own rfl valid dispatched, .array rfl rfl, ?_, rfl⟩, concrete⟩, rfl⟩
  rw [params, show (offeringWorld.cls ⟨32⟩).loader = none from bootstrap]
  exact .cons (.primitive holds (by decide)) (.cons
    (.object rfl (.inr ⟨nofun, .inl ⟨⟨32⟩, seen, assignable⟩⟩)) .nil)

/-- Nothing is redeclared, receiver and arguments fit and a method with a body is selected, but it is
a static one of a superclass, and the call does not come to it. -/
theorem inherited_static_refused :
    offeringWorld.Sane ∧ offeringReady.HasWrappers ∧ offeringReady.Regular ∧
      (offeringReady.state ⟨30⟩).phase = .initialized ∧
      (offeringWorld.cls ⟨30⟩).method? 0 = some (offeredMethod ⟨30⟩) ∧
      (offeredMethod ⟨29⟩).isNative = false ∧
      offeringWorld.Admits ⟨30⟩ (offeredMethod ⟨30⟩) (some ⟨0⟩) none (offeredMethod ⟨29⟩)
        [.ref (some ⟨0⟩)] ∧
      ¬ ∃ v, Activity.Enters noCode Undisturbed offeringWorld
        ((invokeMember ⟨30⟩ 0 (some ⟨0⟩) none).runIn (.new ⟨0⟩ 8)) (offeredMethod ⟨29⟩)
        [.ref (some ⟨0⟩)] v := by
  obtain ⟨⟨regular, -⟩, ⟨initialized, -, found, -⟩, ⟨valid, -, dispatched, -⟩,
    ⟨static, concrete, bodied, own, noParams⟩, -⟩ := offering_evaluated
  have admits : offeringWorld.Admits ⟨30⟩ (offeredMethod ⟨30⟩) (some ⟨0⟩) none (offeredMethod ⟨29⟩)
      [.ref (some ⟨0⟩)] := by
    refine ⟨⟨_, [], [], .own own rfl valid dispatched, .none, ?_, rfl⟩, concrete⟩
    rw [noParams]
    exact .nil
  refine ⟨sane_offeringWorld, hasWrappers_offeringReady, regular, initialized, found, bodied, admits, ?_⟩
  rintro ⟨v, env, next, reaches⟩
  have refused : EndsUnaided noCode Undisturbed offeringWorld (.new ⟨0⟩ 8)
      (invokeMember ⟨30⟩ 0 (some ⟨0⟩) none) fun r _ u =>
        (∃ f, r = .error f) ∧ offeringWorld.Widened u := by
    refine endsUnaided_invokeMember sane_offeringWorld hasWrappers_offeringReady initialized found
      fun target values admits same => ?_
    obtain ⟨this, _, _, selects, -⟩ := admits.toPrepares
    cases selects with
    | static static => exact absurd (static.symm.trans own) (by decide)
    | own _ given _ selected =>
      cases given
      cases dispatched.symm.trans selected
      exact absurd (static.symm.trans (same.trans own)) (by decide)
  cases refused.inactive _ _ (reaches.tail .execute)

end Exec
end ManagedRuntime
