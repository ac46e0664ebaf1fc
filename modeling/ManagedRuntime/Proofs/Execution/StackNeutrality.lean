import ManagedRuntime.Boot.Basic
import ManagedRuntime.Proofs.Execution.Calls
import Mathlib.Control.Monad.Basic

/-!
What a call through `callMethod` leaves on the operand stack. A native body is only trusted to leave
the slots below its base alone. Main statement: the stack is as before the call, unless the native
call succeeded with result slots that hold no value of the declared type; those slots stay.
-/
namespace ManagedRuntime

namespace OperandStack

theorem toList_truncate (s : OperandStack) (n : Nat) :
    (s.truncate n).slots.toList = s.slots.toList.take n := by
  simp [truncate]

theorem pushAll_of_room (s : OperandStack) (xs : List Slot)
    (room : s.size + xs.length ≤ s.capacity) :
    s.pushAll xs = (.ok (), { s with slots := s.slots ++ xs.toArray }) := by
  induction xs generalizing s with
  | nil => simp [pushAll]
  | cons x xs ih =>
    rw [List.length_cons] at room
    have fits : s.size < s.capacity := by omega
    have rest := ih { s with slots := s.slots.push x } (by simp [size] at room ⊢; omega)
    simp [pushAll, push, fits, rest]

def AgreeBelow (n : Nat) (s t : OperandStack) : Prop :=
  s.slots.toList.take n = t.slots.toList.take n

theorem AgreeBelow.le_size {n : Nat} {s t : OperandStack} (agree : AgreeBelow n s t)
    (inside : n ≤ t.size) : n ≤ s.size := by
  have length := congrArg List.length agree
  simp only [List.length_take, Array.length_toList] at length
  simp only [size] at inside ⊢
  omega

end OperandStack

namespace Exec
variable {η : Type} {code : Code η} {rely : World η → World η → Prop} {w u : World η}
  {env e : Env} {m : Method}

open OperandStack

def KeepsBelow (code : Code η) (rely : World η → World η → Prop) (f : NativeFunction) : Prop :=
  ∀ ⦃w env call r e u⦄, call.base ≤ env.stack.size →
    Ends code rely w env (code.native f call) r e u → AgreeBelow call.base e.stack env.stack

def Links (rely : World η → World η → Prop) (w : World η) (m : Method) (f : NativeFunction) :
    Prop :=
  ∃ x refs v, rely w x ∧ (Atomic.link m).runOn (x.during refs) = (.ok f, v)

theorem Ends.body {f : NativeFunction} {base : Nat} {r : Except Failure Nat}
    (ends : Ends code rely w env (onFrame (.real m) (releasing (native f ⟨m, base⟩))) r e u)
    (inside : base ≤ env.stack.size) (keeps : KeepsBelow code rely f) :
    AgreeBelow base e.stack env.stack := by
  obtain ⟨d, framed, rfl⟩ := ends_onFrame.mp ends
  obtain ⟨d, ran, rfl⟩ := ends_keeping.mp framed
  exact keeps inside (ends_native.mp ran)

theorem Ends.runBound {base : Nat} {r : Except Failure Nat}
    (ends : Ends code rely w env (runBound m base) r e u) (inside : base ≤ env.stack.size)
    (keeps : ∀ f, Links rely w m f → KeepsBelow code rely f) :
    AgreeBelow base e.stack env.stack ∧
      ∀ top, r = .ok top → top = base + m.layout.resultSlots ∧ e.stack.size = top := by
  rcases ends_bind.mp ends with ⟨f, failed, rfl⟩ | ⟨f, d, v, linked, rest⟩
  · obtain ⟨x, refs, change, link, rfl⟩ := ends_act.mp failed
    exact ⟨rfl, fun top same => by cases same⟩
  obtain ⟨x, refs, change, link, rfl⟩ := ends_act.mp linked
  have bodyKeeps := keeps f ⟨x, _, v, change, link⟩
  rcases ends_bind.mp rest with ⟨g, failed, rfl⟩ | ⟨top, d, v, ran, rest⟩
  · exact ⟨failed.body inside bodyKeeps, fun top same => by cases same⟩
  -- Any height that the native returns is compared with the right one and with the stack.
  have agree := ran.body inside bodyKeeps
  have checked := ends_get_bind.mp rest
  split at checked
  · rename_i right
    obtain ⟨rfl, rfl, -⟩ := ends_pure.mp checked
    refine ⟨agree, fun height same => ?_⟩
    cases same
    exact right
  · obtain ⟨rfl, rfl, -⟩ := ends_throw.mp checked
    exact ⟨agree, fun top same => by cases same⟩

theorem Ends.dispatch {r : Except Failure Nat}
    (ends : Ends code rely w env (dispatch m) r e u) (present : m.layout.argSlots ≤ env.stack.size)
    (keeps : ∀ f, Links rely w m f → KeepsBelow code rely f) :
    let base := env.stack.size - m.layout.argSlots
    match r with
    | .ok _ => AgreeBelow base e.stack env.stack ∧ e.stack.size = base + m.layout.resultSlots
    | .error _ => e.stack.slots.toList = env.stack.slots.toList.take base := by
  intro base
  have inside : base ≤ env.stack.size := by omega
  have ran := ends_get_bind.mp ends
  rw [if_neg (by omega)] at ran
  obtain ⟨d, bound, rfl⟩ := ends_truncatingTo.mp ran
  obtain ⟨agree, right⟩ := bound.runBound inside keeps
  cases r with
  | ok top =>
    obtain ⟨height, size⟩ := right top rfl
    exact ⟨agree, size.trans height⟩
  | error f => exact (toList_truncate _ _).trans agree

/-- A native call on present arguments leaves either exactly what is below them, or that and the
result. -/
theorem Ends.invokeNative {r : Except Failure Nat}
    (ends : Ends code rely w env (invokeNative m) r e u)
    (present : m.layout.argSlots ≤ env.stack.size)
    (keeps : ∀ f, Links rely w m f → KeepsBelow code rely f) :
    let base := env.stack.size - m.layout.argSlots
    match r with
    | .ok _ => AgreeBelow base e.stack env.stack ∧ e.stack.size = base + m.layout.resultSlots
    | .error _ => e.stack.slots.toList = env.stack.slots.toList.take base := by
  obtain ⟨q, d, v, dispatched, rest⟩ := ends_outcome_bind.mp ends
  have left := dispatched.dispatch present keeps
  cases q with
  | ok top =>
    obtain ⟨rfl, rfl, -⟩ := ends_pure.mp rest
    exact left
  | error f =>
    obtain ⟨rfl, rfl, -⟩ := ends_throw.mp (ends_modify_bind.mp rest)
    exact left

def result? (m : Method) (base : Nat) (s : OperandStack) : Option Value :=
  m.type.result.bind fun t => s.read base t.primitive?

def readable (m : Method) (base : Nat) (s : OperandStack) : Bool :=
  m.type.result.isNone || (result? m base s).isSome

theorem ends_takeResult {base : Nat} {r : Except Failure (Option Value)} :
    Ends code rely w env (takeResult m base) r e u ↔
      (if readable m base env.stack then
        r = .ok (result? m base env.stack) ∧ e = env.truncate base
      else r = .error (.noResult m.text) ∧ e = env) ∧ u = w := by
  unfold takeResult readable result?
  cases m.type.result with
  | none =>
    rw [ends_modify_bind, ends_pure]
    simp [and_assoc]
  | some t =>
    rw [ends_get_bind]
    cases found : env.stack.read base t.primitive? with
    | none =>
      rw [ends_throw]
      simp [and_assoc, found]
    | some v =>
      rw [ends_modify_bind, ends_pure]
      simp [and_assoc, found]

def pushed (env : Env) (slots : List Slot) : Env :=
  { env with stack.slots := env.stack.slots ++ slots.toArray }

theorem ends_pushArguments {slots : List Slot} {r : Except Failure Unit} :
    Ends code rely w env (pushArguments slots) r e u ↔
      (if env.stack.size + slots.length ≤ env.stack.capacity then
        r = .ok () ∧ e = pushed env slots
      else r = .error .stackOverflow ∧ e = env) ∧ u = w := by
  unfold pushArguments
  rw [ends_get_bind]
  by_cases room : env.stack.size + slots.length ≤ env.stack.capacity
  · have fits : env.stack.ensure slots.length = .ok () := by simp [ensure, hasRoom, room]
    rw [fits, ends_conclude_bind, ends_onEnv, pushAll_of_room _ _ room]
    simp [room, pushed]
  · have full : env.stack.ensure slots.length = .error .stackOverflow := by
      simp [ensure, hasRoom, room]
    rw [full, ends_conclude_bind]
    simp [room, and_assoc]

def fits (m : Method) (args : List Value) (s : OperandStack) : Prop :=
  (args.flatMap Value.slots).length = m.layout.argSlots ∧
    s.size + (args.flatMap Value.slots).length ≤ s.capacity

theorem ends_callOnStack {args : List Value} {r : Except Failure (Option Value)}
    (fit : fits m args env.stack) :
    Ends code rely w env (callOnStack m args) r e u ↔
      ∃ q d v, Ends code rely w (pushed env (args.flatMap Value.slots)) (invokeNative m) q d v ∧
        match q with
        | .ok _ => Ends code rely v d (takeResult m env.stack.size) r e u
        | .error f => r = .error f ∧ e = { d.truncate env.stack.size with pending := none } ∧
          u = v := by
  obtain ⟨count, room⟩ := fit
  unfold callOnStack
  rw [ends_get_bind, if_neg (by simpa using count), ends_bind]
  simp only [ends_pushArguments, if_pos room]
  constructor
  · rintro (⟨f, ⟨⟨same, -⟩, -⟩, -⟩ | ⟨_, d, v, ⟨⟨-, rfl⟩, rfl⟩, rest⟩)
    · cases same
    · obtain ⟨q, d, v, called, rest⟩ := ends_outcome_bind.mp rest
      refine ⟨q, d, v, called, ?_⟩
      cases q with
      | ok top => exact rest
      | error f => exact ends_throw.mp (ends_modify_bind.mp rest)
  · rintro ⟨q, d, v, called, rest⟩
    refine .inr ⟨(), _, w, ⟨⟨trivial, rfl⟩, rfl⟩, ends_outcome_bind.mpr ⟨q, d, v, called, ?_⟩⟩
    cases q with
    | ok top => exact rest
    | error f => exact ends_modify_bind.mpr (ends_throw.mpr rest)

theorem Ends.callOnStack_refused {args : List Value} {r : Except Failure (Option Value)}
    (refused : ¬ fits m args env.stack)
    (ends : Ends code rely w env (callOnStack m args) r e u) : e = env := by
  unfold callOnStack at ends
  rw [ends_get_bind] at ends
  by_cases count : (args.flatMap Value.slots).length = m.layout.argSlots
  · have full : ¬ env.stack.size + (args.flatMap Value.slots).length ≤ env.stack.capacity :=
      fun room => refused ⟨count, room⟩
    rw [if_neg (by simpa using count), ends_bind] at ends
    simp only [ends_pushArguments, if_neg full] at ends
    rcases ends with ⟨f, ⟨⟨-, same⟩, -⟩, -⟩ | ⟨_, d, v, ⟨⟨impossible, -⟩, -⟩, -⟩
    · exact same
    · cases impossible
  · rw [if_pos count] at ends
    exact (ends_throw_bind.mp ends).2.1

theorem size_pushed (env : Env) (slots : List Slot) :
    (pushed env slots).stack.size = env.stack.size + slots.length := by
  simp [pushed, size]

theorem agreeBelow_pushed (env : Env) (slots : List Slot) :
    AgreeBelow env.stack.size (pushed env slots).stack env.stack := by
  rw [AgreeBelow, pushed, size, Array.toList_append, ← Array.length_toList, List.take_left,
    List.take_length]

theorem toList_of_agreeBelow {s t : OperandStack} (agree : AgreeBelow t.size s t) :
    s.slots.toList.take t.size = t.slots.toList :=
  agree.trans (List.take_of_length_le (by simp [size]))

/-- The end of a native call that succeeded with slots that hold no value of its result type. -/
def Unreadable (code : Code η) (rely : World η → World η → Prop) (m : Method) (w : World η)
    (env d : Env) (base : Nat) : Prop :=
  ∃ top v, Ends code rely w env (Exec.invokeNative m) (.ok top) d v ∧
    readable m base d.stack = false

theorem Ends.callOnStack {args : List Value} {r : Except Failure (Option Value)}
    (ends : Ends code rely w env (callOnStack m args) r e u)
    (keeps : ∀ f, Links rely w m f → KeepsBelow code rely f) :
    e.stack.slots.toList = env.stack.slots.toList ∨
      fits m args env.stack ∧ r = .error (.noResult m.text) ∧
        AgreeBelow env.stack.size e.stack env.stack ∧
        e.stack.size = env.stack.size + m.layout.resultSlots ∧
        Unreadable code rely m w (pushed env (args.flatMap Value.slots)) e env.stack.size := by
  by_cases fit : fits m args env.stack
  · obtain ⟨q, d, v, called, rest⟩ := (ends_callOnStack fit).mp ends
    have base : (pushed env (args.flatMap Value.slots)).stack.size - m.layout.argSlots =
        env.stack.size := by
      rw [size_pushed, fit.1]
      omega
    have left := called.invokeNative (by rw [size_pushed, fit.1]; omega) keeps
    -- The base of the native is the height before the arguments: below it are the caller's slots.
    simp only [base] at left
    have below := agreeBelow_pushed env (args.flatMap Value.slots)
    cases q with
    | error f =>
      obtain ⟨-, rfl, -⟩ := rest
      have agree : AgreeBelow env.stack.size d.stack env.stack := by
        rw [AgreeBelow, left, List.take_take, Nat.min_self]
        exact below
      exact .inl ((toList_truncate _ _).trans (toList_of_agreeBelow agree))
    | ok top =>
      obtain ⟨agree, height⟩ := left
      obtain ⟨taken, -⟩ := ends_takeResult.mp rest
      split at taken
      · obtain ⟨-, rfl⟩ := taken
        exact .inl ((toList_truncate _ _).trans (toList_of_agreeBelow (agree.trans below)))
      · -- The one exit that does not truncate.
        rename_i unreadable
        obtain ⟨rfl, rfl⟩ := taken
        exact .inr ⟨fit, rfl, agree.trans below, height, top, v, called, by simpa using unreadable⟩
  · exact .inl (by rw [ends.callOnStack_refused fit])

def atBoundary (env : Env) (args : List Value) : Env :=
  (env.hold (Value.objects args)).pushFrame .boundary

theorem ends_callMethod {args : List Value} {r : Except Failure (Option Value)}
    (native : m.isNative = true) (concrete : m.isAbstract = false)
    (count : args.length = m.arity) :
    Ends code rely w env (callMethod m args) r e u ↔
      ∃ d, Ends code rely w (atBoundary env args) (callOnStack m args) r d u ∧
        e = { d.popFrame with
          held := outcomeObjects (fun v => Value.objects v.toList) r ++ env.held } := by
  unfold callMethod
  rw [if_neg (by simp [concrete]), if_neg (by simpa using count), ends_keeping]
  simp only [native, if_true, Exec.hold, ends_modify_bind, ends_onFrame]
  constructor
  · rintro ⟨-, ⟨d, called, rfl⟩, rfl⟩
    exact ⟨d, called, rfl⟩
  · rintro ⟨d, called, rfl⟩
    exact ⟨d.popFrame, ⟨d, called, rfl⟩, rfl⟩

theorem Ends.callMethod_refused {args : List Value} {r : Except Failure (Option Value)}
    (refused : ¬ (m.isAbstract = false ∧ args.length = m.arity))
    (ends : Ends code rely w env (callMethod m args) r e u) : e = env := by
  unfold callMethod at ends
  by_cases concrete : m.isAbstract = true
  · rw [if_pos concrete] at ends
    exact (ends_throw_bind.mp ends).2.1
  · rw [if_neg concrete] at ends
    by_cases count : args.length = m.arity
    · exact absurd ⟨by simpa using concrete, count⟩ refused
    · rw [if_pos count] at ends
      exact (ends_throw_bind.mp ends).2.1

/-- Where a call is let in and its native succeeds with slots that hold no value of the result. -/
def LeavesResult (code : Code η) (rely : World η → World η → Prop) (m : Method) (w : World η)
    (env : Env) (args : List Value) (d : Env) : Prop :=
  m.isAbstract = false ∧ args.length = m.arity ∧ fits m args env.stack ∧
    Unreadable code rely m w (pushed (atBoundary env args) (args.flatMap Value.slots)) d
      env.stack.size

theorem Ends.callMethod {args : List Value} {r : Except Failure (Option Value)}
    (ends : Ends code rely w env (callMethod m args) r e u) (native : m.isNative = true)
    (keeps : ∀ f, Links rely w m f → KeepsBelow code rely f) :
    e.stack.slots = env.stack.slots ∨
      r = .error (.noResult m.text) ∧ AgreeBelow env.stack.size e.stack env.stack ∧
        e.stack.size = env.stack.size + m.layout.resultSlots ∧
        ∃ d, LeavesResult code rely m w env args d := by
  by_cases accepted : m.isAbstract = false ∧ args.length = m.arity
  · obtain ⟨d, called, rfl⟩ := (ends_callMethod native accepted.1 accepted.2).mp ends
    rcases called.callOnStack keeps with same | ⟨fit, result, agree, height, unreadable⟩
    · exact .inl (Array.toList_inj.mp same)
    · exact .inr ⟨result, agree, height, d, accepted.1, accepted.2, fit, unreadable⟩
  · exact .inl (by rw [ends.callMethod_refused accepted])

theorem LeavesResult.ends {args : List Value} {d : Env}
    (leaves : LeavesResult code rely m w env args d) (native : m.isNative = true)
    (keeps : ∀ f, Links rely w m f → KeepsBelow code rely f) :
    ∃ r e u, Ends code rely w env (callMethod m args) r e u ∧
      e.stack.size = env.stack.size + m.layout.resultSlots := by
  obtain ⟨concrete, count, fit, top, v, called, unreadable⟩ := leaves
  have taken : Ends code rely v d (takeResult m env.stack.size) (.error (.noResult m.text)) d v :=
    ends_takeResult.mpr ⟨by simp [unreadable], rfl⟩
  have fitThere : fits m args (atBoundary env args).stack := fit
  have onStack : Ends code rely w (atBoundary env args) (Exec.callOnStack m args)
      (.error (.noResult m.text)) d v :=
    (ends_callOnStack fitThere).mpr ⟨_, d, v, called, taken⟩
  have height := (called.invokeNative (by rw [size_pushed, fit.1]; omega) keeps).2
  rw [size_pushed, fit.1, Nat.add_sub_cancel] at height
  exact ⟨_, _, v, (ends_callMethod native concrete count).mpr ⟨d, onStack, rfl⟩, height⟩

/-- A call leaves the operand stack as it was, and fails to do so exactly where the native call
itself succeeds and its result slots hold no value of the declared type. Then all of them stay. -/
theorem callMethod_neutral_iff {args : List Value} (native : m.isNative = true)
    (keeps : ∀ f, Links rely w m f → KeepsBelow code rely f) :
    ((∀ r e u, Ends code rely w env (callMethod m args) r e u →
        e.stack.slots = env.stack.slots) ↔
      m.layout.resultSlots = 0 ∨ ∀ d, ¬ LeavesResult code rely m w env args d) ∧
      ∀ r e u, Ends code rely w env (callMethod m args) r e u →
        e.stack.slots = env.stack.slots ∨
          r = .error (.noResult m.text) ∧ AgreeBelow env.stack.size e.stack env.stack ∧
            e.stack.size = env.stack.size + m.layout.resultSlots := by
  refine ⟨⟨fun neutral => ?_, fun readable r e u ends => ?_⟩, fun r e u ends => ?_⟩
  · refine Classical.or_iff_not_imp_left.mpr fun someSlots d leaves => ?_
    obtain ⟨r, e, u, ends, height⟩ := leaves.ends native keeps
    have same := congrArg Array.size (neutral r e u ends)
    simp only [size] at height
    omega
  · rcases ends.callMethod native keeps with same | ⟨-, agree, height, d, leaves⟩
    · exact same
    · rcases readable with noSlots | never
      · rw [noSlots, Nat.add_zero] at height
        have kept : e.stack.slots.toList.take env.stack.size = e.stack.slots.toList :=
          List.take_of_length_le (by simp only [size] at height; simp [height, size])
        exact Array.toList_inj.mp (kept.symm.trans (toList_of_agreeBelow agree))
      · exact absurd leaves (never d)
  · rcases ends.callMethod native keeps with same | ⟨result, agree, height, -⟩
    · exact .inl same
    · exact .inr ⟨result, agree, height⟩

/-! A native that leaves an integer where an object is declared. -/

theorem agreeBelow_pushAll {n : Nat} (s : OperandStack) (xs : List Slot) (inside : n ≤ s.size) :
    AgreeBelow n (s.pushAll xs).2 s := by
  induction xs generalizing s with
  | nil => rfl
  | cons x xs ih =>
    unfold pushAll push
    split
    · rfl
    · rename_i pushed
      split at pushed
      · cases pushed
        have longer : n ≤ ({ s with slots := s.slots.push x } : OperandStack).size := by
          simp only [size, Array.size_push] at inside ⊢
          omega
        refine (ih _ longer).trans ?_
        rw [Array.toList_push, List.take_append_of_le_length (by simpa [size] using inside)]
      · cases pushed

theorem Ends.finish {call : NativeCall} {v : Option Value} {r : Except Failure Nat}
    (ends : Ends code rely w env (finish call v) r e u) (inside : call.base ≤ env.stack.size) :
    AgreeBelow call.base e.stack env.stack := by
  have truncated : AgreeBelow call.base (env.stack.truncate call.base) env.stack := by
    rw [AgreeBelow, toList_truncate, List.take_take, Nat.min_self]
  have agree := (agreeBelow_pushAll _ ((v.map Value.slots).getD [])
    (truncated.le_size inside)).trans truncated
  rcases ends_bind.mp ends with ⟨f, failed, -⟩ | ⟨_, d, v, replaced, rest⟩
  · obtain ⟨same, -⟩ := ends_onEnv.mp failed
    cases congrArg Prod.snd same
    exact agree
  · obtain ⟨same, -⟩ := ends_onEnv.mp replaced
    have read := ends_get_bind.mp rest
    obtain ⟨-, rfl, -⟩ := ends_pure.mp read
    cases congrArg Prod.snd same
    exact agree

def objectMethod : Method where
  owner := ⟨0⟩
  className := "test/Lib"
  name := "get"
  descriptor := "()Ljava/lang/Object;"
  type := ⟨[], some (.object "java/lang/Object")⟩
  flags := ⟨0x0108⟩
  slot := 0

def integerCode : Code Unit where
  execute m _ := throw (.noCode m.text)
  native _ call := finishInt call 5

def oneNative : World Unit :=
  { Boot.initialWorld .silent .empty 0 with
    natives := ⟨[⟨"test/Lib", "get", none, .embedded 0⟩]⟩ }

theorem keepsBelow_integerCode (rely : World Unit → World Unit → Prop) (f : NativeFunction) :
    KeepsBelow integerCode rely f :=
  fun _ _ _ _ _ _ inside ends => ends.finish inside

theorem leavesResult_integer :
    ∃ d, LeavesResult integerCode (fun _ _ => True) objectMethod oneNative (.new ⟨0⟩ 8) [] d := by
  let env := pushed (atBoundary (.new ⟨0⟩ 8) []) []
  let ended := Machine.run integerCode (fun _ => .done ()) 8
    ((Exec.invokeNative objectMethod).runIn env) ⟨oneNative, []⟩
  have result : ended.map (fun r => (r.1.1, r.1.2.stack)) = some (.ok 1, ⟨#[.int 5], 8⟩) := by
    decide +kernel
  obtain ⟨⟨⟨r, d⟩, n⟩, run, same⟩ := Option.map_eq_some_iff.mp result
  cases congrArg Prod.fst same
  have stack : d.stack = ⟨#[.int 5], 8⟩ := congrArg Prod.snd same
  refine ⟨d, by decide, by decide, ⟨by decide +kernel, by decide +kernel⟩, 1, n.world,
    Machine.runs_of_run run, ?_⟩
  rw [stack]
  decide +kernel

theorem callMethod_not_neutral :
    (∀ f, KeepsBelow integerCode (fun _ _ => True) f) ∧
      ¬ ∀ r e u, Ends integerCode (fun _ _ => True) oneNative (.new ⟨0⟩ 8)
        (Exec.callMethod objectMethod []) r e u → e.stack.slots = #[] := by
  have keeps := keepsBelow_integerCode (fun _ _ => True)
  refine ⟨keeps, fun neutral => ?_⟩
  obtain ⟨d, leaves⟩ := leavesResult_integer
  obtain ⟨r, e, u, ends, height⟩ := leaves.ends (by decide) fun f _ => keeps f
  rw [size, neutral r e u ends] at height
  revert height
  decide +kernel

theorem neutral_or_result_left :
    objectMethod.isNative = true ∧ (∀ f, KeepsBelow integerCode (fun _ _ => True) f) ∧
      ∀ r e u, Ends integerCode (fun _ _ => True) oneNative (.new ⟨0⟩ 8)
        (Exec.callMethod objectMethod []) r e u →
        e.stack.slots = #[] ∨
          r = .error (.noResult objectMethod.text) ∧ e.stack.size = 1 := by
  have keeps := keepsBelow_integerCode (fun _ _ => True)
  refine ⟨by decide, keeps, fun r e u ends => ?_⟩
  rcases (callMethod_neutral_iff (by decide) fun f _ => keeps f).2 r e u ends with
    same | ⟨result, -, height⟩
  · exact .inl same
  · exact .inr ⟨result, height⟩

end Exec
end ManagedRuntime
