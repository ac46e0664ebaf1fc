import ManagedRuntime.Proofs.Execution.Closure
import ManagedRuntime.Proofs.Execution.NativeConvention
import ManagedRuntime.Proofs.Stack.HiddenFrames
import ManagedRuntime.Proofs.World.Canonical

/-!
What the natives that look at the stack say of it. They make mirrors, strings and arrays, and for
that they need nothing but memory. Main statements: a native that lists the stack gives the classes
and the names of all methods on the frames, newest first; the classes of the context of a class, and
the methods that a throwable keeps, are the last ones of that list.
-/
namespace ManagedRuntime
open World
variable {η α β : Type}

theorem OperandStack.pushAll_one (s : OperandStack) (x : Slot) :
    s.pushAll [x] =
      if s.size < s.capacity then (.ok (), { s with slots := s.slots.push x })
      else (.error .stackOverflow, s) := by
  rw [pushAll, push]
  by_cases room : s.size < s.capacity
  · rw [if_pos room, if_pos room]
    rfl
  · rw [if_neg room, if_neg room]

def NativeCall.object? (call : NativeCall) (s : OperandStack) (index : Nat) : Option ObjectId :=
  match call.argument? s index with
  | some (.ref o) => o
  | _ => none

/-- Other threads may leave a state as it is. They keep a canonical state so, and they leave the
objects from number `n` on to the thread that makes them. -/
structure World.Gentle (n : Nat) (rely : World η → World η → Prop) : Prop where
  refl : ∀ w, rely w w
  keeps : ∀ w u, rely w u → w.Canonical → w.Keeps n u

namespace Exec
variable {code : Code η} {rely : World η → World η → Prop} {n : Nat} {w v u : World η} {env d e : Env}
  {H : World η → Prop} {P : α → World η → Prop} {Q : β → World η → Prop}

def Meets (code : Code η) (rely : World η → World η → Prop) (w : World η) (env : Env) (x : Exec η α)
    (T : Except Failure α → Env → World η → Prop) : Prop :=
  (∃ r e u, Ends code rely w env x r e u) ∧ ∀ r e u, Ends code rely w env x r e u → T r e u

theorem Meets.imp {S T : Except Failure α → Env → World η → Prop} {x : Exec η α}
    (meets : Meets code rely w env x T) (implies : ∀ r e u, T r e u → S r e u) :
    Meets code rely w env x S :=
  ⟨meets.1, fun r e u ends => implies r e u (meets.2 r e u ends)⟩

theorem meets_bind {S : Except Failure α → Env → World η → Prop}
    {T : Except Failure β → Env → World η → Prop} {x : Exec η α} {g : α → Exec η β}
    (first : Meets code rely w env x S) (failed : ∀ f e u, S (.error f) e u → T (.error f) e u)
    (rest : ∀ a d v, S (.ok a) d v → Meets code rely v d (g a) T) :
    Meets code rely w env (x >>= g) T := by
  obtain ⟨⟨q, d, v, ends⟩, each⟩ := first
  constructor
  · cases q with
    | error f => exact ⟨.error f, d, v, ends_bind.mpr (.inl ⟨f, ends, rfl⟩)⟩
    | ok a =>
      obtain ⟨⟨r, e, u, ends'⟩, -⟩ := rest a d v (each _ _ _ ends)
      exact ⟨r, e, u, ends_bind.mpr (.inr ⟨a, d, v, ends, ends'⟩)⟩
  · intro r e u ended
    rcases ends_bind.mp ended with ⟨f, begun, rfl⟩ | ⟨a, d, v, begun, ended⟩
    · exact failed f e u (each _ _ _ begun)
    · exact (rest a d v (each _ _ _ begun)).2 r e u ended

/-- In a canonical state with `H` the program comes to `P` and leaves the operand stack alone, unless
memory runs out. -/
def Yields (code : Code η) (rely : World η → World η → Prop) (n : Nat) (H : World η → Prop)
    (x : Exec η α) (P : α → World η → Prop) : Prop :=
  ∀ w env, w.Canonical → n ≤ w.heap.objects.size → H w →
    Meets code rely w env x fun r e u => e.stack = env.stack ∧ Yield n w P (r, u)

theorem yields_act (gentle : Gentle n rely) {x : Atomic η α} (stable : Stable n H)
    (yields : Atomic.Yields n H x P) : Yields code rely n H (act x) P := by
  intro w env canonical size here
  constructor
  · exact ⟨_, _, _, ends_act.mpr ⟨w, [], gentle.refl w, rfl, rfl⟩⟩
  · intro r e u ends
    obtain ⟨y, refs, change, ran, rfl⟩ := ends_act.mp ends
    have first := gentle.keeps w y change canonical
    have keeps := first.trans (first.canonical.during (env.references ++ refs))
    have comes := yields _ keeps.canonical (Nat.le_trans size keeps.size) (stable w _ keeps here)
    rw [ran] at comes
    exact ⟨rfl, comes.after keeps⟩

theorem yields_pure (a : α) (holds : ∀ w, H w → P a w) :
    Yields code rely n H (pure a : Exec η α) P := by
  intro w env canonical _ here
  refine ⟨⟨_, _, _, ends_pure.mpr ⟨rfl, rfl, rfl⟩⟩, fun r e u ends => ?_⟩
  obtain ⟨rfl, rfl, rfl⟩ := ends_pure.mp ends
  exact ⟨rfl, .ok (canonical.keeps n) (holds u here)⟩

theorem yields_bind {x : Exec η α} {g : α → Exec η β} (stable : Stable n H)
    (first : Yields code rely n H x P)
    (rest : ∀ a, Yields code rely n (fun w => H w ∧ P a w) (g a) Q) :
    Yields code rely n H (x >>= g) Q := by
  intro w env canonical size here
  refine meets_bind (first w env canonical size here) (fun f e u comes => ?_) fun a d v comes => ?_
  · obtain ⟨stack, exhausted⟩ := comes
    cases exhausted with
    | exhausted keeps limited => exact ⟨stack, .exhausted keeps limited⟩
  · obtain ⟨stack, made⟩ := comes
    cases made with
    | ok keeps holds =>
      have later := rest a v d keeps.canonical (Nat.le_trans size keeps.size)
        ⟨stable w v keeps here, holds⟩
      refine ⟨later.1, fun r e u ends => ?_⟩
      obtain ⟨stack', comes⟩ := later.2 r e u ends
      exact ⟨stack'.trans stack, comes.after keeps⟩

theorem judges_yields :
    Judges n fun {α} H (x : Exec η α) P => Yields code rely n H x P where
  pure _ a holds := yields_pure a holds
  bind stable _ first rest := yields_bind stable first rest

theorem yields_intern (gentle : Gentle n rely) (o : ObjectId) (s : String) :
    Yields code rely n (fun w => (w.heap.get o).string? = some s) (intern o) fun p u =>
      (u.heap.get p).string? = some s := by
  have text := stable_string (η := η) (n := n) o s
  refine yields_bind text (yields_act gentle text (Atomic.yields_contents o s)) fun t => ?_
  intro w env canonical size here
  obtain ⟨string, rfl⟩ := here
  refine yields_bind text (yields_act gentle text (Atomic.yields_interned t)) (fun found => ?_) w env
    canonical size string
  cases found with
  | some p => exact yields_pure p fun w here => here.2 p rfl
  | none =>
    intro w env canonical size here
    exact yields_act gentle text (Atomic.yields_internAs t o) w env canonical size here.1

theorem yields_internText (gentle : Gentle n rely) (stable : Stable n H) (s : String) :
    Yields code rely n H (internText s) fun o u => (u.heap.get o).string? = some s := by
  refine yields_bind stable (yields_act gentle stable (Atomic.yields_interned s)) fun found => ?_
  cases found with
  | some o => exact yields_pure o fun w here => here.2 o rfl
  | none =>
    intro w env canonical size here
    refine yields_bind stable_true (yields_act gentle stable_true (Atomic.yields_newString s))
      (fun o => ?_) w env canonical size trivial
    intro w env canonical size here
    exact yields_intern gentle o s w env canonical size here.2

inductive Answers (n : Nat) (w : World η) (call : NativeCall) (env : Env)
    (P : ObjectId → World η → Prop) : Except Failure Nat → Env → World η → Prop where
  | returned {top : Nat} {o : ObjectId} {e : Env} {u : World η} (keeps : w.Keeps n u) (holds : P o u)
      (height : top = e.stack.size)
      (result : e.stack.pop = .ok (.ref (some o), env.stack.truncate call.base)) :
      Answers n w call env P (.ok top) e u
  | exhausted {e : Env} {u : World η} {bytes live limit : Nat} (keeps : w.Keeps n u)
      (limited : w.heap.accounting.maxBytes ≠ 0) :
      Answers n w call env P (.error (.heapExhausted bytes live limit)) e u
  | full {e : Env} {u : World η} (keeps : w.Keeps n u)
      (full : env.stack.capacity ≤ (env.stack.truncate call.base).size) :
      Answers n w call env P (.error .stackOverflow) e u

theorem Answers.after {call : NativeCall} {P : ObjectId → World η → Prop} {r : Except Failure Nat}
    (answers : Answers n v call d P r e u) (keeps : w.Keeps n v) (stack : d.stack = env.stack) :
    Answers n w call env P r e u := by
  cases answers with
  | returned keeps' holds height result =>
    exact .returned (keeps.trans keeps') holds height (stack ▸ result)
  | exhausted keeps' limited => exact .exhausted (keeps.trans keeps') (keeps.limit ▸ limited)
  | full keeps' full => exact .full (keeps.trans keeps') (stack ▸ full)

theorem finishRef_cases {call : NativeCall} {o : Reference} {r : Except Failure Nat}
    (ends : Ends code rely w env (finishRef call o) r e u) :
    u = w ∧ ((r = .ok e.stack.size ∧ e.stack.pop = .ok (.ref o, env.stack.truncate call.base)) ∨
      (r = .error .stackOverflow ∧ env.stack.capacity ≤ (env.stack.truncate call.base).size)) := by
  obtain ⟨same, rfl⟩ := ends_finish.mp ends
  rw [show ((some (Value.ref o)).map Value.slots).getD [] = [.ref o] from rfl,
    OperandStack.pushAll_one] at same
  split at same
  · cases same
    exact ⟨rfl, .inl ⟨rfl, by simp [OperandStack.pop]⟩⟩
  · rename_i room
    cases same
    exact ⟨rfl, .inr ⟨rfl, Nat.le_of_not_lt room⟩⟩

theorem answers_finishRef {call : NativeCall} {P : ObjectId → World η → Prop} {o : ObjectId}
    (canonical : w.Canonical) (holds : P o w) :
    Meets code rely w env (finishRef call (some o)) (Answers n w call env P) := by
  refine ⟨⟨_, _, _, ends_finish.mpr ⟨rfl, rfl⟩⟩, fun r e u ends => ?_⟩
  obtain ⟨rfl, ⟨rfl, result⟩ | ⟨rfl, full⟩⟩ := finishRef_cases ends
  · exact .returned (canonical.keeps n) holds rfl result
  · exact .full (canonical.keeps n) full

def Answering (code : Code η) (rely : World η → World η → Prop) (n : Nat) (H : World η → Prop)
    (call : NativeCall) (x : Exec η Nat) (P : ObjectId → World η → Prop) : Prop :=
  ∀ w env, w.Canonical → n ≤ w.heap.objects.size → H w →
    Meets code rely w env x (Answers n w call env P)

theorem answering_bind {call : NativeCall} {x : Exec η α} {g : α → Exec η Nat}
    {R : ObjectId → World η → Prop} (stable : Stable n H) (first : Yields code rely n H x P)
    (rest : ∀ a, Answering code rely n (fun w => H w ∧ P a w) call (g a) R) :
    Answering code rely n H call (x >>= g) R := by
  intro w env canonical size here
  refine meets_bind (first w env canonical size here) (fun f e u comes => ?_) fun a d v comes => ?_
  · cases comes.2 with
    | exhausted keeps limited => exact .exhausted keeps limited
  · obtain ⟨stack, made⟩ := comes
    cases made with
    | ok keeps holds =>
      have later := rest a v d keeps.canonical (Nat.le_trans size keeps.size)
        ⟨stable w v keeps here, holds⟩
      exact ⟨later.1, fun r e u ends => (later.2 r e u ends).after keeps stack⟩

theorem answering_act (gentle : Gentle n rely) {F : World η → Prop} {call : NativeCall}
    {x : Atomic η α} {g : α → Exec η Nat} {R : ObjectId → World η → Prop} (stable : Stable n H)
    (yields : Atomic.Yields n F x P) (lasting : ∀ a, Stable n (P a)) (implies : ∀ w, H w → F w)
    (rest : ∀ a, Stable n (fun w => H w ∧ P a w) →
      Answering code rely n (fun w => H w ∧ P a w) call (g a) R) :
    Answering code rely n H call (act x >>= g) R :=
  answering_bind stable (yields_act gentle stable (yields.weaken implies)) fun a =>
    rest a (stable.and (lasting a))

theorem answering_finishRef {call : NativeCall} {R : ObjectId → World η → Prop} {o : ObjectId}
    (holds : ∀ w, H w → R o w) : Answering code rely n H call (finishRef call (some o)) R :=
  fun w _ canonical _ here => answers_finishRef canonical (holds w here)

end Exec

/-- The array has two rows, one with the classes of these methods and one with their names. -/
def World.ListsMethods (w : World η) (n : Nat) (ms : List Method) (o : ObjectId) : Prop :=
  ∃ classes names refs, w.HoldsRefs n o [some classes, some names] ∧
    w.HoldsMirrors n (ms.map Method.owner) classes ∧
      w.HoldsRefs n names refs ∧ List.Forall₂ w.IsText (ms.map Method.name) refs

namespace Exec
variable {code : Code η} {rely : World η → World η → Prop} {n : Nat} {w u : World η} {env e : Env}

theorem meets_get_bind {g : Env → Exec η α} {T : Except Failure α → Env → World η → Prop}
    (rest : Meets code rely w env (g env) T) : Meets code rely w env (get >>= g) T := by
  obtain ⟨⟨r, e, u, ends⟩, each⟩ := rest
  exact ⟨⟨r, e, u, ends_get_bind.mpr ends⟩, fun r e u ends => each r e u (ends_get_bind.mp ends)⟩

theorem meets_getClassContext (gentle : Gentle n rely) (call : NativeCall) (canonical : w.Canonical)
    (size : n ≤ w.heap.objects.size) :
    Meets code rely w env (CallerNative.getClassContext.run call) (Answers n w call env fun o u =>
      ∃ cs, cs <:+ env.frames.methods.map Method.owner ∧ u.HoldsMirrors n cs o) := by
  apply meets_get_bind
  refine answering_act gentle stable_true (Atomic.yields_ask World.walker) (fun _ => stable_true)
    (fun _ => id) (fun walker stable => ?_) w env canonical size trivial
  refine answering_act gentle stable (Atomic.yields_mirrorArray _) (stable_holdsMirrors _)
    (fun _ => id) fun o _ => ?_
  exact answering_finishRef fun u here => ⟨_, (walker.context_suffix env.frames).map _, here.2⟩

theorem meets_getStack (gentle : Gentle n rely) (call : NativeCall) (canonical : w.Canonical)
    (size : n ≤ w.heap.objects.size) :
    Meets code rely w env (CallerNative.getStack.run call)
      (Answers n w call env fun o u => u.ListsMethods n env.frames.methods o) := by
  apply meets_get_bind
  refine answering_act gentle stable_true (Atomic.yields_ask World.walker) (fun _ => stable_true)
    (fun _ => id) (fun walker stable => ?_) w env canonical size trivial
  refine answering_act gentle stable (Atomic.yields_mirrorArray _) (stable_holdsMirrors _)
    (fun _ => id) fun classes stable => ?_
  -- the names are interned one by one, and other threads may intern the same in between
  have named (H : World η → Prop) (m : Method) (stable : Stable n H) :
      Yields code rely n H (some <$> internText m.name) fun r u => u.IsText m.name r :=
    judges_yields.map some stable (fun o => stable_string o m.name)
      (yields_internText gentle stable m.name) fun o u _ text => ⟨o, rfl, text⟩
  have each := judges_yields.mapM (fun m r => stable_text m.name r) named stable env.frames.methods
  refine answering_bind stable each fun refs => ?_
  replace stable := stable.and (stable_each (fun m r => stable_text m.name r) env.frames.methods refs)
  refine answering_act gentle stable (Atomic.yields_bootClass (by decide)) stable_there
    (fun _ => id) fun string stable => ?_
  refine answering_act gentle stable (Atomic.yields_referenceArray string refs)
    (stable_holdsRefs refs) (fun _ here => here.2) fun names stable => ?_
  refine answering_act gentle stable (Atomic.yields_bootClass (by decide)) stable_there
    (fun _ => id) fun object stable => ?_
  refine answering_act gentle stable (Atomic.yields_arrayOf object) stable_there
    (fun _ here => here.2) fun row stable => ?_
  refine answering_act gentle stable (Atomic.yields_referenceArray row [some classes, some names])
    (stable_holdsRefs _) (fun _ here => here.2) fun pair stable => ?_
  apply answering_finishRef
  rintro u ⟨⟨⟨⟨⟨⟨⟨-, mirrors⟩, texts⟩, -⟩, holds⟩, -⟩, -⟩, rows⟩
  exact ⟨classes, names, refs, rows, mirrors, holds, List.forall₂_map_left_iff.mpr texts⟩

theorem meets_conclude {q : Except Failure α} {T : Except Failure α → Env → World η → Prop}
    (holds : T q env w) : Meets code rely w env (conclude q) T := by
  refine ⟨⟨q, env, w, ends_conclude.mpr ⟨rfl, rfl, rfl⟩⟩, fun r e u ends => ?_⟩
  obtain ⟨rfl, rfl, rfl⟩ := ends_conclude.mp ends
  exact holds

theorem meets_arg (call : NativeCall) (index : Nat) :
    Meets code rely w env (arg call index) fun r d v =>
      match call.argument? env.stack index with
      | some a => r = .ok a ∧ d = env.hold (Value.objects [a]) ∧ v = w
      | none => ∃ f, r = .error f := by
  cases found : call.argument? env.stack index with
  | some a =>
    refine ⟨⟨_, _, _, (ends_arg_found found).mpr ⟨rfl, rfl, rfl⟩⟩, fun r e u ends => ?_⟩
    exact (ends_arg_found found).mp ends
  | none =>
    unfold arg
    unfold NativeCall.argument? at found
    cases there : call.method.layout.params[index]? with
    | none => exact meets_conclude ⟨_, rfl⟩
    | some p =>
      rw [there] at found
      apply meets_get_bind
      dsimp only
      rw [show env.stack.read (call.base + p.offset) p.type = none from found]
      exact meets_conclude ⟨_, rfl⟩

theorem meets_unexpected (refl : ∀ w, rely w w) (call : NativeCall) (index : Nat) (expected : String)
    (a : Value) :
    Meets code rely w env (unexpected call index expected a : Exec η α) fun r _ _ =>
      ∃ f, r = .error f := by
  have asked : Meets code rely w env (act (Atomic.ask fun w => a.text w.classNameOf)) fun _ _ _ =>
      True := ⟨⟨_, _, _, ends_ask.mpr ⟨⟨w, [], refl w, rfl⟩, rfl, rfl⟩⟩, fun _ _ _ _ => trivial⟩
  exact meets_bind asked (fun f _ _ _ => ⟨f, rfl⟩) fun _ _ _ _ => meets_conclude ⟨_, rfl⟩

theorem meets_objectArg (refl : ∀ w, rely w w) (call : NativeCall) (index : Nat) :
    Meets code rely w env (objectArg call index) fun r d v =>
      match call.object? env.stack index with
      | some o => r = .ok o ∧ d = env.hold [o] ∧ v = w
      | none => ∃ f, r = .error f := by
  have read : Meets code rely w env (arg call index) _ := meets_arg call index
  unfold objectArg referenceArg NativeCall.object?
  rw [bind_assoc]
  cases found : call.argument? env.stack index with
  | none =>
    rw [found] at read
    refine meets_bind read (fun f _ _ _ => ⟨f, rfl⟩) fun a d v failed => ?_
    obtain ⟨f, failed⟩ := failed
    cases failed
  | some a =>
    rw [found] at read
    refine meets_bind read (fun f e u failed => nomatch failed.1) fun b d v given => ?_
    obtain ⟨same, rfl, rfl⟩ := given
    cases same
    cases a with
    | ref o =>
      cases o with
      | some o => exact meets_conclude ⟨rfl, rfl, rfl⟩
      | none => exact meets_conclude ⟨_, rfl⟩
    | _ =>
      refine meets_bind (meets_unexpected refl call index "reference" _) (fun f _ _ _ => ⟨f, rfl⟩) ?_
      exact fun _ _ _ failed => nomatch failed

theorem meets_fillInStackTrace (gentle : Gentle n rely) (call : NativeCall) (canonical : w.Canonical)
    (size : n ≤ w.heap.objects.size) :
    Meets code rely w env (ThrowableNative.fillInStackTrace.run call) fun r e u =>
      match call.object? env.stack 0 with
      | none => ∃ f, r = .error f
      | some _ => Answers n w call env
          (fun o u => ∃ ms, ms <:+ env.frames.methods ∧ u.Made n o (.backtrace ms)) r e u := by
  have read : Meets code rely w env (objectArg call 0) _ := meets_objectArg gentle.refl call 0
  cases given : call.object? env.stack 0 with
  | none =>
    rw [given] at read
    refine meets_bind read (fun f _ _ _ => ⟨f, rfl⟩) fun a d v failed => ?_
    obtain ⟨f, failed⟩ := failed
    cases failed
  | some o =>
    rw [given] at read
    refine meets_bind read (fun f _ _ failed => nomatch failed.1) fun p d v was => ?_
    obtain ⟨same, rfl, rfl⟩ := was
    apply meets_get_bind
    -- what is held now is no part of the operand stack
    refine Meets.imp (T := Answers n v call (env.hold [o]) _) ?_ fun r e u answers =>
      answers.after (canonical.keeps n) rfl
    refine answering_act gentle stable_true (Atomic.yields_ask _) (fun _ => stable_true)
      (fun _ => id) (fun skip stable => ?_) v _ canonical size trivial
    refine answering_act gentle stable (Atomic.yields_bootClass (by decide)) stable_there
      (fun _ => id) fun c stable => ?_
    refine answering_act gentle stable (Atomic.yields_newCarrier c (.backtrace _))
      (stable_made nofun) (fun _ => id) fun state _ => ?_
    apply answering_finishRef
    rintro u here
    exact ⟨_, (List.drop_suffix _ _).trans (List.drop_suffix 1 _), here.2⟩

theorem closed_frames : Closed fun {α} (x : Exec η α) =>
    ∀ {w env r e u}, Ends code rely w env x r e u → e.frames = env.frames where
  conclude _ := by
    intro w env r e u ends
    rw [(ends_conclude.mp ends).2.1]
  onEnv same := by
    intro w env r e u ends
    have left := (same env).1
    rw [← (ends_onEnv.mp ends).1] at left
    exact left
  await _ := by
    intro w env r e u ends
    obtain ⟨y, refs, -, -, rfl⟩ := ends_await.mp ends
    rfl
  get_bind rest := fun ends => rest _ (ends_get_bind.mp ends)
  bind first rest := by
    intro w env r e u ends
    rcases ends_bind.mp ends with ⟨f, begun, -⟩ | ⟨a, d, v, begun, ended⟩
    · exact first begun
    · exact (rest a ended).trans (first begun)
  outcome first := by
    intro w env r e u ends
    obtain ⟨q, -, begun⟩ := ends_outcome.mp ends
    exact first begun

/-- Whatever the state is, a throwable that is filled in keeps the last methods on the frames. -/
theorem captured_suffix {call : NativeCall} {top : Nat}
    (ends : Ends code rely w env (ThrowableNative.fillInStackTrace.run call) (.ok top) e u) :
    ∃ o ms s, e.stack.pop = .ok (.ref (some o), s) ∧ ms <:+ env.frames.methods ∧
      (u.heap.get o).payload = .backtrace ms := by
  rcases ends_bind.mp ends with ⟨f, -, failed⟩ | ⟨o, d, v, given, rest⟩
  · cases failed
  have frames : d.frames = env.frames := closed_frames.objectArg call 0 given
  rcases ends_bind.mp (ends_get_bind.mp rest) with ⟨f, -, failed⟩ | ⟨skip, d', v', -, rest⟩
  · cases failed
  rcases ends_bind.mp rest with ⟨f, -, failed⟩ | ⟨c, d₂, v₂, -, rest⟩
  · cases failed
  rcases ends_bind.mp rest with ⟨f, -, failed⟩ | ⟨state, d₃, v₃, made, rest⟩
  · cases failed
  obtain ⟨y, refs, -, ran, -⟩ := ends_act.mp made
  obtain ⟨rfl, ⟨-, result⟩ | ⟨failed, -⟩⟩ := finishRef_cases rest
  · refine ⟨state, _, _, result, ?_, Atomic.payload_newCarrier ran⟩
    rw [← frames]
    exact (List.drop_suffix skip _).trans (List.drop_suffix 1 _)
  · cases failed

end Exec
end ManagedRuntime
