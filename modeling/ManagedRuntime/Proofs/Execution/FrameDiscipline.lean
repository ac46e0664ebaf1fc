import ManagedRuntime.Proofs.Execution.CallTree
import ManagedRuntime.Proofs.Execution.Closure

/-!
Frames and activations. Code is bracketed if it touches frames by calls alone. Main statements:
where all code is bracketed, the methods on the frames of a thread are its active methods, whatever
it does, their count is right, and every call gives back the frames that it found.
-/
namespace ManagedRuntime
variable {η α β : Type}

def Env.chain (e : Env) : FrameChain × Nat := (e.frames, e.depth)

def FrameChain.counted (k : FrameChain) : FrameChain × Nat := (k, k.length)

theorem Env.popFrame_pushFrame {e d : Env} {f : Frame} (same : d.chain = (e.pushFrame f).chain) :
    d.popFrame.chain = e.chain := by
  obtain ⟨frames, depth⟩ := Prod.mk.inj same
  have pushed : d.frames = f :: e.frames := frames
  have counted : d.depth = e.depth + 1 := depth
  simp [chain, popFrame, pushed, counted]

/-- A task that leaves frames alone but for calls, if these leave them alone too, and which finds
and leaves the frames `k`. -/
inductive Task.Bracketed (k : FrameChain × Nat) : Task η (Except Failure α × Env) → Prop where
  | done {r : Except Failure α} {e : Env} (same : e.chain = k) : Bracketed k (.done (r, e))
  | act {β : Type} {env : Env} {f : World η → Option (β × World η)}
      {next : β → Task η (Except Failure α × Env)} (same : env.chain = k)
      (rest : ∀ b, Bracketed k (next b)) : Bracketed k (.act env f next)
  | call {m : Method} {args : List Value} {env : Env}
      {next : Except Failure (Option Value) × Env → Task η (Except Failure α × Env)}
      (same : env.chain = k) (rest : ∀ r e, e.chain = k → Bracketed k (next (r, e))) :
      Bracketed k (((Exec.callMethod m args).runIn env).bind next)
  | invoke {m : Method} {env : Env}
      {next : Except Failure Nat × Env → Task η (Except Failure α × Env)}
      (same : env.chain = k) (rest : ∀ r e, e.chain = k → Bracketed k (next (r, e))) :
      Bracketed k (((Exec.invokeNative m).runIn env).bind next)

theorem Task.Bracketed.bind {k : FrameChain × Nat} {x : Task η (Except Failure α × Env)}
    {g : Except Failure α × Env → Task η (Except Failure β × Env)} (first : x.Bracketed k)
    (rest : ∀ r e, e.chain = k → (g (r, e)).Bracketed k) : (x.bind g).Bracketed k := by
  induction first with
  | done same => exact rest _ _ same
  | act same _ ih => exact .act same ih
  | call same _ ih =>
    rw [Task.bind_assoc]
    exact .call same ih
  | invoke same _ ih =>
    rw [Task.bind_assoc]
    exact .invoke same ih

namespace Exec

def Bracketed (x : Exec η α) : Prop := ∀ env, (x.runIn env).Bracketed env.chain

theorem bracketed_bind {x : Exec η α} {g : α → Exec η β} (first : Bracketed x)
    (rest : ∀ a, Bracketed (g a)) : Bracketed (x >>= g) := by
  intro env
  rw [show (x >>= g).runIn env = (x.runIn env).bind _ from rfl]
  refine (first env).bind fun r e same => ?_
  cases r with
  | error f => exact .done same
  | ok a =>
    rw [← same]
    exact rest a e

theorem closed_bracketed : Closed fun {α} (x : Exec η α) => Bracketed x where
  conclude _ := fun _ => .done rfl
  onEnv same := fun env => .done (Prod.ext (same env).1 (same env).2)
  await _ := fun _ => .act rfl fun _ => .done rfl
  get_bind rest := fun env => rest env env
  bind := bracketed_bind
  outcome := by
    intro α x first env
    rw [show (outcome x).runIn env = (x.runIn env).bind _ from rfl]
    exact (first env).bind fun _ _ same => .done same

theorem bracketed_callMethod (m : Method) (args : List Value) :
    Bracketed (callMethod m args : Exec η _) := by
  intro env
  rw [← Task.bind_done ((callMethod m args).runIn env)]
  exact .call rfl fun _ _ same => .done same

theorem bracketed_invokeNative (m : Method) : Bracketed (invokeNative m : Exec η _) := by
  intro env
  rw [← Task.bind_done ((invokeNative m).runIn env)]
  exact .invoke rfl fun _ _ same => .done same

theorem bracketed_callVirtual (receiver : ObjectId) (name descriptor : String) (args : List Value) :
    Bracketed (callVirtual receiver name descriptor args : Exec η _) :=
  closed_bracketed.callVirtual bracketed_callMethod receiver name descriptor args

theorem bracketed_threadProgram (start : ThreadStart) : Bracketed (threadProgram start : Exec η Unit) :=
  closed_bracketed.threadProgram bracketed_callMethod start

/-- The natives of the runtime touch frames by calls alone. -/
theorem bracketed_coreNative (n : CoreNative) (call : NativeCall) :
    Bracketed (n.run call : Exec η Nat) :=
  closed_bracketed.coreNative bracketed_callMethod n call

end Exec

structure Code.Bracketed (code : Code η) : Prop where
  execute : ∀ m args, Exec.Bracketed (code.execute m args)
  native : ∀ f call, Exec.Bracketed (code.native f call)

theorem Code.bracketed_withCore {execute : Method → List Value → Exec η (Option Value)}
    {embedded : Nat → NativeCall → Exec η Nat} (bodies : ∀ m args, Exec.Bracketed (execute m args))
    (natives : ∀ i call, Exec.Bracketed (embedded i call)) :
    (Code.withCore execute embedded).Bracketed where
  execute := bodies
  native f call := by
    cases f with
    | core n => exact Exec.bracketed_coreNative n call
    | embedded i => exact natives i call

/-! What calls show of the frames. -/

structure Env.Shows (e : Env) (ms : List Method) : Prop where
  methods : e.frames.methods = ms
  depth : e.depth = e.frames.length

theorem Env.shows_of_chain {e : Env} {k : FrameChain} (same : e.chain = k.counted) :
    e.Shows k.methods := by
  obtain ⟨frames, depth⟩ := Prod.mk.inj same
  exact ⟨congrArg FrameChain.methods frames, depth.trans (congrArg List.length frames).symm⟩

/-- A task that shows `ms` whenever it acts, and a method more when it asks for the code of that
method. When it is done `Q` holds of its result, if code gives back the frames that it found. -/
inductive Task.Shows (ms : List Method) (Q : α → Prop) : Task η α → Prop where
  | done {a : α} (post : Q a) : Shows ms Q (.done a)
  | act {β : Type} {env : Env} {f : World η → Option (β × World η)} {next : β → Task η α}
      (shows : env.Shows ms) (rest : ∀ b, Shows ms Q (next b)) : Shows ms Q (.act env f next)
  | execute {m : Method} {args : List Value} {env : Env}
      {next : Except Failure (Option Value) × Env → Task η α} (shows : env.Shows (m :: ms))
      (rest : ∀ r e, e.chain = env.chain → Shows ms Q (next (r, e))) :
      Shows ms Q (.execute m args env next)
  | native {f : NativeFunction} {call : NativeCall} {env : Env}
      {next : Except Failure Nat × Env → Task η α} (shows : env.Shows (call.method :: ms))
      (rest : ∀ r e, e.chain = env.chain → Shows ms Q (next (r, e))) :
      Shows ms Q (.native f call env next)

theorem Task.Shows.bind {ms : List Method} {P : α → Prop} {Q : β → Prop} {x : Task η α}
    {g : α → Task η β} (first : x.Shows ms P) (rest : ∀ a, P a → (g a).Shows ms Q) :
    (x.bind g).Shows ms Q := by
  induction first with
  | done post => exact rest _ post
  | act shows _ ih => exact .act shows ih
  | execute shows _ ih => exact .execute shows ih
  | native shows _ ih => exact .native shows ih

namespace Exec
variable {k : FrameChain}

def Shows (k : FrameChain) (x : Exec η α) : Prop :=
  ∀ env, env.chain = k.counted → (x.runIn env).Shows k.methods fun q => q.2.chain = k.counted

theorem shows_bind {x : Exec η α} {g : α → Exec η β} (first : Shows k x)
    (rest : ∀ a, Shows k (g a)) : Shows k (x >>= g) := by
  intro env chain
  rw [show (x >>= g).runIn env = (x.runIn env).bind _ from rfl]
  refine (first env chain).bind fun (r, e) chain => ?_
  cases r with
  | error f => exact .done chain
  | ok a => exact rest a e chain

theorem closed_shows (k : FrameChain) : Closed fun {α} (x : Exec η α) => Shows k x where
  conclude _ := fun _ same => .done same
  onEnv same := fun env chain => .done ((Prod.ext (same env).1 (same env).2).trans chain)
  await _ := fun _ chain => .act (Env.shows_of_chain chain) fun _ => .done chain
  get_bind rest := fun env => rest env env
  bind := shows_bind
  outcome := by
    intro α x first env chain
    rw [show (outcome x).runIn env = (x.runIn env).bind _ from rfl]
    exact (first env chain).bind fun _ chain => .done chain

theorem runIn_onFrame (f : Frame) (x : Exec η α) (env : Env) :
    (onFrame f x).runIn env =
      (x.runIn (env.pushFrame f)).bind fun q => .done (q.1, q.2.popFrame) := by
  rw [show (onFrame f x).runIn env = ((x.runIn (env.pushFrame f)).bind _).bind _ from rfl,
    Task.bind_assoc]
  rfl

theorem shows_onFrame {f : Frame} {x : Exec η α}
    (first : ∀ env, env.chain = FrameChain.counted (f :: k) →
      (x.runIn env).Shows k.methods fun q => q.2.chain = FrameChain.counted (f :: k)) :
    Shows k (onFrame f x) := by
  intro env chain
  obtain ⟨frames, depth⟩ := Prod.mk.inj chain
  have pushed : (env.pushFrame f).chain = FrameChain.counted (f :: k) :=
    Prod.ext (congrArg (f :: ·) frames) (congrArg (· + 1) depth)
  rw [runIn_onFrame]
  refine (first _ pushed).bind fun (r, e) given => .done ?_
  exact (Env.popFrame_pushFrame (given.trans pushed.symm)).trans chain

theorem shows_execute (m : Method) (args : List Value) :
    Shows k (onFrame (.real m) (execute m args) : Exec η _) := by
  refine shows_onFrame fun env chain => ?_
  exact .execute (Env.shows_of_chain chain) fun _ _ same => .done (same.trans chain)

theorem shows_native (f : NativeFunction) (call : NativeCall) :
    Shows k (onFrame (.real call.method) (releasing (native f call)) : Exec η _) := by
  refine shows_onFrame fun env chain => ?_
  exact .native (Env.shows_of_chain chain) fun _ _ same => .done (same.trans chain)

theorem shows_dispatch (m : Method) : Shows k (dispatch m : Exec η Nat) := by
  have closed := @closed_shows η k
  have bound (base : Nat) : Shows k (runBound m base : Exec η Nat) := by
    refine closed.bind (closed.act _) fun f => closed.bind (shows_native f ⟨m, base⟩) fun top => ?_
    refine closed.get_bind fun env => ?_
    split
    · exact closed.pure _
    · exact closed.throw _
  refine closed.get_bind fun env => ?_
  dsimp only
  split
  · exact closed.throw_bind _ _
  · exact closed.truncatingTo _ (bound _)

theorem shows_invokeNative (m : Method) : Shows k (invokeNative m : Exec η Nat) := by
  have closed := @closed_shows η k
  refine closed.bind (closed.outcome (shows_dispatch m)) fun r => ?_
  cases r with
  | ok top => exact closed.pure top
  | error f => exact closed.bind (closed.modify fun _ => ⟨rfl, rfl⟩) fun _ => closed.throw f

theorem shows_callOnStack (m : Method) (args : List Value) :
    Shows k (callOnStack m args : Exec η _) := by
  have closed := @closed_shows η k
  refine closed.get_bind fun env => ?_
  dsimp only
  split
  · exact closed.throw_bind _ _
  · refine closed.bind (closed.pushArguments _) fun _ => ?_
    refine closed.bind (closed.outcome (shows_invokeNative m)) fun r => ?_
    cases r with
    | ok top => exact closed.takeResult m _
    | error f => exact closed.bind (closed.modify fun _ => ⟨rfl, rfl⟩) fun _ => closed.throw f

theorem shows_callMethod (m : Method) (args : List Value) :
    Shows k (callMethod m args : Exec η _) := by
  have closed := @closed_shows η k
  unfold callMethod
  dsimp only
  split
  · exact closed.throw_bind _ _
  split
  · exact closed.throw_bind _ _
  refine closed.keeping _ (closed.bind (closed.hold _) fun _ => ?_)
  -- the boundary that is pushed is no method
  have inside : Shows (.boundary :: k) (if m.isNative then callOnStack m args
      else onFrame (.real m) (execute m args) : Exec η _) := by
    split
    · exact shows_callOnStack m args
    · exact shows_execute m args
  exact shows_onFrame inside

end Exec

/-- A task that touches frames by calls alone shows the methods of its frames. -/
theorem Task.Bracketed.shows {k : FrameChain} {x : Task η (Except Failure α × Env)}
    (bracketed : x.Bracketed k.counted) :
    x.Shows k.methods fun q => q.2.chain = k.counted := by
  induction bracketed with
  | done same => exact .done same
  | act same _ ih => exact .act (Env.shows_of_chain same) ih
  | call same _ ih =>
    exact (Exec.shows_callMethod _ _ _ same).bind fun (r, e) same => ih r e same
  | invoke same _ ih =>
    exact (Exec.shows_invokeNative _ _ same).bind fun (r, e) same => ih r e same

/-! Frames of a thread in the midst of its activations. -/

def Callers.Ready (base : List Method) (P : α → Prop) :
    {β : Type} → Callers η α β → (β → Prop) → Prop
  | _, root, Q => ∀ a, Q a → P a
  | _, call _ next outer, Q =>
    ∃ R, (∀ r, Q r → (next r).Shows (outer.active ++ base) R) ∧ outer.Ready base P R

namespace Activity
variable {code : Code η} {rely : World η → World η → Prop} {w v : World η}
  {s t : Activity η α} {base : List Method} {P : α → Prop}

def Framed (base : List Method) (P : α → Prop) (s : Activity η α) : Prop :=
  ∃ Q, s.now.Shows (s.active ++ base) Q ∧ s.callers.Ready base P Q

theorem framed_call {β γ : Type} {m : Method} {x : Exec η γ} {env : Env}
    {next : Except Failure γ × Env → Task η β} {outer : Callers η α β} {Q : β → Prop}
    (bracketed : Exec.Bracketed x) (shows : env.Shows (m :: (outer.active ++ base)))
    (rest : ∀ r e, e.chain = env.chain → (next (r, e)).Shows (outer.active ++ base) Q)
    (ready : outer.Ready base P Q) : Framed base P ⟨x.runIn env, .call m next outer⟩ := by
  have chain : env.chain = env.frames.counted := Prod.ext rfl shows.depth
  have found := bracketed env
  rw [chain] at found
  have now := found.shows
  rw [shows.methods] at now
  exact ⟨_, now, Q, fun (r, e) same => rest r e (same.trans chain.symm), ready⟩

theorem Framed.step (framed : s.Framed base P) (bracketed : code.Bracketed)
    (step : Step code rely (w, s) (v, t)) : t.Framed base P := by
  obtain ⟨Q, shows, ready⟩ := framed
  cases step with
  | @act _ _ _ _ _ _ _ _ b refs ran =>
    cases shows with
    | act _ rest => exact ⟨Q, rest b, ready⟩
  | execute =>
    cases shows with
    | execute shows rest => exact framed_call (bracketed.execute _ _) shows rest ready
  | native =>
    cases shows with
    | native shows rest => exact framed_call (bracketed.native _ _) shows rest ready
  | back r =>
    cases shows with
    | done post =>
      obtain ⟨R, next, outer⟩ := ready
      exact ⟨R, next r post, outer⟩
  | others change => exact ⟨Q, shows, ready⟩

theorem Framed.run (framed : s.Framed base P) (bracketed : code.Bracketed)
    (reaches : Reaches code rely (w, s) (v, t)) : t.Framed base P := by
  generalize start : (w, s) = x at reaches
  generalize stop : (v, t) = y at reaches
  induction reaches generalizing v t with
  | refl =>
    cases start.trans stop.symm
    exact framed
  | @tail y z reaches step ih =>
    subst stop
    exact (ih rfl).step bracketed step

def view : Activity η α → Option (Env × List Method)
  | ⟨.done _, _⟩ => none
  | ⟨.act env _ _, callers⟩ => some (env, callers.active)
  | ⟨.execute m _ env _, callers⟩ => some (env, m :: callers.active)
  | ⟨.native _ call env _, callers⟩ => some (env, call.method :: callers.active)

theorem Framed.view {env : Env} {ms : List Method} (framed : s.Framed base P)
    (seen : s.view = some (env, ms)) : env.Shows (ms ++ base) := by
  obtain ⟨now, callers⟩ := s
  obtain ⟨Q, shows, -⟩ := framed
  cases now with
  | done => cases seen
  | act | execute | native =>
    cases seen
    cases shows
    assumption

theorem framed_start {x : Exec η α} (bracketed : Exec.Bracketed x) {env : Env}
    (counted : env.depth = env.frames.length) :
    (start (x.runIn env)).Framed env.frames.methods fun q => q.2.chain = env.chain := by
  have chain : env.chain = env.frames.counted := Prod.ext rfl counted
  have found := bracketed env
  rw [chain] at found ⊢
  exact ⟨_, found.shows, fun _ => id⟩

end Activity

namespace Exec
variable {code : Code η} {rely : World η → World η → Prop} {w u : World η} {env e : Env}

/-- A program that touches frames by calls alone gives back the frames that it found, and their
count. -/
theorem Bracketed.chain {x : Exec η α} (bracketed : Bracketed x) (all : code.Bracketed)
    (counted : env.depth = env.frames.length) {r : Except Failure α}
    (ends : Ends code rely w env x r e u) : e.chain = env.chain := by
  have reaches := Activity.reaches_of_runs (s := Activity.start (x.runIn env)) ends (Task.bind_done _)
  obtain ⟨Q, shows, ready⟩ := (Activity.framed_start bracketed counted).run all reaches
  cases shows with
  | done post => exact ready _ post

end Exec
end ManagedRuntime
