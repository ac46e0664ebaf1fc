import ManagedRuntime.Proofs.Execution.Alone
import ManagedRuntime.Proofs.Execution.Annotated
import ManagedRuntime.Proofs.Execution.Closure

/-!
Programs that come by their classes in the order in which these are loaded. Such a program changes
the shared state as the runtime does, or copies an object, and every class that it mirrors, makes
objects of or calls a method of is one that it has come across before. Main statements: the natives
of the runtime are such programs if the code that they call is, and threads that run such programs
take a sane state to a sane one by changes and copies alone.
-/
namespace ManagedRuntime
variable {η ν α β : Type}

def World.Alters (w v : World η) : Prop := w.Changes v ∨ ∃ o, v = ((Atomic.copyObject o).runOn w).2

theorem Atomic.tame_copyObject (o : ObjectId) : (copyObject o : Atomic η _).Within Tame := by
  intro w sane
  unfold copyObject
  rw [runOn_get_bind]
  exact tame_allocate (sane.objects o) (sane.mirrors o) sane

theorem World.Alters.tame {w v : World η} (alters : w.Alters v) : Tame w v := by
  rcases alters with changes | ⟨o, rfl⟩
  · exact changes.tame
  · exact Atomic.tame_copyObject o w

theorem World.Alters.size {w v : World η} (alters : w.Alters v) (sane : w.Sane) :
    w.registry.loaded.size ≤ v.registry.loaded.size := (alters.tame sane).2.size

/-- A task that knows of `n` classes. When it is done those that its result names are loaded. -/
inductive Task.Orderly (N : α → List ClassId) : Nat → Task η α → Prop
  | done {n : Nat} {a : α} (loaded : Loaded n (N a)) : Orderly N n (.done a)
  | act {n : Nat} {β : Type} {env : Env} {f : World η → Option (β × World η)} {next : β → Task η α}
      (alters : ∀ w b v, w.Sane → n ≤ w.registry.loaded.size → f w = some (b, v) → w.Alters v)
      (rest : ∀ w b v, w.Sane → n ≤ w.registry.loaded.size → f w = some (b, v) →
        Orderly N v.registry.loaded.size (next b)) : Orderly N n (.act env f next)
  | execute {n : Nat} {m : Method} {args : List Value} {env : Env}
      {next : Except Failure (Option Value) × Env → Task η α} (owner : m.owner.index < n)
      (known : Loaded n env.names)
      (rest : ∀ r k, n ≤ k → Loaded k r.2.names → Orderly N k (next r)) :
      Orderly N n (.execute m args env next)
  | native {n : Nat} {f : NativeFunction} {call : NativeCall} {env : Env}
      {next : Except Failure Nat × Env → Task η α} (known : Loaded n env.names)
      (rest : ∀ r k, n ≤ k → Loaded k r.2.names → Orderly N k (next r)) :
      Orderly N n (.native f call env next)

namespace Task
variable {N : α → List ClassId} {M : β → List ClassId} {n k : Nat}

theorem Orderly.more {x : Task η α} (more : n ≤ k) (orderly : x.Orderly N n) : x.Orderly N k := by
  cases orderly with
  | done loaded => exact .done (loaded.later more)
  | act alters rest =>
    exact .act (fun w b v sane size => alters w b v sane (Nat.le_trans more size))
      fun w b v sane size => rest w b v sane (Nat.le_trans more size)
  | execute owner known rest =>
    exact .execute (Nat.lt_of_lt_of_le owner more) (known.later more)
      fun r k later => rest r k (Nat.le_trans more later)
  | native known rest =>
    exact .native (known.later more) fun r k later => rest r k (Nat.le_trans more later)

theorem Orderly.bind {x : Task η α} {g : α → Task η β} (first : x.Orderly N n)
    (rest : ∀ a k, n ≤ k → Loaded k (N a) → (g a).Orderly M k) : (x.bind g).Orderly M n := by
  induction first with
  | done loaded => exact rest _ _ (Nat.le_refl _) loaded
  | act alters _ ih =>
    refine .act alters fun w b v sane size step => ih w b v sane size step fun a k later => ?_
    have grown := Nat.le_trans size ((alters w b v sane size step).size sane)
    exact rest a k (Nat.le_trans grown later)
  | execute owner known _ ih =>
    refine .execute owner known fun r k later known' => ih r k later known' fun a j further => ?_
    exact rest a j (Nat.le_trans later further)
  | native known _ ih =>
    refine .native known fun r k later known' => ih r k later known' fun a j further => ?_
    exact rest a j (Nat.le_trans later further)

end Task

namespace Exec
variable {N : α → List ClassId} {M : β → List ClassId} {n : Nat}

def Orderly (n : Nat) (x : Exec η α) (N : α → List ClassId) : Prop :=
  ∀ env k, n ≤ k → Loaded k env.names →
    (x.runIn env).Orderly (fun r => r.2.names ++ outcomeNames N r.1) k

theorem orderly_bind {x : Exec η α} {g : α → Exec η β} (first : Orderly n x N)
    (rest : ∀ a k, n ≤ k → Loaded k (N a) → Orderly k (g a) M) : Orderly n (x >>= g) M := by
  intro env k more known
  rw [show (x >>= g).runIn env = (x.runIn env).bind _ from rfl]
  refine (first env k more known).bind fun (r, e) j further loaded => ?_
  obtain ⟨known, named⟩ := Loaded.append.mp loaded
  cases r with
  | error f => exact .done (Loaded.append.mpr ⟨known, .nil⟩)
  | ok a => exact rest a j (Nat.le_trans more further) named e j (Nat.le_refl _) known

theorem orderly_outcome {x : Exec η α} (orderly : Orderly n x N) :
    Orderly n (outcome x) (outcomeNames N) := by
  intro env k more known
  rw [show (outcome x).runIn env = (x.runIn env).bind _ from rfl]
  exact (orderly env k more known).bind fun _ _ _ loaded => .done loaded

theorem orderly_await {f : World η → Option (Except Failure α × World η)}
    (orderly : ∀ w r v, w.Sane → n ≤ w.registry.loaded.size → f w = some (r, v) →
      w.Alters v ∧ ∀ a, r = .ok a → Loaded v.registry.loaded.size (N a)) :
    Orderly n (await f) N := by
  intro env k more known
  refine .act (fun w b v sane size step => ?_) fun w b v sane size step => ?_
  all_goals
    obtain ⟨⟨r, u⟩, found, same⟩ := Option.map_eq_some_iff.mp step
    cases same
    obtain ⟨alters, named⟩ := orderly w r u sane (Nat.le_trans more size) found
  · exact alters
  · refine .done (Loaded.append.mpr ⟨known.later (Nat.le_trans size (alters.size sane)), ?_⟩)
    cases r with
    | error f => exact .nil
    | ok a => exact named a rfl

theorem tracks_orderly : Tracks fun {α} n (x : Exec η α) N => Orderly n x N where
  more later judged := fun env k more => judged env k (Nat.le_trans later more)
  conclude {_ _ _ r} loaded := by
    refine fun env k more known => .done (Loaded.append.mpr ⟨known, ?_⟩)
    cases r with
    | error f => exact .nil
    | ok a => exact (loaded a rfl).later more
  onEnv {_ f} same := by
    refine fun env k more known => .done (Loaded.append.mpr ⟨?_, ?_⟩)
    · rw [Env.names, (same env).1]
      exact known
    · cases (f env).1 <;> exact .nil
  await orderly := orderly_await fun w r v sane size step =>
    (orderly w r v sane size step).imp_left .inl
  get_bind rest := fun env k more known => rest env k more known env k (Nat.le_refl _) known
  bind := orderly_bind
  outcome := orderly_outcome

theorem orderly_copyObject (o : ObjectId) :
    Orderly n (act (Atomic.copyObject o) : Exec η _) fun _ => [] := by
  refine orderly_await fun w r v _ _ step => ⟨.inr ⟨o, ?_⟩, fun _ _ => .nil⟩
  exact (congrArg Prod.snd (Option.some.inj step)).symm

theorem orderly_execute {m : Method} (args : List Value) (owner : m.owner.index < n) :
    Orderly n (execute m args : Exec η _) fun _ => [] := by
  intro env k more known
  refine .execute (Nat.lt_of_lt_of_le owner more) known fun r j _ known' => ?_
  refine .done (Loaded.append.mpr ⟨known', ?_⟩)
  cases r.1 <;> exact .nil

theorem orderly_native (f : NativeFunction) (call : NativeCall) :
    Orderly n (native f call : Exec η _) fun _ => [] := by
  refine fun env k more known => .native known fun r j _ known' => ?_
  refine .done (Loaded.append.mpr ⟨known', ?_⟩)
  cases r.1 <;> exact .nil

/-! Calls. -/

theorem orderly_thenPop {x : Exec η α} (orderly : Orderly n x N) : Orderly n (thenPop x) N := by
  have pops : Orderly n (modify Env.popFrame : Exec η PUnit) fun _ => [] := by
    refine fun env k more known => .done (Loaded.append.mpr ⟨fun c member => known c ?_, .nil⟩)
    exact ((List.tail_sublist env.frames).filterMap _).map _ |>.subset member
  refine orderly_bind (orderly_outcome orderly) fun r k more named => ?_
  refine orderly_bind (tracks_orderly.more more pops) fun _ j more _ => ?_
  exact tracks_orderly.reconclude (named.later more)

theorem orderly_onFrame {f : Frame} {x : Exec η α} (owner : ∀ m, f = .real m → m.owner.index < n)
    (orderly : Orderly n x N) : Orderly n (onFrame f x) N := by
  have pushes : Orderly n (modify (·.pushFrame f) : Exec η PUnit) fun _ => [] := by
    refine fun env k more known => .done (Loaded.append.mpr ⟨?_, .nil⟩)
    cases f with
    | boundary => exact known
    | real m => exact .cons (Nat.lt_of_lt_of_le (owner m rfl) more) known
  exact tracks_orderly.next pushes fun _ => orderly_thenPop orderly

theorem orderly_dispatch {m : Method} (owner : m.owner.index < n) :
    Orderly n (dispatch m : Exec η Nat) fun _ => [] := by
  have bound (base : Nat) : Orderly n (runBound m base : Exec η Nat) fun _ => [] := by
    refine tracks_orderly.next (tracks_orderly.act fun _ _ => Atomic.orderly_link m) fun f => ?_
    have runs := orderly_onFrame (f := .real m) (fun _ same => by cases same; exact owner)
      (tracks_orderly.releasing (orderly_native (η := η) f ⟨m, base⟩))
    refine tracks_orderly.next runs fun top => tracks_orderly.get_next fun env => ?_
    split
    · exact tracks_orderly.pure .nil
    · exact tracks_orderly.throw _
  refine tracks_orderly.get_next fun env => ?_
  dsimp only
  split
  · exact tracks_orderly.throw_bind _ _
  · exact tracks_orderly.truncatingTo _ (bound _)

theorem orderly_invokeNative {m : Method} (owner : m.owner.index < n) :
    Orderly n (invokeNative m : Exec η Nat) fun _ => [] := by
  refine tracks_orderly.bind (orderly_outcome (orderly_dispatch owner)) fun r _ _ _ => ?_
  cases r with
  | ok top => exact tracks_orderly.pure .nil
  | error f =>
    exact tracks_orderly.next (tracks_orderly.modifyEnv fun _ => ⟨rfl, rfl⟩) fun _ =>
      tracks_orderly.throw f

theorem orderly_callOnStack {m : Method} (args : List Value) (owner : m.owner.index < n) :
    Orderly n (callOnStack m args : Exec η _) fun _ => [] := by
  refine tracks_orderly.get_next fun env => ?_
  dsimp only
  split
  · exact tracks_orderly.throw_bind _ _
  · refine tracks_orderly.next (tracks_orderly.pushArguments _) fun _ => ?_
    refine tracks_orderly.bind (orderly_outcome (orderly_invokeNative owner)) fun r _ _ _ => ?_
    cases r with
    | ok top => exact tracks_orderly.takeResult m _
    | error f =>
      exact tracks_orderly.next (tracks_orderly.modifyEnv fun _ => ⟨rfl, rfl⟩) fun _ =>
        tracks_orderly.throw f

theorem orderly_callMethod (m : Method) (args : List Value) (owner : m.owner.index < n) :
    Orderly n (callMethod m args : Exec η _) fun _ => [] := by
  unfold callMethod
  dsimp only
  split
  · exact tracks_orderly.throw_bind _ _
  split
  · exact tracks_orderly.throw_bind _ _
  refine tracks_orderly.keeping _ (tracks_orderly.next (tracks_orderly.hold _) fun _ => ?_)
  refine orderly_onFrame nofun ?_
  split
  · exact orderly_callOnStack args owner
  · exact orderly_onFrame (fun _ same => by cases same; exact owner) (orderly_execute args owner)

theorem orderly_coreNative (f : CoreNative) (call : NativeCall) :
    Orderly n (f.run call : Exec η Nat) fun _ => [] :=
  tracks_orderly.coreNative orderly_callMethod orderly_copyObject f call

end Exec

structure Code.Orderly (code : Code η) : Prop where
  execute : ∀ n m args, m.owner.index < n → Exec.Orderly n (code.execute m args) fun _ => []
  native : ∀ n f call, Exec.Orderly n (code.native f call) fun _ => []

theorem Code.orderly_withCore {execute : Method → List Value → Exec η (Option Value)}
    {embedded : Nat → NativeCall → Exec η Nat}
    (bodies : ∀ n m args, m.owner.index < n → Exec.Orderly n (execute m args) fun _ => [])
    (natives : ∀ n i call, Exec.Orderly n (embedded i call) fun _ => []) :
    (Code.withCore execute embedded).Orderly where
  execute := bodies
  native n f call := by
    cases f with
    | core f => exact Exec.orderly_coreNative f call
    | embedded i => exact natives n i call

/-! Threads side by side. -/

structure Pool.Orderly (p : Pool η ν) : Prop where
  sane : p.moment.world.Sane
  tasks : ∀ t, (p.tasks t).plain.Orderly (fun _ => []) p.moment.world.registry.loaded.size

def World.Advances (w v : World η) : Prop := v = w ∨ ∃ refs, (w.during refs).Alters v

theorem World.Advances.tame {w v : World η} (advances : w.Advances v) : Tame w v := by
  rcases advances with rfl | ⟨refs, alters⟩
  · exact .refl _
  · exact fun sane => alters.tame (sane.during refs)

theorem Task.Orderly.step {code : Code η} {N : α → List ClassId} {x y : Task η α}
    {others : List ObjectId} {w v : World η} (orderly : x.Orderly N w.registry.loaded.size)
    (codes : code.Orderly) (sane : w.Sane) (stepped : x.step code others w = .stepped y v) :
    w.Advances v ∧ y.Orderly N v.registry.loaded.size := by
  have goesOn {γ : Type} {p : Exec η γ} {n : Nat} {env : Env}
      {next : Except Failure γ × Env → Task η α}
      (runs : Exec.Orderly n p fun _ => []) (known : Loaded n env.names)
      (rest : ∀ r k, n ≤ k → Loaded k r.2.names → (next r).Orderly N k) :
      ((p.runIn env).bind next).Orderly N n :=
    (runs env n (Nat.le_refl _) known).bind fun r k more loaded =>
      rest r k more (Loaded.append.mp loaded).1
  cases orderly with
  | done loaded => cases stepped
  | @act _ _ env f next alters rest =>
    rw [Task.step] at stepped
    split at stepped
    · cases stepped
    · rename_i b w' step
      cases stepped
      have during := sane.during (env.references ++ others)
      exact ⟨.inr ⟨_, alters _ b _ during (Nat.le_refl _) step⟩,
        rest _ b _ during (Nat.le_refl _) step⟩
  | execute owner known rest =>
    cases stepped
    exact ⟨.inl rfl, goesOn (codes.execute _ _ _ owner) known rest⟩
  | native known rest =>
    cases stepped
    exact ⟨.inl rfl, goesOn (codes.native _ _ _) known rest⟩

/-- An orderly task that is run by itself meets sane states alone, and no class goes or changes. -/
theorem Task.Runs.sane {code : Code η} {N : α → List ClassId} {x : Task η α} {s w u : World η}
    {a : α} (run : Runs code Exec.Undisturbed w x a u) (codes : code.Orderly)
    (orderly : x.Orderly N w.registry.loaded.size) (sane : w.Sane)
    (later : Registry.Later s.registry w.registry) :
    Runs code (fun _ v => v.Sane ∧ Registry.Later s.registry v.registry) w x a u := by
  induction run with
  | done w a => exact .done w a
  | @act w x v u β env f next b a refs change step rest ih =>
    cases change
    have stepped : (Task.act env f next).step code refs w = .stepped (next b) v := by
      rw [Task.step, step]
    obtain ⟨advances, orderly'⟩ := orderly.step codes sane stepped
    obtain ⟨sane', later'⟩ := advances.tame sane
    exact .act refs ⟨sane, later⟩ step (ih orderly' sane' (later.trans later'))
  | @execute w u m args env next a rest ih =>
    have stepped : (Task.execute m args env next).step code [] w = .stepped _ w := rfl
    exact .execute (ih (orderly.step codes sane stepped).2 sane later)
  | @native w u f call env next a rest ih =>
    have stepped : (Task.native f call env next).step code [] w = .stepped _ w := rfl
    exact .native (ih (orderly.step codes sane stepped).2 sane later)

theorem Exec.Orderly.ends {code : Code η} {x : Exec η α} {N : α → List ClassId} {env e : Env}
    {w u : World η} {fuel : Nat} {r : Except Failure α}
    (orderly : Exec.Orderly w.registry.loaded.size x N) (codes : code.Orderly)
    (known : Loaded w.registry.loaded.size env.names) (sane : w.Sane)
    (ran : (x.runIn env).runAlone code fuel w = some ((r, e), u)) :
    Ends code (fun _ v => v.Sane ∧ Registry.Later w.registry v.registry) w env x r e u :=
  (Task.runs_of_runAlone Exec.undisturbed_refl ran).sane codes
    (orderly env _ (Nat.le_refl _) known) sane (.refl _)

namespace Pool
variable {code : AnnotatedCode η ν} {meant : ThreadId → Moment η ν → ν → Prop} {t : ThreadId}
  {p q : Pool η ν}

theorem Orderly.step (orderly : p.Orderly) (codes : code.plain.Orderly)
    (step : Step code meant t p q) : p.moment.world.Advances q.moment.world ∧ q.Orderly := by
  obtain ⟨others, own⟩ := step.plain
  have own : p.moment.world.Advances q.moment.world ∧
      (q.tasks t).plain.Orderly (fun _ => []) q.moment.world.registry.loaded.size := by
    rcases own with ⟨same, still⟩ | ⟨refs, stepped⟩
    · rw [same, still]
      exact ⟨.inl rfl, orderly.tasks t⟩
    · exact (orderly.tasks t).step codes orderly.sane stepped
  obtain ⟨sane, later⟩ := own.1.tame orderly.sane
  refine ⟨own.1, sane, fun u => ?_⟩
  by_cases same : u = t
  · rw [same]
    exact own.2
  · rw [others u same]
    exact (orderly.tasks u).more later.size

theorem Orderly.run (orderly : p.Orderly) (codes : code.plain.Orderly) (run : Run code meant p q) :
    q.Orderly := by
  induction run with
  | refl => exact orderly
  | step _ step ih => exact (ih.step codes step).2

end Pool
end ManagedRuntime
