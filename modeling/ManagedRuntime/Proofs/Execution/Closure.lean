import ManagedRuntime.Proofs.Stack.HiddenFrames
import ManagedRuntime.Proofs.World.Changes

/-!
Properties that programs have because their parts have them. A program may be judged in the light of
the classes that are loaded: its actions then make orderly changes, and the classes that its result
names are loaded. Main statement: such a judgement holds of every native of the runtime if it holds
of calls and of the copying of objects.
-/
namespace ManagedRuntime
variable {η α β : Type}

/-- A property of programs that act, that change their environment but for its frames, and that are
put together from such programs. -/
structure Exec.Closed (P : ∀ {α : Type}, Exec η α → Prop) : Prop where
  conclude {α : Type} (r : Except Failure α) : P (Exec.conclude r)
  onEnv {α : Type} {f : Env → Except Failure α × Env}
    (same : ∀ e, (f e).2.frames = e.frames ∧ (f e).2.depth = e.depth) : P (Exec.onEnv f)
  await {α : Type} (f : World η → Option (Except Failure α × World η)) : P (Exec.await f)
  get_bind {β : Type} {g : Env → Exec η β} (rest : ∀ e, P (g e)) : P (get >>= g)
  bind {α β : Type} {x : Exec η α} {g : α → Exec η β} (first : P x) (rest : ∀ a, P (g a)) :
    P (x >>= g)
  outcome {α : Type} {x : Exec η α} (first : P x) : P (Exec.outcome x)

def Env.names (e : Env) : List ClassId := e.frames.methods.map Method.owner

def outcomeNames (names : α → List ClassId) : Except Failure α → List ClassId
  | .ok a => names a
  | .error _ => []

/-- A judgement on programs where `n` classes are loaded, and on the classes that their results
name. Its actions may rely on a sane state and have to be orderly. -/
structure Exec.Tracks (J : ∀ {α : Type}, Nat → Exec η α → (α → List ClassId) → Prop) : Prop where
  more {α : Type} {n k : Nat} {N : α → List ClassId} {x : Exec η α} (more : n ≤ k)
    (judged : J n x N) : J k x N
  conclude {α : Type} {n : Nat} {N : α → List ClassId} {r : Except Failure α}
    (loaded : ∀ a, r = .ok a → Loaded n (N a)) : J n (Exec.conclude r) N
  onEnv {n : Nat} {f : Env → Except Failure Unit × Env}
    (same : ∀ e, (f e).2.frames = e.frames ∧ (f e).2.depth = e.depth) :
    J n (Exec.onEnv f) fun _ => []
  await {α : Type} {n : Nat} {N : α → List ClassId}
    {f : World η → Option (Except Failure α × World η)}
    (orderly : ∀ w r v, w.Sane → n ≤ w.registry.loaded.size → f w = some (r, v) →
      w.Changes v ∧ ∀ a, r = .ok a → Loaded v.registry.loaded.size (N a)) :
    J n (Exec.await f) N
  get_bind {β : Type} {n : Nat} {N : β → List ClassId} {g : Env → Exec η β}
    (rest : ∀ e k, n ≤ k → Loaded k e.names → J k (g e) N) : J n (get >>= g) N
  bind {α β : Type} {n : Nat} {N : α → List ClassId} {M : β → List ClassId} {x : Exec η α}
    {g : α → Exec η β} (first : J n x N)
    (rest : ∀ a k, n ≤ k → Loaded k (N a) → J k (g a) M) : J n (x >>= g) M
  outcome {α : Type} {n : Nat} {N : α → List ClassId} {x : Exec η α} (first : J n x N) :
    J n (Exec.outcome x) (outcomeNames N)

/-- What holds whatever the parts come to holds in the light of any classes. -/
theorem Exec.Closed.tracks {P : ∀ {α : Type}, Exec η α → Prop} (closed : Closed P) :
    Tracks fun {α} _ (x : Exec η α) _ => P x where
  more _ judged := judged
  conclude _ := closed.conclude _
  onEnv same := closed.onEnv same
  await _ := closed.await _
  get_bind {_ n _ _} rest := closed.get_bind fun e =>
    have ⟨k, more, loaded⟩ := Loaded.exists_enough n e.names
    rest e k more loaded
  bind {_ _ n N _ _ _} first rest := closed.bind first fun a =>
    have ⟨k, more, loaded⟩ := Loaded.exists_enough n (N a)
    rest a k more loaded
  outcome first := closed.outcome first

namespace Exec.Tracks
open Atomic
variable {J : ∀ {α : Type}, Nat → Exec η α → (α → List ClassId) → Prop} (tracks : Tracks J)
  {n : Nat} {N : α → List ClassId} {M : β → List ClassId}
include tracks

theorem pure {a : α} (loaded : Loaded n (N a)) : J n (Pure.pure a : Exec η α) N := by
  refine tracks.conclude fun b same => ?_
  cases same
  exact loaded

theorem throw (f : Failure) : J n (MonadExcept.throw f : Exec η α) N := tracks.conclude nofun

theorem throw_bind (f : Failure) (g : α → Exec η β) :
    J n ((MonadExcept.throw f : Exec η α) >>= g) M := tracks.conclude nofun

theorem act {x : Atomic η α}
    (orderly : ∀ w : World η, n ≤ w.registry.loaded.size → Orderly x N w) :
    J n (Exec.act x) N := by
  refine tracks.await fun w r v sane more step => ?_
  have done := orderly w more sane
  rwa [Option.some.inj step] at done

theorem ask {f : World η → α} (loaded : ∀ w : World η, w.Sane → n ≤ w.registry.loaded.size →
    Loaded w.registry.loaded.size (N (f w))) : J n (Exec.act (Atomic.ask f)) N :=
  tracks.act fun w more => orderly_ask fun sane => loaded w sane more

theorem query (f : World η → α) : J n (Exec.act (Atomic.ask f)) fun _ => [] :=
  tracks.ask fun _ _ _ => .nil

theorem askClass (c : ClassId) : J n (Exec.act (Atomic.ask (World.cls · c))) Class.names :=
  tracks.ask fun _ sane _ => sane.built.names_there c

theorem changing {x : Atomic η α} (changes : ∀ w : World η, w.Changes (x.runOn w).2) :
    J n (Exec.act x) fun _ => [] := tracks.act fun w _ _ => ⟨changes w, fun _ _ => .nil⟩

theorem awaitChange {f : World η → Option (Except Failure α × World η)}
    (changes : ∀ w r v, f w = some (r, v) → w.Changes v) : J n (Exec.await f) fun _ => [] :=
  tracks.await fun w r v _ _ step => ⟨changes w r v step, fun _ _ => .nil⟩

theorem modifyEnv {f : Env → Env} (same : ∀ e, (f e).frames = e.frames ∧ (f e).depth = e.depth) :
    J n (modify f : Exec η PUnit) fun _ => [] := tracks.onEnv (f := fun e => (.ok (), f e)) same

theorem map {x : Exec η α} {f : α → β} (first : J n x N)
    (same : ∀ a k, Loaded k (N a) → Loaded k (M (f a))) : J n (f <$> x) M := by
  rw [← bind_pure_comp]
  exact tracks.bind first fun a k _ loaded => tracks.pure (same a k loaded)

theorem forget {x : Exec η α} (f : α → β) (first : J n x N) : J n (f <$> x) fun _ => [] :=
  tracks.map first fun _ _ _ => .nil

theorem discard {x : Exec η α} (first : J n x N) : J n (discard x) fun _ => [] :=
  tracks.forget _ first

theorem hold (refs : List ObjectId) : J n (Exec.hold refs : Exec η Unit) fun _ => [] :=
  tracks.modifyEnv fun _ => ⟨rfl, rfl⟩

theorem reconclude {r : Except Failure α} (loaded : Loaded n (outcomeNames N r)) :
    J n (Exec.conclude r) N := by
  refine tracks.conclude fun a same => ?_
  cases same
  exact loaded

theorem next {x : Exec η α} {g : α → Exec η β} (first : J n x fun _ => [])
    (rest : ∀ a, J n (g a) M) : J n (x >>= g) M :=
  tracks.bind first fun a _ more _ => tracks.more more (rest a)

theorem get_next {g : Env → Exec η β} (rest : ∀ e, J n (g e) M) : J n (get >>= g) M :=
  tracks.get_bind fun e _ more _ => tracks.more more (rest e)

theorem keeping (refs : α → List ObjectId) {x : Exec η α} (first : J n x N) :
    J n (Exec.keeping refs x) N :=
  tracks.get_next fun _ => tracks.bind (tracks.outcome first) fun _ _ _ named =>
    tracks.bind (tracks.modifyEnv fun _ => ⟨rfl, rfl⟩) fun _ _ more _ =>
    tracks.reconclude (named.later more)

theorem releasing {x : Exec η α} (first : J n x N) : J n (Exec.releasing x) N :=
  tracks.keeping _ first

theorem mapM {g : α → Exec η β} {as : List α} (each : ∀ a ∈ as, J n (g a) fun _ => []) :
    J n (as.mapM g) fun _ => [] := by
  induction as with
  | nil =>
    rw [List.mapM_nil]
    exact tracks.pure .nil
  | cons a as ih =>
    rw [List.mapM_cons]
    refine tracks.next (each a List.mem_cons_self) fun _ => ?_
    exact tracks.next (ih fun a member => each a (List.mem_cons_of_mem _ member)) fun _ =>
      tracks.pure .nil

/-! Parts of a call. -/

theorem truncatingTo (base : Nat) {x : Exec η α} (first : J n x N) :
    J n (Exec.truncatingTo base x) N := by
  refine tracks.bind (tracks.outcome first) fun r k _ named => ?_
  cases r with
  | ok a => exact tracks.pure named
  | error f => exact tracks.next (tracks.modifyEnv fun _ => ⟨rfl, rfl⟩) fun _ => tracks.throw f

theorem takeResult (m : Method) (base : Nat) :
    J n (Exec.takeResult m base : Exec η _) fun _ => [] := by
  unfold Exec.takeResult
  split
  · exact tracks.next (tracks.modifyEnv fun _ => ⟨rfl, rfl⟩) fun _ => tracks.pure .nil
  · refine tracks.get_next fun e => ?_
    split
    · exact tracks.throw _
    · exact tracks.next (tracks.modifyEnv fun _ => ⟨rfl, rfl⟩) fun _ => tracks.pure .nil

theorem pushArguments (slots : List Slot) :
    J n (Exec.pushArguments slots : Exec η Unit) fun _ => [] := by
  refine tracks.get_next fun e => tracks.next (tracks.conclude fun _ _ => .nil) fun _ => ?_
  refine tracks.onEnv fun d => ?_
  dsimp only
  split <;> exact ⟨rfl, rfl⟩

/-! Arguments and results of natives. -/

theorem arg (call : NativeCall) (index : Nat) :
    J n (Exec.arg call index : Exec η Value) fun _ => [] := by
  unfold Exec.arg
  split
  · exact tracks.throw _
  · refine tracks.get_next fun e => ?_
    dsimp only
    split
    · exact tracks.next (tracks.hold _) fun _ => tracks.pure .nil
    · exact tracks.throw _

theorem unexpected (call : NativeCall) (index : Nat) (expected : String) (found : Value) :
    J n (Exec.unexpected call index expected found : Exec η α) N :=
  tracks.next (tracks.query _) fun _ => tracks.throw _

theorem intArg (call : NativeCall) (index : Nat) :
    J n (Exec.intArg call index : Exec η Int32) fun _ => [] := by
  refine tracks.next (tracks.arg call index) fun v => ?_
  cases v <;> first | exact tracks.pure .nil | exact tracks.unexpected _ _ _ _

theorem longArg (call : NativeCall) (index : Nat) :
    J n (Exec.longArg call index : Exec η Int64) fun _ => [] := by
  refine tracks.next (tracks.arg call index) fun v => ?_
  cases v <;> first | exact tracks.pure .nil | exact tracks.unexpected _ _ _ _

theorem referenceArg (call : NativeCall) (index : Nat) :
    J n (Exec.referenceArg call index : Exec η Reference) fun _ => [] := by
  refine tracks.next (tracks.arg call index) fun v => ?_
  cases v <;> first | exact tracks.pure .nil | exact tracks.unexpected _ _ _ _

theorem objectArg (call : NativeCall) (index : Nat) :
    J n (Exec.objectArg call index : Exec η ObjectId) fun _ => [] := by
  refine tracks.next (tracks.referenceArg call index) fun r => ?_
  cases r with
  | none => exact tracks.throw _
  | some o => exact tracks.pure .nil

theorem slotArg (call : NativeCall) (index : Nat) :
    J n (Exec.slotArg call index : Exec η Nat) fun _ => [] := by
  refine tracks.next (tracks.intArg call index) fun i => ?_
  dsimp only
  split
  · exact tracks.throw_bind _ _
  · exact tracks.pure .nil

theorem booleanArg (call : NativeCall) (index : Nat) :
    J n (Exec.booleanArg call index : Exec η Bool) fun _ => [] :=
  tracks.next (tracks.intArg call index) fun _ => tracks.pure .nil

theorem charArg (call : NativeCall) (index : Nat) :
    J n (Exec.charArg call index : Exec η UInt16) fun _ => [] :=
  tracks.next (tracks.intArg call index) fun _ => tracks.pure .nil

theorem classArg (call : NativeCall) (index : Nat) :
    J n (Exec.classArg call index : Exec η ClassId) ([·]) :=
  tracks.releasing (tracks.next (tracks.objectArg call index) fun _ =>
    tracks.act fun _ _ => orderly_mirroredClass _)

theorem stringArg (call : NativeCall) (index : Nat) :
    J n (Exec.stringArg call index : Exec η String) fun _ => [] :=
  tracks.releasing (tracks.next (tracks.objectArg call index) fun _ =>
    tracks.act fun _ _ => orderly_contents _)

theorem finish (call : NativeCall) (result : Option Value) :
    J n (Exec.finish call result : Exec η Nat) fun _ => [] := by
  have replaced (e : Env) (slots : List Slot) :
      (e.replaceFrom call.base slots).2.frames = e.frames ∧
      (e.replaceFrom call.base slots).2.depth = e.depth := ⟨rfl, rfl⟩
  exact tracks.next (tracks.onEnv fun e => replaced e _) fun _ =>
    tracks.get_next fun _ => tracks.pure .nil

/-! Operations without calls. -/

theorem newString (s : String) : J n (Exec.act (Atomic.newString s) : Exec η _) fun _ => [] :=
  tracks.act fun _ _ => orderly_newString s

theorem bootClass (name : String) : J n (Exec.act (Atomic.bootClass name) : Exec η _) ([·]) :=
  tracks.act fun _ _ => orderly_bootClass name

theorem newInstance {c : ClassId} (there : c.index < n) :
    J n (Exec.act (Atomic.newInstance c) : Exec η _) fun _ => [] :=
  tracks.act fun _ more => orderly_newInstance (Nat.lt_of_lt_of_le there more)

theorem mirror {c : ClassId} (there : c.index < n) :
    J n (Exec.act (Atomic.mirror c) : Exec η _) fun _ => [] :=
  tracks.act fun _ more => orderly_mirror (Nat.lt_of_lt_of_le there more)

theorem mirror? {c : Option ClassId} (loaded : Loaded n c.toList) :
    J n (Exec.act (ManagedRuntime.mirror? c) : Exec η _) fun _ => [] :=
  tracks.act fun _ more => orderly_mirror? (loaded.later more)

theorem mirrorArray {cs : List ClassId} (loaded : Loaded n cs) :
    J n (Exec.act (Atomic.mirrorArray cs) : Exec η _) fun _ => [] :=
  tracks.act fun _ more => orderly_mirrorArray (loaded.later more)

theorem referenceArray {c : ClassId} (refs : List Reference) (there : c.index < n) :
    J n (Exec.act (Atomic.referenceArray c refs) : Exec η _) fun _ => [] :=
  tracks.act fun _ more => orderly_referenceArray refs (Nat.lt_of_lt_of_le there more)

theorem writeNamed (o : ObjectId) (name : String) (v : Value) :
    J n (Exec.act (Atomic.writeNamed o name v) : Exec η _) fun _ => [] :=
  tracks.act fun _ _ => orderly_writeNamed o name v

theorem intern (o : ObjectId) : J n (Exec.intern o : Exec η ObjectId) fun _ => [] := by
  refine tracks.next (tracks.act fun _ _ => orderly_contents o) fun s =>
    tracks.next (tracks.query _) fun found => ?_
  cases found with
  | none => exact tracks.act fun _ _ => orderly_internAs s o
  | some e => exact tracks.pure .nil

theorem internText (s : String) : J n (Exec.internText s : Exec η ObjectId) fun _ => [] := by
  refine tracks.next (tracks.query _) fun found => ?_
  cases found with
  | none => exact tracks.next (tracks.newString s) fun o => tracks.intern o
  | some e => exact tracks.pure .nil

theorem onMonitor (o : ObjectId) (f : Monitor → ThreadId → Except Failure Monitor) :
    J n (Exec.onMonitor o f : Exec η Unit) fun _ => [] := by
  refine tracks.get_next fun e => tracks.changing fun w => ?_
  rw [runOn_ofFunction]
  split
  · exact w.changes_setMonitor o _
  · exact .refl

theorem enterMonitor (o : ObjectId) : J n (Exec.enterMonitor o : Exec η Unit) fun _ => [] := by
  refine tracks.get_next fun e => tracks.awaitChange fun w r v step => ?_
  obtain ⟨m, -, same⟩ := Option.map_eq_some_iff.mp step
  cases same
  exact w.changes_setMonitor o m

theorem waitOn (o : ObjectId) (limit : Option Nat) :
    J n (Exec.waitOn o limit : Exec η Unit) fun _ => [] := by
  refine tracks.get_next fun env => ?_
  refine tracks.next (tracks.changing fun w => w.changes_beginWait _ o limit) fun begun => ?_
  have report (r : Option WakeReason) : J n (Exec.act (modify (·.noteWaiting env.thread none)) >>=
      fun _ => if r = some .interrupted then
        Exec.act (modify (·.clearInterrupt env.thread)) >>= fun _ =>
          MonadExcept.throw Failure.interrupted
      else Pure.pure PUnit.unit : Exec η PUnit) fun _ => [] := by
    refine tracks.next (tracks.changing fun w => w.changes_modifyRecord _ _) fun _ => ?_
    split
    · exact tracks.next (tracks.changing fun w => w.changes_modifyRecord _ _) fun _ =>
        tracks.throw _
    · exact tracks.pure .nil
  have retakes (s : Exec.Waiting) : J n (Exec.await fun w : World η =>
      ((w.monitorOf o).reacquire? env.thread s.count).map fun m => (.ok (), w.setMonitor o m))
      fun _ => [] := by
    refine tracks.awaitChange fun w r v step => ?_
    obtain ⟨m, -, same⟩ := Option.map_eq_some_iff.mp step
    cases same
    exact w.changes_setMonitor o m
  have sleeps : J n (Exec.await fun w : World η => (awaken o begun env.thread w).map fun r =>
      (.ok r.1, r.2)) fun _ => [] := by
    refine tracks.awaitChange fun w r v step => ?_
    obtain ⟨s, woken, same⟩ := Option.map_eq_some_iff.mp step
    obtain ⟨reason, -, rfl⟩ := Option.map_eq_some_iff.mp woken
    cases same
    exact w.changes_settleWaiter _ _ _ _ _
  dsimp only
  split
  all_goals
    refine tracks.next (by first | exact tracks.pure .nil | exact sleeps) fun woken => ?_
    split
    · exact report _
    · exact tracks.next (retakes woken) fun _ => report _

theorem sleep (duration : Nat) : J n (Exec.sleep duration : Exec η Unit) fun _ => [] := by
  refine tracks.get_next fun env =>
    tracks.next (tracks.changing fun w => w.changes_addDeadline duration) fun deadline => ?_
  refine tracks.awaitChange fun w r v step => ?_
  split at step
  · cases step
    exact w.changes_modifyRecord _ _
  · split at step
    · cases step
      exact .refl
    · cases step

theorem createThread (object : ObjectId) :
    J n (Exec.createThread object : Exec η Unit) fun _ => [] := by
  have name : J n (Exec.threadName object : Exec η String) fun _ => [] :=
    tracks.bind (tracks.outcome (tracks.act fun _ _ => orderly_readNamed _ _ _)) fun _ _ _ _ =>
      tracks.query _
  refine tracks.bind (tracks.bootClass _) fun c k more known => ?_
  refine tracks.next (tracks.newInstance known.head) fun key => ?_
  refine tracks.next (tracks.writeNamed _ _ _) fun _ => ?_
  refine tracks.next (tracks.writeNamed _ _ _) fun _ => ?_
  refine tracks.next (tracks.more more name) fun _ => tracks.changing fun w => ?_
  exact .single (.threads _ _ _ w.deadlines)

theorem declaredMembers {c : ClassId} (there : c.index < n) (kind : MemberKind)
    (publicOnly : Bool) :
    J n (Exec.declaredMembers c kind publicOnly : Exec η ObjectId) fun _ => [] := by
  have writes {k : Nat} (o : ObjectId) (offset : Nat) (v : Value) :
      J k (Functor.discard (Exec.act (Atomic.writeField o offset v)) : Exec η _) fun _ => [] :=
    tracks.discard (tracks.act fun _ _ => orderly_writeField o offset v)
  have member {k : Nat} {d : ClassId} (loaded : d.index < k) (declaringAt nameAt slotAt : Nat)
      (mirror : ObjectId) (slot : Nat) (name : String) :
      J k (Exec.newMember d declaringAt nameAt slotAt mirror slot name : Exec η ObjectId)
        fun _ => [] :=
    tracks.next (tracks.newInstance loaded) fun _ => tracks.next (writes _ _ _) fun _ =>
      tracks.next (tracks.internText _) fun _ => tracks.next (writes _ _ _) fun _ =>
      tracks.next (writes _ _ _) fun _ => tracks.pure .nil
  refine tracks.next (tracks.query _) fun _ => ?_
  refine tracks.bind (tracks.bootClass _) fun d k more known => ?_
  have offset (name : String) :
      J k (Exec.act (Exec.declaredOffset d name) : Exec η _) fun _ => [] :=
    tracks.act fun _ _ => orderly_declaredOffset d name
  refine tracks.next (offset _) fun _ => tracks.next (offset _) fun _ =>
    tracks.next (offset _) fun _ => ?_
  refine tracks.next (tracks.mirror (Nat.lt_of_lt_of_le there more)) fun _ => ?_
  refine tracks.next (tracks.mapM fun _ _ => tracks.forget _ (member known.head _ _ _ _ _ _)) ?_
  exact fun _ => tracks.referenceArray _ known.head

theorem stackTraceElement {c : ClassId} (there : c.index < n) (m : Method) :
    J n (ManagedRuntime.stackTraceElement c m : Exec η ObjectId) fun _ => [] :=
  tracks.next (tracks.newInstance there) fun _ => tracks.next (tracks.newString _) fun _ =>
    tracks.next (tracks.newString _) fun _ => tracks.next (tracks.writeNamed _ _ _) fun _ =>
    tracks.next (tracks.writeNamed _ _ _) fun _ => tracks.next (tracks.writeNamed _ _ _) fun _ =>
    tracks.next (tracks.writeNamed _ _ _) fun _ => tracks.pure .nil

/-! Natives that call nothing. -/

theorem objectNative (copies : ∀ o, J n (Exec.act (Atomic.copyObject o) : Exec η _) fun _ => [])
    (f : ObjectNative) (call : NativeCall) : J n (f.run call : Exec η Nat) fun _ => [] := by
  refine tracks.next (tracks.objectArg call 0) fun o => ?_
  cases f with
  | getClass =>
    have mirrors : J n (Exec.act do Atomic.mirror ((← get).classOf o) : Exec η _) fun _ => [] :=
      tracks.act fun w _ => orderly_get_bind fun sane => orderly_mirror (sane.objects o) sane
    exact tracks.next mirrors fun _ => tracks.finish _ _
  | clone => exact tracks.next (copies o) fun _ => tracks.finish _ _
  | wait =>
    exact tracks.next (tracks.longArg call 1) fun _ => tracks.next (tracks.intArg call 2) fun _ =>
      tracks.next (tracks.conclude fun _ _ => .nil) fun _ => tracks.next (tracks.waitOn _ _) fun _ =>
      tracks.finish _ _
  | notify | notifyAll => exact tracks.next (tracks.onMonitor _ _) fun _ => tracks.finish _ _

theorem systemNative (f : SystemNative) (call : NativeCall) :
    J n (f.run call : Exec η Nat) fun _ => [] := by
  cases f with
  | arraycopy =>
    exact tracks.next (tracks.referenceArg call 0) fun _ =>
      tracks.next (tracks.referenceArg call 2) fun _ => tracks.next (tracks.intArg call 1) fun _ =>
      tracks.next (tracks.intArg call 3) fun _ => tracks.next (tracks.intArg call 4) fun _ =>
      tracks.next (tracks.act fun _ _ => orderly_arrayCopy _ _ _ _ _) fun _ => tracks.finish _ _
  | identityHashCode =>
    exact tracks.next (tracks.referenceArg call 0) fun _ => tracks.finish _ _

theorem runtimeNative (f : RuntimeNative) (call : NativeCall) :
    J n (f.run call : Exec η Nat) fun _ => [] := by
  cases f with
  | freeMemory | totalMemory | maxMemory =>
    exact tracks.next (tracks.query _) fun _ => tracks.finish _ _
  | gc => exact tracks.next (tracks.act fun _ _ => orderly_collection) fun _ => tracks.finish _ _
  | runFinalization => exact tracks.finish _ _
  | exit =>
    exact tracks.next (tracks.intArg call 0) fun _ =>
      tracks.next (tracks.act fun _ _ => orderly_hostExit _) fun _ => tracks.finish _ _
  | nativeLoad =>
    exact tracks.next (tracks.stringArg call 0) fun _ =>
      tracks.next (tracks.act fun _ _ => orderly_hostLoad _) fun _ => tracks.finish _ _
  | mapLibraryName =>
    exact tracks.next (tracks.stringArg call 0) fun _ => tracks.next (tracks.newString _) fun _ =>
      tracks.finish _ _

theorem internNative (call : NativeCall) :
    J n (ManagedRuntime.internNative call : Exec η Nat) fun _ => [] :=
  tracks.next (tracks.objectArg call 0) fun o => tracks.next (tracks.intern o) fun _ =>
    tracks.finish _ _

theorem threadNative (f : ThreadNative) (call : NativeCall) :
    J n (f.run call : Exec η Nat) fun _ => [] := by
  have receiver : J n (receiverThread call : Exec η (Option ThreadId)) fun _ => [] :=
    tracks.next (tracks.objectArg call 0) fun _ => tracks.query _
  cases f with
  | currentThread =>
    exact tracks.get_next fun _ => tracks.next (tracks.query _) fun _ => tracks.finish _ _
  | create =>
    exact tracks.next (tracks.objectArg call 0) fun o => tracks.next (tracks.createThread o) fun _ =>
      tracks.finish _ _
  | sleep =>
    exact tracks.next (tracks.longArg call 0) fun _ => tracks.next (tracks.intArg call 1) fun _ =>
      tracks.next (tracks.conclude fun _ _ => .nil) fun _ => tracks.next (tracks.sleep _) fun _ =>
      tracks.finish _ _
  | yield => exact tracks.finish _ _
  | interrupted =>
    have takes : J n (Exec.takeInterrupt : Exec η Bool) fun _ => [] :=
      tracks.get_next fun _ => tracks.changing fun w => w.changes_modifyRecord _ _
    exact tracks.next takes fun _ => tracks.finish _ _
  | holdsLock =>
    exact tracks.next (tracks.objectArg call 0) fun _ => tracks.get_next fun _ =>
      tracks.next (tracks.query _) fun _ => tracks.finish _ _
  | interrupt =>
    refine tracks.next receiver fun t => ?_
    cases t with
    | some t =>
      exact tracks.next (tracks.changing fun w => w.changes_modifyRecord _ _) fun _ =>
        tracks.finish _ _
    | none => exact tracks.finish _ _
  | isAlive | isInterrupted =>
    exact tracks.next receiver fun _ => tracks.next (tracks.query _) fun _ => tracks.finish _ _
  | nativeSetPriority =>
    exact tracks.next (tracks.discard (tracks.intArg call 1)) fun _ => tracks.finish _ _

theorem throwableNative (f : ThrowableNative) (call : NativeCall) :
    J n (f.run call : Exec η Nat) fun _ => [] := by
  refine tracks.next (tracks.objectArg call 0) fun o => ?_
  cases f with
  | fillInStackTrace =>
    refine tracks.get_next fun _ => tracks.next (tracks.query _) fun _ => ?_
    refine tracks.bind (tracks.bootClass _) fun c k _ known => ?_
    refine tracks.next (tracks.act fun _ more => ?_) fun _ => tracks.finish _ _
    exact orderly_newCarrier (known.later more).head nofun
  | getStackTrace =>
    refine tracks.next (tracks.query _) fun (found, text) => ?_
    cases found with
    | none => exact tracks.throw _
    | some methods =>
      refine tracks.bind (tracks.bootClass _) fun c k _ known => ?_
      refine tracks.next (tracks.mapM fun m _ => ?_) fun _ =>
        tracks.next (tracks.referenceArray _ known.head) fun _ => tracks.finish _ _
      exact tracks.forget _ (tracks.stackTraceElement known.head m)

theorem callerNative (f : CallerNative) (call : NativeCall) :
    J n (f.run call : Exec η Nat) fun _ => [] := by
  refine tracks.get_bind fun env k _ known => tracks.next (tracks.query _) fun walker => ?_
  cases f with
  | getClassContext =>
    have context := ((walker.context_suffix env.frames).map Method.owner).subset
    exact tracks.next (tracks.mirrorArray fun c member => known c (context member)) fun _ =>
      tracks.finish _ _
  | getCallingClass =>
    dsimp only
    split
    · exact tracks.finish _ _
    · rename_i m calling
      have owner := known _ (List.mem_map_of_mem (walker.callingMethod?_mem calling))
      exact tracks.next (tracks.mirror owner) fun _ => tracks.finish _ _
  | getCallingClassLoader =>
    dsimp only
    split
    · exact tracks.finish _ _
    · exact tracks.next (tracks.query _) fun _ => tracks.finish _ _
  | getStack =>
    refine tracks.next (tracks.mirrorArray known) fun _ => ?_
    refine tracks.next (tracks.mapM fun _ _ => tracks.forget _ (tracks.internText _)) fun _ => ?_
    refine tracks.bind (tracks.bootClass _) fun c i _ string => ?_
    refine tracks.next (tracks.referenceArray _ string.head) fun _ => ?_
    refine tracks.bind (tracks.bootClass _) fun d j _ root => ?_
    have rows : J j (Exec.act (Atomic.arrayOf d) : Exec η _) ([·]) :=
      tracks.act fun _ more => orderly_arrayOf (root.later more).head
    refine tracks.bind rows fun a _ _ row => ?_
    exact tracks.next (tracks.referenceArray _ row.head) fun _ => tracks.finish _ _

/-! Operations that call methods. -/

section calls
variable (calls : ∀ {k : Nat} (m : Method) (args : List Value), m.owner.index < k →
  J k (Exec.callMethod m args : Exec η (Option Value)) fun _ => [])
include calls

theorem callVirtual (receiver : ObjectId) (name descriptor : String) (args : List Value) :
    J n (Exec.callVirtual receiver name descriptor args : Exec η _) fun _ => [] := by
  have found : J n (Exec.act (Atomic.ask fun w =>
      (w.registry.lookupMethod? (w.classOf receiver) name descriptor, w.classNameOf receiver)) :
      Exec η _) fun r => r.1.toList.map Method.owner := by
    refine tracks.ask fun w sane _ => ?_
    cases looked : w.registry.lookupMethod? (w.classOf receiver) name descriptor with
    | none => exact .nil
    | some m => exact .one (sane.built.lookupMethod?_there looked)
  refine tracks.bind found fun (found, className) k _ known => ?_
  cases found with
  | none => exact tracks.throw _
  | some m => exact calls m _ known.head

theorem threadProgram (start : ThreadStart) :
    J n (Exec.threadProgram start : Exec η Unit) fun _ => [] := by
  have quietly {x : Exec η Unit} (first : J n x fun _ => []) :
      J n (Functor.discard (Exec.outcome x)) fun _ => [] := tracks.discard (tracks.outcome first)
  have body : J n (Exec.callVirtual start.object "run" "()V" [] : Exec η _) fun _ => [] :=
    tracks.callVirtual calls _ _ _ _
  refine tracks.next (tracks.hold _) fun _ => ?_
  refine tracks.next (tracks.releasing (tracks.discard (tracks.outcome body))) fun _ => ?_
  refine tracks.next (tracks.changing fun w => w.changes_modifyRecord _ _) fun _ => ?_
  refine tracks.next (tracks.enterMonitor _) fun _ => ?_
  refine tracks.next (quietly (tracks.writeNamed _ _ _)) fun _ => ?_
  refine tracks.next (quietly (tracks.onMonitor _ _)) fun _ => ?_
  refine tracks.next (quietly (tracks.onMonitor _ _)) fun _ => tracks.changing fun w => ?_
  exact .single (.threads w.records _ w.starting w.deadlines)

theorem callInitializer (name : String) {m : Method} (owner : m.owner.index < n) :
    J n (Exec.callInitializer name m : Exec η Unit) fun _ => [] := by
  have call := tracks.releasing (tracks.discard (calls m [] owner))
  refine tracks.bind (tracks.outcome call) fun r k _ _ => ?_
  cases r with
  | ok a => exact tracks.pure .nil
  | error f =>
    refine tracks.next (tracks.query _) fun unwrapped => ?_
    split
    · exact tracks.throw f
    · exact tracks.throw _

theorem runInitializer (c : ClassId) : J n (Exec.runInitializer c : Exec η Unit) fun _ => [] := by
  refine tracks.bind (tracks.askClass c) fun x k _ known => ?_
  split
  · exact tracks.pure .nil
  · rename_i m found
    refine tracks.callInitializer calls _ (known _ (List.mem_append_right _ ?_))
    exact List.mem_map_of_mem (List.mem_of_find?_eq_some found)

theorem initializeClass (c : ClassId) : J n (Exec.initializeClass c : Exec η Unit) fun _ => [] := by
  have phase (w : World η) (c : ClassId) (p : InitPhase) : w.Changes (Exec.setPhase c p w) :=
    .single (.state c fun _ => rfl)
  have within (i : Nat) (c : ClassId) :
      J n (Exec.initializeWithin i c : Exec η Unit) fun _ => [] := by
    induction i generalizing c with
    | zero => exact tracks.pure .nil
    | succ i ih =>
      have request : J n (Exec.requestInit c : Exec η InitDecision) fun _ => [] := by
        refine tracks.get_next fun _ => tracks.awaitChange fun w r v step => ?_
        obtain ⟨⟨decision, p⟩, -, same⟩ := Option.map_eq_some_iff.mp step
        cases same
        exact phase w c p
      refine tracks.next request fun decision => ?_
      cases decision with
      | available => exact tracks.pure .nil
      | failed f => exact tracks.next (tracks.query _) fun _ => tracks.throw _
      | proceed =>
        refine tracks.bind (tracks.outcome ?_) fun r _ _ known =>
          tracks.next (tracks.changing fun w => phase w _ _) fun _ => tracks.reconclude known
        refine tracks.next (tracks.query _) fun x => ?_
        split
        · exact tracks.runInitializer calls c
        · exact tracks.next (ih _) fun _ => tracks.runInitializer calls c
  exact within _ c

/-! Lookups. What is found is loaded. -/

theorem askLoader (loader : ObjectId) (name : String) :
    J n (Exec.askLoader loader name : Exec η ClassId) ([·]) := by
  refine tracks.releasing (tracks.next (tracks.newString _) fun text => ?_)
  refine tracks.bind (tracks.outcome (tracks.callVirtual calls _ _ _ _)) fun r _ _ _ => ?_
  cases r with
  | error f => exact tracks.throw _
  | ok v =>
    dsimp only
    split
    · exact tracks.act fun _ _ => orderly_mirroredClass _
    · exact tracks.throw _

omit calls in
theorem findBootClass (name : String) :
    J n (Exec.findBootClass name : Exec η (Option ClassId)) Option.toList := by
  refine tracks.bind (tracks.act fun _ _ => orderly_findBootstrap name) fun found _ _ known => ?_
  cases found with
  | some c => exact tracks.pure known
  | none =>
    refine tracks.next (tracks.query _) fun file => ?_
    cases file with
    | none => exact tracks.pure .nil
    | some bytes =>
      refine tracks.next (tracks.act fun _ _ => orderly_parseClass _ _) fun d => ?_
      exact tracks.map (tracks.act fun _ _ => orderly_defineClass d none) fun _ _ known => known

omit calls in
theorem askFound (name : String) (loader : Reference) :
    J n (Exec.act (Atomic.ask (·.registry.find? name loader)) : Exec η _) Option.toList := by
  refine tracks.ask fun w _ _ => ?_
  cases found : w.registry.find? name loader with
  | none => exact .nil
  | some c => exact .one (Registry.find?_known found).there

theorem findPlainClass (name : String) (loader : Reference) :
    J n (Exec.findPlainClass name loader : Exec η ClassId) ([·]) := by
  refine tracks.bind (tracks.askFound name loader) fun found _ _ known => ?_
  cases found with
  | some c => exact tracks.pure known
  | none =>
    cases loader with
    | some l => exact tracks.askLoader calls l name
    | none =>
      refine tracks.bind (tracks.findBootClass name) fun found _ _ known => ?_
      cases found with
      | some c => exact tracks.pure known
      | none => exact tracks.throw _

theorem findClass (name : String) (loader : Reference) :
    J n (Exec.findClass name loader : Exec η ClassId) ([·]) := by
  have element : J n (Exec.loadElement name loader : Exec η Unit) fun _ => [] := by
    unfold Exec.loadElement
    split
    · exact tracks.pure .nil
    · dsimp only
      split
      · exact tracks.throw_bind _ _
      · exact tracks.discard (tracks.findPlainClass calls _ _)
  unfold Exec.findClass
  split
  · refine tracks.next element fun _ =>
      tracks.bind (tracks.act fun _ _ => orderly_arrayClass name loader) fun found _ _ known => ?_
    cases found with
    | some c => exact tracks.pure known
    | none => exact tracks.throw _
  · exact tracks.findPlainClass calls name loader

theorem classForName (name : String) (initialized : Bool) (loader : Reference) :
    J n (Exec.classForName name initialized loader : Exec η ObjectId) fun _ => [] := by
  unfold Exec.classForName
  split
  · exact tracks.throw _
  · refine tracks.bind (tracks.outcome (tracks.findClass calls _ _)) fun r _ _ known => ?_
    split
    · have mirror := tracks.mirror known.head
      dsimp only
      split
      · exact tracks.next (tracks.initializeClass calls _) fun _ => mirror
      · exact mirror
    · exact tracks.throw _
    · exact tracks.throw _
    · exact tracks.throw _

/-! Reflection. -/

theorem locateField (c : ClassId) (slot : Nat) (receiver : Reference) :
    J n (Exec.locateField c slot receiver : Exec η Exec.FieldPlace) fun _ => [] := by
  refine tracks.next (tracks.query _) fun x => ?_
  split
  · exact tracks.throw _
  · split
    · exact tracks.next (tracks.initializeClass calls c) fun _ => tracks.pure .nil
    · exact tracks.next (tracks.act fun _ _ => orderly_receiverOf c receiver) fun _ =>
        tracks.pure .nil

omit calls in
theorem box (v : Value) : J n (Exec.act (Atomic.box v) : Exec η _) fun _ => [] :=
  tracks.act fun _ _ => orderly_box v

theorem getField (c : ClassId) (slot : Nat) (receiver : Reference) :
    J n (Exec.getField c slot receiver : Exec η Reference) fun _ => [] :=
  tracks.next (tracks.locateField calls c slot receiver) fun _ =>
    tracks.next (tracks.act fun _ _ => orderly_readPlace _) fun _ => tracks.box _

theorem getPrimitiveField (c : ClassId) (slot : Nat) (receiver : Reference) (want : Primitive) :
    J n (Exec.getPrimitiveField c slot receiver want : Exec η Value) fun _ => [] := by
  refine tracks.next (tracks.locateField calls c slot receiver) fun p => ?_
  dsimp only
  split
  · exact tracks.throw_bind _ _
  · refine tracks.next (tracks.act fun _ _ => orderly_readPlace _) fun v => ?_
    split
    · exact tracks.pure .nil
    · exact tracks.throw _

theorem setField (c : ClassId) (slot : Nat) (receiver : Reference) (given : Option ClassId)
    (value : Reference) :
    J n (Exec.setField c slot receiver given value : Exec η Unit) fun _ => [] :=
  tracks.next (tracks.locateField calls c slot receiver) fun _ =>
    tracks.next (tracks.query _) fun _ =>
    tracks.next (tracks.act fun _ _ => orderly_convert _ _ _ _ _) fun _ =>
    tracks.act fun _ _ => orderly_writePlace _ _

theorem setPrimitiveField (c : ClassId) (slot : Nat) (receiver : Reference) (value : Value) :
    J n (Exec.setPrimitiveField c slot receiver value : Exec η Unit) fun _ => [] := by
  refine tracks.next (tracks.locateField calls c slot receiver) fun p => ?_
  split
  · exact tracks.act fun _ _ => orderly_writePlace _ _
  · exact tracks.throw _

theorem callTarget {m : Method} (owner : m.owner.index < n) (args : List Value) :
    J n (Exec.callTarget m args : Exec η (Option Value)) fun _ => [] := by
  refine tracks.bind (tracks.outcome (calls m args owner)) fun r _ _ _ => ?_
  cases r with
  | ok v => exact tracks.pure .nil
  | error f => exact tracks.throw _

omit calls in
theorem methodAt (c : ClassId) (slot : Nat) :
    J n (Exec.act (Exec.methodAt c slot) : Exec η _) fun m => [m.owner] :=
  tracks.act fun _ _ => orderly_methodAt c slot

theorem invocationTarget (c : ClassId) {m : Method} (owner : m.owner.index < n)
    (receiver : Reference) :
    J n (Exec.invocationTarget c m receiver : Exec η _) fun r => [r.1.owner] := by
  unfold Exec.invocationTarget
  split
  · exact tracks.bind (tracks.initializeClass calls c) fun _ _ more _ =>
      tracks.pure (.one (Nat.lt_of_lt_of_le owner more))
  · refine tracks.next (tracks.act fun _ _ => orderly_receiverOf c receiver) fun o => ?_
    have target : J n (Exec.act do
        let w ← get
        w.registry.virtualTarget (w.classOf o) m : Exec η Method) fun m => [m.owner] := by
      refine tracks.act fun w more => orderly_get_bind ?_
      cases found : w.registry.virtualTarget (w.classOf o) m with
      | error f => exact orderly_throw f
      | ok target =>
        refine orderly_pure fun sane => .one ?_
        exact sane.built.virtualTarget_there (Nat.lt_of_lt_of_le owner more) found
    exact tracks.bind target fun _ _ _ known => tracks.pure known

omit calls in
theorem convertArguments (m : Method) (loader args : Reference) :
    J n (Exec.act (Exec.convertArguments m loader args) : Exec η _) fun _ => [] :=
  tracks.act fun _ _ => orderly_convertArguments m loader args

theorem invokeMember (c : ClassId) (slot : Nat) (receiver args : Reference) :
    J n (Exec.invokeMember c slot receiver args : Exec η Reference) fun _ => [] := by
  refine tracks.bind (tracks.methodAt c slot) fun m k _ owner => ?_
  refine tracks.bind (tracks.invocationTarget calls c owner.head receiver)
    fun (found, this) _ _ known => ?_
  refine tracks.next (tracks.query _) fun loader =>
    tracks.next (tracks.convertArguments _ _ _) fun values => ?_
  refine tracks.next (tracks.hold _) fun _ =>
    tracks.next (tracks.callTarget calls known.head _) fun result => ?_
  cases result with
  | none => exact tracks.pure .nil
  | some v => exact tracks.box v

theorem construct {c : ClassId} (there : c.index < n) (slot : Nat) (args : Reference) :
    J n (Exec.construct c slot args : Exec η ObjectId) fun _ => [] := by
  refine tracks.bind (tracks.methodAt c slot) fun m k more owner =>
    tracks.next (tracks.query _) fun x => ?_
  dsimp only
  split
  · exact tracks.throw_bind _ _
  · refine tracks.next (tracks.convertArguments _ _ _) fun values =>
      tracks.next (tracks.hold _) fun _ => ?_
    refine tracks.next (tracks.initializeClass calls c) fun _ =>
      tracks.next (tracks.newInstance (Nat.lt_of_lt_of_le there more)) fun o => ?_
    exact tracks.next (tracks.releasing (tracks.discard (tracks.callTarget calls owner.head _)))
      fun _ => tracks.pure .nil

/-! Natives that may call. -/

theorem classNative (f : ClassNative) (call : NativeCall) :
    J n (f.run call : Exec η Nat) fun _ => [] := by
  have cls {g : ClassId → Exec η Nat}
      (rest : ∀ c k, n ≤ k → c.index < k → J k (g c) fun _ => []) :
      J n (Exec.classArg call 0 >>= g) fun _ => [] :=
    tracks.bind (tracks.classArg call 0) fun c k more known => rest c k more known.head
  have members (kind : MemberKind) : J n (memberArray call kind : Exec η Nat) fun _ => [] :=
    cls fun c _ _ there => tracks.next (tracks.booleanArg call 1) fun _ =>
      tracks.next (tracks.declaredMembers there kind _) fun _ => tracks.finish _ _
  have inner {k : Nat} (x : Class) (publicOnly : Bool) (listed : List String) :
      J k (memberClasses x publicOnly listed : Exec η (List ClassId)) id := by
    induction listed generalizing k with
    | nil => exact tracks.pure .nil
    | cons name listed ih =>
      refine tracks.bind (tracks.findClass calls _ _) fun c k _ found =>
        tracks.next (tracks.query _) fun _ => ?_
      refine tracks.bind ih fun cs j more rest => ?_
      split
      · exact tracks.pure (.cons (found.later more).head rest)
      · exact tracks.pure rest
  cases f with
  | isInterface | isPrimitive | isArray | isSynthetic | isAnnotationType | isEnum
  | hasClassInitializer =>
    exact cls fun _ _ _ _ => tracks.next (tracks.query _) fun _ => tracks.finish _ _
  | getDeclaredConstructors => exact members .constructor
  | getDeclaredMethods => exact members .method
  | getDeclaredFields => exact members .field
  | getClassLoader => exact cls fun _ _ _ _ => tracks.next (tracks.query _) fun _ => tracks.finish _ _
  | getSuperclass =>
    refine cls fun c _ _ _ => tracks.bind (tracks.askClass c) fun x k _ known => ?_
    refine tracks.next (tracks.mirror? fun d member => known d (List.mem_append_left _ ?_)) fun _ =>
      tracks.finish _ _
    split at member
    · cases member
    · exact List.mem_append_left _ (List.mem_append_left _ member)
  | getComponentType =>
    refine cls fun c _ _ _ => tracks.bind (tracks.askClass c) fun x k _ known => ?_
    refine tracks.next (tracks.mirror? fun d member => known d (List.mem_append_left _ ?_)) fun _ =>
      tracks.finish _ _
    exact List.mem_append_right _ member
  | getName =>
    exact cls fun _ _ _ _ => tracks.next (tracks.query _) fun _ =>
      tracks.next (tracks.newString _) fun _ => tracks.finish _ _
  | getInterfaces =>
    refine cls fun c _ _ _ => tracks.bind (tracks.askClass c) fun x k _ known => ?_
    refine tracks.next (tracks.mirrorArray fun d member => known d (List.mem_append_left _ ?_))
      fun _ => tracks.finish _ _
    exact List.mem_append_left _ (List.mem_append_right _ member)
  | getModifiers =>
    exact cls fun _ _ _ _ => tracks.next (tracks.booleanArg call 1) fun _ =>
      tracks.next (tracks.query _) fun _ => tracks.finish _ _
  | isInstance =>
    exact cls fun _ _ _ _ => tracks.next (tracks.referenceArg call 1) fun _ =>
      tracks.next (tracks.query _) fun _ => tracks.finish _ _
  | isAssignableFrom =>
    exact cls fun _ _ _ _ => tracks.bind (tracks.classArg call 1) fun _ _ _ _ =>
      tracks.next (tracks.query _) fun _ => tracks.finish _ _
  | getDeclaredClasses =>
    exact cls fun _ _ _ _ => tracks.next (tracks.booleanArg call 1) fun _ =>
      tracks.next (tracks.query _) fun _ => tracks.bind (inner _ _ _) fun _ _ _ found =>
      tracks.next (tracks.mirrorArray found) fun _ => tracks.finish _ _
  | getDeclaringClass =>
    refine cls fun _ _ _ _ => tracks.next (tracks.query _) fun x => ?_
    split
    · exact tracks.finish _ _
    · exact tracks.bind (tracks.findClass calls _ _) fun _ _ _ found =>
        tracks.next (tracks.mirror found.head) fun _ => tracks.finish _ _
  | forName =>
    exact tracks.next (tracks.stringArg call 0) fun _ =>
      tracks.next (tracks.booleanArg call 1) fun _ =>
      tracks.next (tracks.referenceArg call 2) fun _ =>
      tracks.next (tracks.classForName calls _ _ _) fun _ => tracks.finish _ _
  | throwException =>
    exact tracks.next (tracks.objectArg call 0) fun _ => tracks.next (tracks.query _) fun _ =>
      tracks.throw _

omit calls in
theorem defineFromBytes (loader name array : Reference) (offset length : Int32)
    {domain : Exec η Reference} (given : J n domain fun _ => []) :
    J n (ManagedRuntime.defineFromBytes loader name array offset length domain : Exec η ObjectId)
      fun _ => [] := by
  have keep {k : Nat} (d : ClassDef) (domain : Reference) : J k (do
      let c ← Exec.act (Atomic.defineClass d loader)
      let m ← Exec.act (Atomic.mirror c)
      Functor.discard (Exec.act do Atomic.writeField m (← get).domainOffset (.ref domain))
      return m : Exec η ObjectId) fun _ => [] := by
    refine tracks.bind (tracks.act fun _ _ => orderly_defineClass d loader) fun c _ _ defined => ?_
    refine tracks.next (tracks.mirror defined.head) fun m => ?_
    refine tracks.next (tracks.discard (tracks.act (N := fun _ => []) fun w _ => ?_)) fun _ =>
      tracks.pure .nil
    exact orderly_get_bind (orderly_writeField m _ _)
  have bytes : J n (Exec.act do bytesWithin (← get) array offset length : Exec η ByteArray)
      fun _ => [] := by
    refine tracks.act fun w _ => orderly_get_bind ?_
    cases bytesWithin w array offset length with
    | error f => exact orderly_throw f
    | ok b => exact orderly_pure fun _ => .nil
  refine tracks.next (tracks.query _) fun name => tracks.next bytes fun bytes => ?_
  refine tracks.next given fun domain => ?_
  refine tracks.next (tracks.act fun _ _ => orderly_parseClass _ _) fun d => ?_
  cases name with
  | none => exact keep d domain
  | some expected =>
    dsimp only
    split
    · exact tracks.throw_bind _ _
    · exact keep d domain

theorem loaderNative (f : LoaderNative) (call : NativeCall) :
    J n (f.run call : Exec η Nat) fun _ => [] := by
  cases f with
  | loadClass =>
    exact tracks.next (tracks.stringArg call 0) fun _ =>
      tracks.next (tracks.booleanArg call 1) fun _ =>
      tracks.next (tracks.classForName calls _ _ _) fun _ => tracks.finish _ _
  | getPrimitiveClass =>
    have primitives (p : Option Primitive) : J n (Exec.act (ManagedRuntime.mirror?
        (p.map Registry.primitive)) : Exec η _) fun _ => [] := by
      refine tracks.act fun w _ sane => orderly_mirror? (fun c member => ?_) sane
      obtain ⟨p, -, rfl⟩ := Option.map_eq_some_iff.mp (Option.mem_toList.mp member)
      exact Nat.lt_of_lt_of_le (by cases p <;> decide) sane.built.ordered.primitives
    exact tracks.next (tracks.charArg call 0) fun _ => tracks.next (primitives _) fun _ =>
      tracks.finish _ _
  | defineClass =>
    exact tracks.next (tracks.referenceArg call 0) fun _ =>
      tracks.next (tracks.referenceArg call 1) fun _ =>
      tracks.next (tracks.referenceArg call 2) fun _ => tracks.next (tracks.intArg call 3) fun _ =>
      tracks.next (tracks.intArg call 4) fun _ =>
      tracks.next (tracks.defineFromBytes _ _ _ _ _ (tracks.referenceArg call 5)) fun _ =>
      tracks.finish _ _
  | findLoadedClass =>
    exact tracks.next (tracks.referenceArg call 0) fun _ =>
      tracks.next (tracks.stringArg call 1) fun _ =>
      tracks.bind (tracks.askFound _ _) fun _ _ _ found =>
      tracks.next (tracks.mirror? found) fun _ => tracks.finish _ _
  | resolveClass =>
    exact tracks.bind (tracks.classArg call 0) fun c _ _ _ =>
      tracks.next (tracks.initializeClass calls c) fun _ => tracks.finish _ _
  | getBootClassPathSize => exact tracks.next (tracks.query _) fun _ => tracks.finish _ _
  | getBootClassPathResource =>
    refine tracks.next (tracks.stringArg call 0) fun _ =>
      tracks.next (tracks.intArg call 1) fun _ => tracks.next (tracks.query _) fun found => ?_
    cases found with
    | none => exact tracks.finish _ _
    | some url => exact tracks.next (tracks.newString _) fun _ => tracks.finish _ _

theorem memberNative (f : MemberNative) (call : NativeCall) :
    J n (f.run call : Exec η Nat) fun _ => [] := by
  -- the class and the position come as arguments next to each other
  have place {k : Nat} {g : ClassId → Nat → Exec η Nat} (at₁ at₂ : Nat)
      (rest : ∀ c slot i, c.index < i → J i (g c slot) fun _ => []) :
      J k (Exec.classArg call at₁ >>= fun c => Exec.slotArg call at₂ >>= fun slot => g c slot)
        fun _ => [] :=
    tracks.bind (tracks.classArg call at₁) fun c i _ there =>
      tracks.next (tracks.slotArg call at₂) fun slot => rest c slot i there.head
  have reference {k : Nat} {g : Reference → Exec η Nat} (i : Nat)
      (rest : ∀ r, J k (g r) fun _ => []) : J k (Exec.referenceArg call i >>= g) fun _ => [] :=
    tracks.next (tracks.referenceArg call i) rest
  cases f with
  | fieldModifiers =>
    refine place 1 2 fun _ _ _ _ => tracks.next (tracks.query _) fun x => ?_
    split
    · exact tracks.finish _ _
    · exact tracks.throw _
  | methodModifiers =>
    exact place 1 2 fun c slot _ _ => tracks.bind (tracks.methodAt c slot) fun _ _ _ _ =>
      tracks.finish _ _
  | getField =>
    exact reference 1 fun _ => place 2 4 fun _ _ _ _ =>
      tracks.next (tracks.getField calls _ _ _) fun _ => tracks.finish _ _
  | setField =>
    refine reference 1 fun _ => place 2 4 fun _ _ _ _ =>
      tracks.next (tracks.releasing ?_) fun _ => reference 5 fun _ =>
      tracks.next (tracks.setField calls _ _ _ _ _) fun _ => tracks.finish _ _
    refine tracks.next (tracks.referenceArg call 3) fun r => ?_
    cases r with
    | none => exact tracks.pure .nil
    | some o => exact tracks.forget _ (tracks.act fun _ _ => orderly_mirroredClass o)
  | getPrimitiveField =>
    unfold MemberNative.run
    dsimp only
    split
    · exact tracks.throw _
    · exact reference 1 fun _ => place 2 4 fun _ _ _ _ =>
        tracks.next (tracks.getPrimitiveField calls _ _ _ _) fun _ => tracks.finish _ _
  | setPrimitiveField =>
    exact reference 1 fun _ => place 2 4 fun _ _ _ _ => tracks.next (tracks.arg call 5) fun _ =>
      tracks.next (tracks.setPrimitiveField calls _ _ _ _) fun _ => tracks.finish _ _
  | invoke =>
    exact reference 1 fun _ => reference 2 fun _ => place 3 4 fun _ _ _ _ =>
      tracks.next (tracks.invokeMember calls _ _ _ _) fun _ => tracks.finish _ _
  | construct =>
    exact reference 1 fun _ => place 2 3 fun _ _ _ there =>
      tracks.next (tracks.construct calls there _ _) fun _ => tracks.finish _ _

theorem propertiesNative (f : PropertiesNative) (call : NativeCall) :
    J n (f.run call : Exec η Nat) fun _ => [] := by
  have each (table : ObjectId) (properties : List (String × String)) :
      J n (setProperties table properties : Exec η Unit) fun _ => [] := by
    induction properties with
    | nil => exact tracks.pure .nil
    | cons property rest ih =>
      refine tracks.next (tracks.releasing ?_) fun _ => ih
      exact tracks.next (tracks.newString _) fun _ => tracks.next (tracks.newString _) fun _ =>
        tracks.discard (tracks.callVirtual calls _ _ _ _)
  exact tracks.next (tracks.objectArg call 0) fun _ => tracks.next (tracks.query _) fun _ =>
    tracks.next (each _ _) fun _ => tracks.finish _ _

theorem coreNative (copies : ∀ o, J n (Exec.act (Atomic.copyObject o) : Exec η _) fun _ => [])
    (f : CoreNative) (call : NativeCall) : J n (f.run call : Exec η Nat) fun _ => [] := by
  cases f with
  | object f => exact tracks.objectNative copies f call
  | system f => exact tracks.systemNative f call
  | runtime f => exact tracks.runtimeNative f call
  | cls f => exact tracks.classNative calls f call
  | intern => exact tracks.internNative call
  | thread f => exact tracks.threadNative f call
  | throwable f => exact tracks.throwableNative f call
  | loader f => exact tracks.loaderNative calls f call
  | member f => exact tracks.memberNative calls f call
  | properties f => exact tracks.propertiesNative calls f call
  | caller f => exact tracks.callerNative f call

end calls

end Exec.Tracks

/-! What holds whatever the parts come to. -/

namespace Exec.Closed
variable {P : ∀ {α : Type}, Exec η α → Prop} (closed : Closed P)
include closed

theorem pure (a : α) : P (Pure.pure a : Exec η α) := closed.conclude (.ok a)

theorem throw (f : Failure) : P (MonadExcept.throw f : Exec η α) := closed.conclude (.error f)

theorem throw_bind (f : Failure) (g : α → Exec η β) :
    P ((MonadExcept.throw f : Exec η α) >>= g) := closed.conclude (.error f)

theorem act (x : Atomic η α) : P (Exec.act x) := closed.await _

theorem modify {f : Env → Env} (same : ∀ e, (f e).frames = e.frames ∧ (f e).depth = e.depth) :
    P (modify f : Exec η PUnit) := closed.onEnv (f := fun e => (.ok (), f e)) same

theorem discard {x : Exec η α} (first : P x) : P (discard x) :=
  closed.tracks.discard (n := 0) (N := fun _ => []) first

theorem hold (refs : List ObjectId) : P (Exec.hold refs : Exec η Unit) :=
  closed.tracks.hold (n := 0) refs

theorem keeping (refs : α → List ObjectId) {x : Exec η α} (first : P x) :
    P (Exec.keeping refs x) := closed.tracks.keeping (n := 0) (N := fun _ => []) refs first

theorem truncatingTo (base : Nat) {x : Exec η α} (first : P x) : P (Exec.truncatingTo base x) :=
  closed.tracks.truncatingTo (n := 0) (N := fun _ => []) base first

theorem takeResult (m : Method) (base : Nat) : P (Exec.takeResult m base : Exec η _) :=
  closed.tracks.takeResult (n := 0) m base

theorem pushArguments (slots : List Slot) : P (Exec.pushArguments slots : Exec η Unit) :=
  closed.tracks.pushArguments (n := 0) slots

theorem objectArg (call : NativeCall) (index : Nat) :
    P (Exec.objectArg call index : Exec η ObjectId) := closed.tracks.objectArg (n := 0) call index

section calls
variable (calls : ∀ m args, P (Exec.callMethod m args : Exec η (Option Value)))
include calls

theorem callVirtual (receiver : ObjectId) (name descriptor : String) (args : List Value) :
    P (Exec.callVirtual receiver name descriptor args : Exec η _) :=
  closed.tracks.callVirtual (n := 0) (fun m args _ => calls m args) receiver name descriptor args

theorem threadProgram (start : ThreadStart) : P (Exec.threadProgram start : Exec η Unit) :=
  closed.tracks.threadProgram (n := 0) (fun m args _ => calls m args) start

theorem coreNative (f : CoreNative) (call : NativeCall) : P (f.run call : Exec η Nat) :=
  closed.tracks.coreNative (n := 0) (fun m args _ => calls m args) (fun _ => closed.act _) f call

end calls

end Exec.Closed
end ManagedRuntime
