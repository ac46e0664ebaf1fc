import ManagedRuntime.Proofs.Execution.Alone
import ManagedRuntime.Proofs.Execution.FrameDiscipline
import ManagedRuntime.Proofs.Stack.Queries

/-!
The frames of a thread are the tree of its calls. Main statement: where all code touches frames by
calls alone, a call gives back the frames that it found and their count, whatever comes of it; the
count is right all the time; the methods on the frames are the active ones, newest first, and what
natives say of the stack is said of these.
-/
namespace ManagedRuntime
open World
variable {η : Type}

inductive Exec.IsCall : {α : Type} → Exec η α → Prop where
  | method (m : Method) (args : List Value) : IsCall (Exec.callMethod m args)
  | virtual (receiver : ObjectId) (name descriptor : String) (args : List Value) :
      IsCall (Exec.callVirtual receiver name descriptor args)
  | native (m : Method) : IsCall (Exec.invokeNative m)

theorem Exec.IsCall.bracketed {α : Type} {x : Exec η α} (call : IsCall x) : Bracketed x := by
  cases call with
  | method m args => exact bracketed_callMethod m args
  | virtual receiver name descriptor args => exact bracketed_callVirtual receiver name descriptor args
  | native m => exact bracketed_invokeNative m

def Activity.entered? {α : Type} :
    Activity η α → Option (NativeFunction × NativeCall × Env × List Method)
  | ⟨.native f call env _, callers⟩ => some (f, call, env, call.method :: callers.active)
  | _ => none

theorem Activity.view_of_entered {α : Type} {s : Activity η α} {f : NativeFunction}
    {call : NativeCall} {env : Env} {ms : List Method}
    (entered : s.entered? = some (f, call, env, ms)) : s.view = some (env, ms) := by
  obtain ⟨now, callers⟩ := s
  cases now with
  | native f call env next =>
    cases entered
    rfl
  | done | act | execute => cases entered

/-- A thread has begun with no frames, and after whatever it has done the code of a native is about
to begin. The methods that are active then are `ms`, the native first. -/
inductive Code.Enters (code : Code η) (rely : World η → World η → Prop) (f : NativeFunction)
    (v : World η) (call : NativeCall) (env : Env) (ms : List Method) : Prop where
  | intro {α : Type} {x : Exec η α} {w : World η} {start : Env}
      {s : Activity η (Except Failure α × Env)} (bracketed : Exec.Bracketed x)
      (root : start.chain = ([], 0))
      (reaches : Activity.Reaches code rely (w, .start (x.runIn start)) (v, s))
      (entered : s.entered? = some (f, call, env, ms))

/-- The frames of threads are the tree of their calls. A call gives back what it found. Whenever a
thread acts or begins a method, its frames are the active methods, counted rightly; its steps are those
of its program, and what a created thread runs is such a program. What natives say of the stack is
about the methods that are active when they begin, the native among them. -/
structure Code.TellsCalls (code : Code η) (rely : World η → World η → Prop) : Prop where
  returns : ∀ {α : Type} {x : Exec η α} {w u : World η} {env e : Env} {r : Except Failure α},
    Exec.IsCall x → env.depth = env.frames.length → Exec.Ends code rely w env x r e u →
      e.frames = env.frames ∧ e.depth = env.depth
  frames : ∀ {α : Type} {x : Exec η α} {w v : World η} {start env : Env}
    {s : Activity η (Except Failure α × Env)} {ms : List Method},
    Exec.Bracketed x → start.chain = ([], 0) →
      Activity.Reaches code rely (w, .start (x.runIn start)) (v, s) → s.view = some (env, ms) →
        env.frames.methods = ms ∧ env.depth = env.frames.length
  steps : ∀ {α : Type} {w v : World η} {s t : Activity η α},
    Activity.Step code rely (w, s) (v, t) →
      (∃ refs, s.whole.step code refs w = .stepped t.whole v) ∨
        t.whole = s.whole ∧ (v = w ∨ rely w v)
  threads : ∀ start, Exec.Bracketed (Exec.threadProgram start : Exec η Unit)
  stack : ∀ {v : World η} {call : NativeCall} {env : Env} {ms : List Method},
    code.Enters rely (.core (.caller .getStack)) v call env ms → v.Canonical →
      Gentle v.heap.objects.size rely →
        Exec.Meets code rely v env (code.native (.core (.caller .getStack)) call)
          (Exec.Answers v.heap.objects.size v call env fun o u =>
            u.ListsMethods v.heap.objects.size ms o)
  context : ∀ {v : World η} {call : NativeCall} {env : Env} {ms : List Method},
    code.Enters rely (.core (.caller .getClassContext)) v call env ms → v.Canonical →
      Gentle v.heap.objects.size rely →
        Exec.Meets code rely v env (code.native (.core (.caller .getClassContext)) call)
          (Exec.Answers v.heap.objects.size v call env fun o u =>
            ∃ cs, cs <:+ ms.map Method.owner ∧ u.HoldsMirrors v.heap.objects.size cs o)
  captured : ∀ {v u : World η} {call : NativeCall} {env e : Env} {ms : List Method} {top : Nat},
    code.Enters rely (.core (.throwable .fillInStackTrace)) v call env ms →
      Exec.Ends code rely v env (code.native (.core (.throwable .fillInStackTrace)) call) (.ok top)
        e u →
        ∃ o kept s, e.stack.pop = .ok (.ref (some o), s) ∧ kept <:+ ms ∧
          (u.heap.get o).payload = .backtrace kept
  backtrace : ∀ {v : World η} {call : NativeCall} {env : Env} {ms : List Method},
    code.Enters rely (.core (.throwable .fillInStackTrace)) v call env ms → v.Canonical →
      Gentle v.heap.objects.size rely →
        Exec.Meets code rely v env (code.native (.core (.throwable .fillInStackTrace)) call)
          fun r e u =>
            match call.object? env.stack 0 with
            | none => ∃ f, r = .error f
            | some _ => Exec.Answers v.heap.objects.size v call env (fun o u =>
                ∃ kept, kept <:+ ms ∧ u.Made v.heap.objects.size o (.backtrace kept)) r e u

theorem Code.Bracketed.frames {code : Code η} (bracketed : code.Bracketed)
    {rely : World η → World η → Prop} {α : Type} {x : Exec η α} {w v : World η} {start env : Env}
    {s : Activity η (Except Failure α × Env)} {ms : List Method} (touches : Exec.Bracketed x)
    (root : start.chain = ([], 0))
    (reaches : Activity.Reaches code rely (w, .start (x.runIn start)) (v, s))
    (seen : s.view = some (env, ms)) : env.Shows ms := by
  obtain ⟨frames, depth⟩ := Prod.mk.inj root
  have counted : start.depth = start.frames.length := by rw [frames, depth]; rfl
  have shows := ((Activity.framed_start touches counted).run bracketed reaches).view seen
  rw [frames] at shows
  exact List.append_nil ms ▸ shows

theorem Code.Bracketed.enters {code : Code η} (bracketed : code.Bracketed)
    {rely : World η → World η → Prop} {f : NativeFunction} {v : World η} {call : NativeCall}
    {env : Env} {ms : List Method} (enters : code.Enters rely f v call env ms) :
    env.frames.methods = ms := by
  obtain ⟨touches, root, reaches, entered⟩ := enters
  exact (bracketed.frames touches root reaches (Activity.view_of_entered entered)).methods

theorem tellsCalls_withCore {execute : Method → List Value → Exec η (Option Value)}
    {embedded : Nat → NativeCall → Exec η Nat} (bodies : ∀ m args, Exec.Bracketed (execute m args))
    (natives : ∀ i call, Exec.Bracketed (embedded i call)) (rely : World η → World η → Prop) :
    (Code.withCore execute embedded).TellsCalls rely := by
  have bracketed := Code.bracketed_withCore bodies natives
  constructor
  case returns =>
    intro α x w u env e r call counted ends
    exact Prod.mk.inj (call.bracketed.chain bracketed counted ends)
  case frames =>
    intro α x w v start env s ms touches root reaches seen
    have shows := bracketed.frames touches root reaches seen
    exact ⟨shows.methods, shows.depth⟩
  case steps => exact fun step => step.whole
  case threads => exact Exec.bracketed_threadProgram
  case stack =>
    intro v call env ms enters canonical gentle
    rw [← bracketed.enters enters]
    exact Exec.meets_getStack gentle call canonical (Nat.le_refl _)
  case context =>
    intro v call env ms enters canonical gentle
    rw [← bracketed.enters enters]
    exact Exec.meets_getClassContext gentle call canonical (Nat.le_refl _)
  case captured =>
    intro v u call env e ms top enters ends
    rw [← bracketed.enters enters]
    exact Exec.captured_suffix ends
  case backtrace =>
    intro v call env ms enters canonical gentle
    rw [← bracketed.enters enters]
    exact Exec.meets_fillInStackTrace gentle call canonical (Nat.le_refl _)

/-! A call that fails inside another, and a list of the stack. -/

def listMethod : Method where
  owner := ⟨9⟩
  className := "test/Stack"
  name := "list"
  descriptor := "()[[Ljava/lang/Object;"
  type := ⟨[], some (.array (.array (.object "java/lang/Object")))⟩
  flags := ⟨0x0108⟩
  slot := 0

def mainMethod : Method := { listMethod with name := "main", flags := ⟨0x0008⟩, slot := 1 }
def brokenMethod : Method := { listMethod with name := "broken", flags := ⟨0x0008⟩, slot := 2 }

def nestedBody (m : Method) (_ : List Value) : Exec Unit (Option Value) :=
  if m = mainMethod then do
    discard (Exec.outcome (Exec.callMethod brokenMethod []))
    Exec.callMethod listMethod []
  else throw .nullReference

def nestedCode : Code Unit := .withCore nestedBody fun _ _ => throw .nullReference

def requiredRegistry : Registry :=
  Universe.required.tail.foldl (fun r name => (r.define (.named name) none).2)
    (Registry.empty.define (ClassDef.named Registry.rootName).root none).2

def listingWorld : World Unit :=
  Boot.initialWorld .silent
    (requiredRegistry.modifyState ⟨9⟩ ({ · with bound := [(0, .core (.caller .getStack))] })) 0

theorem unmirrored_requiredRegistry :
    requiredRegistry.Built ∧ ∀ c, (requiredRegistry.state c).mirror = none := by
  let P (r : Registry) : Prop := r.Built ∧ ∀ c, (r.state c).mirror = none
  have defined (r : Registry) (before : P r) (d : ClassDef) : P (r.define d none).2 :=
    ⟨before.1.define d none, before.1.define_unmirrored before.2 d none⟩
  have start : P Registry.empty := ⟨.empty, Registry.unmirrored_empty⟩
  exact List.foldlRecOn (motive := P) _ _ (defined _ start _) fun r before name _ =>
    defined r before (.named name)

theorem canonical_listingWorld : listingWorld.Canonical := by
  obtain ⟨built, bare⟩ := unmirrored_requiredRegistry
  let bind (s : ClassState) : ClassState := { s with bound := [(0, .core (.caller .getStack))] }
  have registry : listingWorld.registry = requiredRegistry.modifyState ⟨9⟩ bind := rfl
  have found : ∀ name ∈ Universe.required, (listingWorld.registry.find? name none).isSome = true := by
    decide +kernel
  refine ⟨registry ▸ built.modifyState _ _, fun c o mirror => ?_, nofun, fun name required => ?_⟩
  · rw [registry, Registry.state_modifyState] at mirror
    split at mirror <;> exact nomatch (bare c).symm.trans mirror
  · exact Option.isSome_iff_exists.mp (found name required)

theorem link_listMethod : (Atomic.link listMethod).runOn (listingWorld.during []) =
    (.ok (.core (.caller .getStack)), listingWorld.during []) := by
  have bound : ((listingWorld.during []).registry.state listMethod.owner).boundTo? listMethod.slot =
      some (.core (.caller .getStack)) := by decide +kernel
  unfold Atomic.link
  rw [Atomic.runOn_get_bind, bound]
  rfl

theorem enters_listMethod : ∃ env, nestedCode.Enters Exec.Undisturbed (.core (.caller .getStack))
    (listingWorld.during []) ⟨listMethod, 0⟩ env [listMethod, mainMethod] := by
  have linked := congrArg (fun r => some ((r.1, r.2.madeSince 0), r.2)) link_listMethod
  have reaches : Activity.Reaches nestedCode Exec.Undisturbed
      (listingWorld, .start ((Exec.callMethod mainMethod []).runIn (.new ⟨0⟩ 8))) _ :=
    .head .execute (.head .execute (.head (.back _) (.single (.act [] linked))))
  exact ⟨_, .intro (Exec.bracketed_callMethod _ _) rfl reaches rfl⟩

theorem bracketed_nestedBody (m : Method) (args : List Value) :
    Exec.Bracketed (nestedBody m args) := by
  unfold nestedBody
  have closed := Exec.closed_bracketed (η := Unit)
  split
  · exact closed.bind (closed.discard (closed.outcome (Exec.bracketed_callMethod _ _))) fun _ =>
      Exec.bracketed_callMethod _ _
  · exact closed.throw _

theorem World.gentle_undisturbed (n : Nat) : Gentle n (Exec.Undisturbed (η := η)) where
  refl := Exec.undisturbed_refl
  keeps w u same canonical := by
    rw [show u = w from same]
    exact canonical.keeps n

/-- The main method has the list of its stack, and all frames are gone. -/
theorem nestedCode_tellsCalls :
    (∀ m args, Exec.Bracketed (nestedBody m args)) ∧ listingWorld.Canonical ∧
      (∃ env, nestedCode.Enters Exec.Undisturbed (.core (.caller .getStack)) (listingWorld.during [])
          ⟨listMethod, 0⟩ env [listMethod, mainMethod] ∧
        Exec.Meets nestedCode Exec.Undisturbed (listingWorld.during []) env
          (nestedCode.native (.core (.caller .getStack)) ⟨listMethod, 0⟩)
          (Exec.Answers 0 (listingWorld.during []) ⟨listMethod, 0⟩ env fun o u =>
            u.ListsMethods 0 [listMethod, mainMethod] o)) ∧
      ∃ e u, Exec.Ends nestedCode Exec.Undisturbed listingWorld (.new ⟨0⟩ 8)
          (Exec.callMethod mainMethod []) (.ok (some (.ref (some ⟨5⟩)))) e u ∧
        e.frames = [] ∧ e.depth = 0 := by
  have tells := tellsCalls_withCore bracketed_nestedBody
    (fun _ _ => Exec.closed_bracketed.throw .nullReference) Exec.Undisturbed
  refine ⟨bracketed_nestedBody, canonical_listingWorld, ?_, ?_⟩
  · obtain ⟨env, enters⟩ := enters_listMethod
    have canonical := canonical_listingWorld.during (n := 0) []
    exact ⟨env, enters, tells.stack enters canonical.canonical (World.gentle_undisturbed _)⟩
  · let ended := ((Exec.callMethod mainMethod []).runIn (.new ⟨0⟩ 8)).runAlone nestedCode 60
      listingWorld
    have result : ended.map (·.1.1) = some (.ok (some (.ref (some ⟨5⟩)))) := by decide +kernel
    obtain ⟨⟨⟨r, e⟩, u⟩, run, same⟩ := Option.map_eq_some_iff.mp result
    cases same
    have ends := Task.runs_of_runAlone Exec.undisturbed_refl run
    exact ⟨e, u, ends, tells.returns (.method mainMethod []) rfl ends⟩

end ManagedRuntime
