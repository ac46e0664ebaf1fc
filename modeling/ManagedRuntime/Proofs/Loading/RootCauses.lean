import ManagedRuntime.Failure.Label
import ManagedRuntime.Proofs.Execution.Raising
import ManagedRuntime.Proofs.Loading.RoundTrip

/-!
Failures of lookups. A lookup of a class by name is annotated wherever something in it can fail: the
body of the loader and the call of it, the text that it is given, its answer, the reader of class files,
and the definition of what was read. Main statement: whatever runs, a failure that has been noted is
reported as a class that was not found, with that failure itself or among its causes.
-/
namespace ManagedRuntime
variable {η : Type} {f g : Failure}

def Failure.Within (f g : Failure) : Prop := f ∈ g :: g.causes

/-- A class was not found, and this failure is the report of it or one of its causes. -/
structure Failure.Reported (f g : Failure) : Prop where
  kind : g.label = "ClassNotFound"
  within : f.Within g

theorem Failure.Within.refl (f : Failure) : f.Within f := List.mem_cons_self

theorem Failure.Within.classNotFoundFrom (within : f.Within g) (name : String) :
    f.Within (.classNotFoundFrom name g) := List.mem_cons_of_mem _ within

namespace Noting

def resolveBootClass (name : String) : Noting η Raised (Option ClassId) := do
  match ← ofExec (Exec.act (Atomic.findBootstrap name)) with
  | some c => return some c
  | none =>
    match ← ofExec (Exec.act (Atomic.ask fun w =>
        if w.parser.isSome then w.bootClassFile? name else none)) with
    | none => return none
    | some bytes =>
      let d ← raising .parser (ofExec (Exec.act (Atomic.parseClass (some name) bytes)))
      let c ← raising .definition (ofExec (Exec.act (Atomic.defineClass d none)))
      return some c

def resolveByLoader (loader : ObjectId) (name : String) : Noting η Raised ClassId := releasing do
  let text ← raising .text (ofExec (Exec.act (Atomic.newString (dotted name))))
  let answer ← outcome (raising .call (raisingBodies
    (Exec.callVirtual loader "loadClass" "(Ljava/lang/String;)Ljava/lang/Class;"
      [.ref (some text)])))
  match answer with
  | .error f => throw (.classNotFoundFrom name f)
  | .ok v =>
    match v.bind Value.object? with
    | some o => raising .answer (ofExec (Exec.act (Atomic.mirroredClass o)))
    | none => throw (.classNotFound name)

def resolvePlainClass (name : String) (loader : Reference) : Noting η Raised ClassId := do
  match ← ofExec (Exec.act (Atomic.ask (·.registry.find? name loader))) with
  | some c => return c
  | none =>
    match loader with
    | some l => resolveByLoader l name
    | none =>
      match ← resolveBootClass name with
      | some c => return c
      | none => throw (.classNotFound name)

def resolveElement (name : String) (loader : Reference) : Noting η Raised Unit := do
  match Registry.objectName? (name.toList.drop (Registry.brackets name)) with
  | none => return
  | some element =>
    if element.isEmpty || element.head? = some '[' then throw (.classNotFound name)
    discard (resolvePlainClass (String.ofList element) loader)

def resolveClass (name : String) (loader : Reference) : Noting η Raised ClassId := do
  if Registry.isArrayName name then
    resolveElement name loader
    match ← ofExec (Exec.act (Atomic.onRegistry (·.arrayClass name loader))) with
    | some c => return c
    | none => throw (.classNotFound name)
  else resolvePlainClass name loader

def resolveForName (name : String) (initialized : Bool) (loader : Reference) :
    Noting η Raised ObjectId := do
  match internalName? name with
  | none => throw (.classNotFound name)
  | some internal =>
    match ← outcome (resolveClass internal loader) with
    | .ok c =>
      if initialized then ofExec (Exec.initializeClass c)
      ofExec (Exec.act (Atomic.mirror c))
    | .error (.classNotFound n) => throw (.classNotFound n)
    | .error (.classNotFoundFrom n f) => throw (.classNotFoundFrom n f)
    | .error f => throw (.classNotFoundFrom internal f)

def forName (call : NativeCall) : Noting η Raised Nat := do
  let name ← ofExec (Exec.stringArg call 0)
  let initialized ← ofExec (Exec.booleanArg call 1)
  let loader ← ofExec (Exec.referenceArg call 2)
  let m ← resolveForName name initialized loader
  ofExec (Exec.finishRef call (some m))

/-! Without the notes. -/

theorem plain_resolveBootClass (name : String) :
    (resolveBootClass name : Noting η Raised _).plain = Exec.findBootClass name := by
  unfold resolveBootClass Exec.findBootClass
  rw [plain_bind, plain_ofExec]
  congr
  funext found
  cases found with
  | some c => rfl
  | none =>
    dsimp only
    rw [plain_bind, plain_ofExec]
    congr
    funext file
    cases file with
    | none => rfl
    | some bytes =>
      dsimp only
      rw [plain_bind, plain_raising, plain_ofExec]
      congr
      funext d
      rw [plain_bind, plain_raising, plain_ofExec, map_eq_pure_bind]
      rfl

theorem plain_resolveByLoader (loader : ObjectId) (name : String) :
    (resolveByLoader loader name : Noting η Raised _).plain = Exec.askLoader loader name := by
  unfold resolveByLoader Exec.askLoader
  rw [plain_releasing, plain_bind, plain_raising, plain_ofExec]
  congr
  funext text
  rw [plain_bind, plain_outcome, plain_raising, plain_raisingBodies]
  congr
  funext answer
  cases answer with
  | error f => rfl
  | ok v =>
    dsimp only
    cases v.bind Value.object? with
    | none => rfl
    | some o =>
      dsimp only
      rw [plain_raising, plain_ofExec]

theorem plain_resolvePlainClass (name : String) (loader : Reference) :
    (resolvePlainClass name loader : Noting η Raised _).plain = Exec.findPlainClass name loader := by
  unfold resolvePlainClass Exec.findPlainClass
  rw [plain_bind, plain_ofExec]
  congr
  funext found
  cases found with
  | some c => rfl
  | none =>
    cases loader with
    | some l => exact plain_resolveByLoader l name
    | none =>
      dsimp only
      rw [plain_bind, plain_resolveBootClass]
      congr
      funext found
      cases found <;> rfl

theorem plain_resolveElement (name : String) (loader : Reference) :
    (resolveElement name loader : Noting η Raised _).plain = Exec.loadElement name loader := by
  rw [resolveElement, Exec.loadElement]
  cases Registry.objectName? (name.toList.drop (Registry.brackets name)) with
  | none => rfl
  | some element =>
    dsimp only
    split
    · rfl
    · rw [plain_discard, plain_resolvePlainClass]

theorem plain_resolveClass (name : String) (loader : Reference) :
    (resolveClass name loader : Noting η Raised _).plain = Exec.findClass name loader := by
  rw [resolveClass, Exec.findClass]
  split
  · rw [plain_bind, plain_resolveElement]
    congr
    funext _
    rw [plain_bind, plain_ofExec]
    congr
    funext found
    cases found <;> rfl
  · exact plain_resolvePlainClass name loader

theorem plain_resolveForName (name : String) (initialized : Bool) (loader : Reference) :
    (resolveForName name initialized loader : Noting η Raised _).plain =
      Exec.classForName name initialized loader := by
  unfold resolveForName Exec.classForName
  cases internalName? name with
  | none => rfl
  | some internal =>
    dsimp only
    rw [plain_bind, plain_outcome, plain_resolveClass]
    congr
    funext found
    cases found with
    | ok c =>
      cases initialized with
      | false => exact plain_ofExec _
      | true =>
        simp only [if_true]
        rw [plain_bind, plain_ofExec]
        congr
    | error f => cases f <;> rfl

theorem plain_forName (call : NativeCall) :
    (forName call : Noting η Raised Nat).plain = ClassNative.forName.run call := by
  simp only [forName, plain_bind, plain_ofExec, plain_resolveForName]
  rfl

/-! After the notes. -/

theorem concludes_resolveBootClass (name : String) :
    (resolveBootClass name : Noting η Raised _).Concludes Failure.Within := by
  apply concludes_bind (concludes_ofExec _)
  intro found
  cases found with
  | some c => exact concludes_ofExec (pure _)
  | none =>
    apply concludes_bind (concludes_ofExec _)
    intro file
    cases file with
    | none => exact concludes_ofExec (pure _)
    | some bytes =>
      apply concludes_bind (concludes_raising .refl _ (concludes_ofExec _))
      intro d
      apply concludes_bind (concludes_raising .refl _ (concludes_ofExec _))
      intro c
      exact concludes_ofExec (pure _)

theorem concludes_resolveByLoader (loader : ObjectId) (name : String) :
    (resolveByLoader loader name : Noting η Raised _).Concludes Failure.Within := by
  refine concludes_releasing ?_
  apply concludes_bind (concludes_raising .refl _ (concludes_ofExec _))
  intro text
  refine concludes_outcome_bind (P := Failure.Within) ?called (fun r => ?_) fun f h within => ?_
  case called => exact concludes_raising .refl _ (Exec.passes_callVirtual .refl loader _ _ _)
  · cases r with
    | error f => exact concludes_ofExec (throw _)
    | ok v =>
      dsimp only
      cases v.bind Value.object? with
      | none => exact concludes_ofExec (throw _)
      | some o => exact concludes_raising .refl _ (concludes_ofExec _)
  · exact ⟨_, fun env => ⟨env, rfl⟩, within.classNotFoundFrom name⟩

theorem concludes_resolvePlainClass (name : String) (loader : Reference) :
    (resolvePlainClass name loader : Noting η Raised _).Concludes Failure.Within := by
  apply concludes_bind (concludes_ofExec _)
  intro found
  cases found with
  | some c => exact concludes_ofExec (pure _)
  | none =>
    cases loader with
    | some l => exact concludes_resolveByLoader l name
    | none =>
      apply concludes_bind (concludes_resolveBootClass name)
      intro found
      cases found with
      | some c => exact concludes_ofExec (pure _)
      | none => exact concludes_ofExec (throw _)

theorem concludes_resolveClass (name : String) (loader : Reference) :
    (resolveClass name loader : Noting η Raised _).Concludes Failure.Within := by
  unfold resolveClass
  split
  · refine concludes_bind ?_ fun _ => concludes_bind (concludes_ofExec _) fun found => ?_
    · unfold resolveElement
      split
      · exact concludes_ofExec (pure _)
      · dsimp only
        split
        · exact concludes_ofExec (throw _)
        · exact concludes_discard (concludes_resolvePlainClass _ loader)
    · cases found with
      | some c => exact concludes_ofExec (pure _)
      | none => exact concludes_ofExec (throw _)
  · exact concludes_resolvePlainClass name loader

theorem concludes_resolveForName (name : String) (initialized : Bool) (loader : Reference) :
    (resolveForName name initialized loader : Noting η Raised _).Concludes Failure.Reported := by
  unfold resolveForName
  cases internalName? name with
  | none => exact concludes_ofExec (throw _)
  | some internal =>
    refine concludes_outcome_bind (concludes_resolveClass internal loader) (fun r => ?_)
      fun f h within => ?_
    · cases r with
      | ok c =>
        cases initialized with
        | false => exact concludes_ofExec (Exec.act (Atomic.mirror c))
        | true => exact concludes_bind (concludes_ofExec _) fun _ => concludes_ofExec _
      | error f => cases f <;> exact concludes_ofExec (throw _)
    · cases h with
      | classNotFound | classNotFoundFrom =>
        exact ⟨_, fun env => ⟨env, rfl⟩, rfl, within⟩
      | _ => exact ⟨_, fun env => ⟨env, rfl⟩, rfl, within.classNotFoundFrom internal⟩

/-! All notes that there should be. -/

theorem tells_resolvePlainClass (name : String) (loader : Reference) :
    (resolvePlainClass name loader : Noting η Raised _).Tells := by
  apply tells_bind (tells_act _)
  intro found
  cases found with
  | some c => exact tells_conclude (.ok c)
  | none =>
    cases loader with
    | some l =>
      refine tells_releasing (tells_bind (tells_raising _ (tells_act _)) fun text => ?_)
      apply tells_outcome_bind (tells_raising _ (tells_raisingBodies _))
      intro r
      cases r with
      | error f => exact tells_conclude (.error _)
      | ok v =>
        dsimp only
        cases v.bind Value.object? with
        | none => exact tells_conclude (.error _)
        | some o => exact tells_raising _ (tells_act _)
    | none =>
      refine tells_bind (tells_bind (tells_act _) fun found => ?_) fun found => ?_
      · cases found with
        | some c => exact tells_conclude (.ok _)
        | none =>
          apply tells_bind (tells_act _)
          intro file
          cases file with
          | none => exact tells_conclude (.ok _)
          | some bytes =>
            apply tells_bind (tells_raising _ (tells_act _))
            intro d
            exact tells_bind (tells_raising _ (tells_act _)) fun c => tells_conclude (.ok _)
      · cases found with
        | some c => exact tells_conclude (.ok c)
        | none => exact tells_conclude (.error _)

theorem tells_resolveClass (name : String) (loader : Reference) :
    (resolveClass name loader : Noting η Raised _).Tells := by
  unfold resolveClass
  split
  · refine tells_bind ?_ fun _ => tells_bind (tells_act _) fun found => ?_
    · unfold resolveElement
      split
      · exact tells_conclude (.ok ())
      · dsimp only
        split
        · exact tells_conclude (.error _)
        · exact tells_discard (tells_resolvePlainClass _ loader)
    · cases found with
      | some c => exact tells_conclude (.ok c)
      | none => exact tells_conclude (.error _)
  · exact tells_resolvePlainClass name loader

theorem concludes_forName (call : NativeCall) :
    (forName call : Noting η Raised Nat).Concludes Failure.Reported := by
  apply concludes_bind (concludes_ofExec _)
  intro name
  apply concludes_bind (concludes_ofExec _)
  intro initialized
  apply concludes_bind (concludes_ofExec _)
  intro loader
  exact concludes_bind (concludes_resolveForName name initialized loader) fun m => concludes_ofExec _

end Noting

namespace Exec
variable {w : World η} {env : Env} {call : NativeCall} {o : ObjectId} {name : String} {flag : Bool}
  {loader : Reference}

/-- A name that cannot name a class is refused before anything is looked up. -/
theorem unaided_forName_rejected (given : call.argument? env.stack 0 = some (.ref (some o)))
    (text : (w.heap.get o).string? = some name)
    (initialized : call.argument? env.stack 1 = some (.boolean flag))
    (asked : call.argument? env.stack 2 = some (.ref loader)) (rejected : internalName? name = none) :
    Unaided World.Preserves World.DefinesNone w env (ClassNative.forName.run call)
      fun r _ _ => r = .error (.classNotFound name) := by
  refine (finds_stringArg given text).next fun s d₁ v₁ stack₁ _ same => ?_
  rw [same]
  rw [← stack₁] at initialized asked
  refine (finds_booleanArg initialized).next fun b d₂ v₂ stack₂ _ same => ?_
  rw [← stack₂] at asked
  refine (finds_referenceArg asked).next fun l d₃ v₃ _ _ _ => ?_
  have refused : (classForName name b l : Exec η ObjectId) = throw (.classNotFound name) := by
    rw [classForName, rejected]
  rw [refused]
  exact unaided_conclude (r := .error (.classNotFound name)) rfl

/-- The native that looks classes up for programs loses no failure. Whatever code there is and whatever
other threads do: after a failure of the body of the loader or of the call of it, of the text that it is
given, of its answer, of the reader of class files or of the definition of a class, the native does
nothing any more, and it reports a class that was not found, with that failure itself or among the
causes. No body that is asked for on the way fails without a note. A name that cannot name a class is
reported before anything is run. -/
theorem forName_keeps_failures (call : NativeCall) :
    (∀ (code : Code η) rely w env r e u, Ends code rely w env (ClassNative.forName.run call) r e u ↔
      Annotated.Leads code rely (w, (Noting.forName call).runIn env) (u, .done (r, e))) ∧
    (∀ name loader, (Noting.resolveClass name loader : Noting η Raised ClassId).Tells) ∧
    (∀ (code : Code η) rely w env v n next,
      Annotated.Leads code rely (w, (Noting.forName call).runIn env) (v, .note n next) →
        ∃ g e, next.plain = .done (.error g, e) ∧ n.failure.Reported g) ∧
    ∀ (code : Code η) (w : World η) env o name flag loader,
      call.argument? env.stack 0 = some (.ref (some o)) → (w.heap.get o).string? = some name →
      call.argument? env.stack 1 = some (.boolean flag) →
      call.argument? env.stack 2 = some (.ref loader) → internalName? name = none →
        EndsUnaided code World.Preserves w env (ClassNative.forName.run call)
          fun r _ _ => r = .error (.classNotFound name) := by
  refine ⟨?runs, Noting.tells_resolveClass, ?noted, ?rejected⟩
  case runs =>
    intro code rely w env r e u
    rw [Annotated.leads_done_iff, Ends, ← Noting.plain_forName]
    rfl
  case noted =>
    intro code rely w env v n next leads
    obtain ⟨⟨r, e⟩, ends, g, failed, reported⟩ := (Noting.concludes_forName call env).after leads
    obtain rfl : r = .error g := failed
    exact ⟨g, e, ends, reported⟩
  case rejected =>
    intro code w env o name flag loader given text initialized asked rejected
    exact (unaided_forName_rejected given text initialized asked rejected).ends .refl
      (fun first second => first.trans second) code

/-! A loader that throws, asked for the element of an array class. -/

def askedWorld : World Unit :=
  { parentWorld with
    heap := { parentWorld.heap with
      objects := parentWorld.heap.objects ++ #[
        { cls := ⟨10⟩, fields := #[], payload := .string "[[Lt.A;" },
        { cls := ⟨10⟩, fields := #[], payload := .string "t/A" }] } }

def throwingCode : Code Unit where
  execute _ _ := throw .illegalMonitorState
  native _ _ := throw .nullReference

def asking (name : ObjectId) : Env := calling #[.ref (some name), .int 0, .ref (some ⟨0⟩)]

theorem thrown_by_loader_reported :
    (∃ v next g e,
      Annotated.Leads throwingCode (fun _ _ => True)
        (askedWorld, (Noting.forName ⟨searchMethod, 0⟩).runIn (asking ⟨3⟩))
        (v, .note ⟨.body, .illegalMonitorState⟩ next) ∧
      next.plain = .done (.error g, e) ∧ Failure.illegalMonitorState.Reported g) ∧
    EndsUnaided throwingCode World.Preserves askedWorld (asking ⟨4⟩)
      (ClassNative.forName.run ⟨searchMethod, 0⟩) fun r _ _ => r = .error (.classNotFound "t/A") := by
  obtain ⟨-, -, noted, rejected⟩ := forName_keeps_failures (η := Unit) ⟨searchMethod, 0⟩
  refine ⟨?_, rejected _ _ _ _ _ false (some ⟨0⟩) rfl rfl rfl rfl (by decide +kernel)⟩
  have computed : (Annotated.nextNote? throwingCode 64
      (askedWorld, (Noting.forName ⟨searchMethod, 0⟩).runIn (asking ⟨3⟩))).map (·.2.1) =
        some ⟨.body, .illegalMonitorState⟩ := by
    decide +kernel
  obtain ⟨⟨v, n, next⟩, found, same⟩ := Option.map_eq_some_iff.mp computed
  obtain rfl : n = ⟨.body, .illegalMonitorState⟩ := same
  have leads : Annotated.Leads throwingCode (fun _ _ => True) _ _ :=
    Annotated.leads_of_nextNote? (fun _ => trivial) found
  obtain ⟨g, e, ends, reported⟩ := noted _ _ _ _ _ _ _ leads
  exact ⟨v, next, g, e, leads, ends, reported⟩

end Exec
end ManagedRuntime
