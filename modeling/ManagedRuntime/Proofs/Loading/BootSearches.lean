import ManagedRuntime.Boot.Basic
import ManagedRuntime.Natives.Dispatch
import ManagedRuntime.Proofs.Execution.Annotated
import ManagedRuntime.Proofs.Loading.BootPath

/-!
Searches of the boot class path. The natives through which programs ask for classes by name are
annotated with a note where the bootstrap loader turns to its path; without the notes they are the
runtime's own. Main statement: whatever runs, each search tries files under the directories of the
path alone exactly if the name that was asked for is not led by a dot, but for a path that is empty
or happens to hold that file.
-/
namespace ManagedRuntime
variable {η ν α β : Type}

/-- A program has asked for a class, and the path is searched for a class file of this name. -/
structure Search where
  asked : String
  name : String
  deriving DecidableEq

namespace Noting

def findBootClass (asked name : String) : Noting η Search (Option ClassId) := do
  match ← ofExec (Exec.act (Atomic.findBootstrap name)) with
  | some c => return some c
  | none =>
    note ⟨asked, name⟩
    match ← ofExec (Exec.act (Atomic.ask fun w =>
        (w.bootFilesTried name).findSome? w.platform.files.read?)) with
    | none => return none
    | some bytes =>
      let d ← ofExec (Exec.act (Atomic.parseClass (some name) bytes))
      ofExec (some <$> Exec.act (Atomic.defineClass d none))

def searchPlainClass (asked name : String) (loader : Reference) : Noting η Search ClassId := do
  match ← ofExec (Exec.act (Atomic.ask (·.registry.find? name loader))) with
  | some c => return c
  | none =>
    match loader with
    | some l => ofExec (Exec.askLoader l name)
    | none =>
      match ← findBootClass asked name with
      | some c => return c
      | none => throw (.classNotFound name)

def searchElement (asked name : String) (loader : Reference) : Noting η Search Unit := do
  match Registry.objectName? (name.toList.drop (Registry.brackets name)) with
  | none => return
  | some element =>
    if element.isEmpty || element.head? = some '[' then throw (.classNotFound name)
    discard (searchPlainClass asked (String.ofList element) loader)

def searchClass (asked name : String) (loader : Reference) : Noting η Search ClassId := do
  if Registry.isArrayName name then
    searchElement asked name loader
    match ← ofExec (Exec.act (Atomic.onRegistry (·.arrayClass name loader))) with
    | some c => return c
    | none => throw (.classNotFound name)
  else searchPlainClass asked name loader

def searchForName (asked : String) (initialized : Bool) (loader : Reference) :
    Noting η Search ObjectId := do
  match internalName? asked with
  | none => throw (.classNotFound asked)
  | some internal =>
    match ← outcome (searchClass asked internal loader) with
    | .ok c =>
      if initialized then ofExec (Exec.initializeClass c)
      ofExec (Exec.act (Atomic.mirror c))
    | .error (.classNotFound n) => throw (.classNotFound n)
    | .error (.classNotFoundFrom n f) => throw (.classNotFoundFrom n f)
    | .error f => throw (.classNotFoundFrom internal f)

def searchingNative (f : CoreNative) (call : NativeCall) : Noting η Search Nat :=
  match f with
  | .cls .forName => do
    let name ← ofExec (Exec.stringArg call 0)
    let initialized ← ofExec (Exec.booleanArg call 1)
    let loader ← ofExec (Exec.referenceArg call 2)
    let m ← searchForName name initialized loader
    ofExec (Exec.finishRef call (some m))
  | .loader .loadClass => do
    let name ← ofExec (Exec.stringArg call 0)
    let initialized ← ofExec (Exec.booleanArg call 1)
    let m ← searchForName name initialized none
    ofExec (Exec.finishRef call (some m))
  | f => ofExec (f.run call)

theorem plain_note_bind (n : ν) (g : Unit → Noting η ν β) : (note n >>= g).plain = (g ()).plain :=
  rfl

theorem plain_findBootClass (asked name : String) :
    (findBootClass asked name : Noting η Search _).plain = Exec.findBootClass name := by
  unfold findBootClass Exec.findBootClass
  rw [plain_bind, plain_ofExec]
  congr
  funext found
  cases found with
  | some c => rfl
  | none =>
    dsimp only
    rw [plain_note_bind, plain_bind, plain_ofExec]
    simp only [World.findSome?_bootFilesTried]
    congr
    funext file
    cases file with
    | none => rfl
    | some bytes =>
      dsimp only
      rw [plain_bind, plain_ofExec]
      congr
      funext d
      exact plain_ofExec _

theorem plain_searchPlainClass (asked name : String) (loader : Reference) :
    (searchPlainClass asked name loader : Noting η Search _).plain =
      Exec.findPlainClass name loader := by
  unfold searchPlainClass Exec.findPlainClass
  rw [plain_bind, plain_ofExec]
  congr
  funext found
  cases found with
  | some c => rfl
  | none =>
    cases loader with
    | some l => exact plain_ofExec _
    | none =>
      dsimp only
      rw [plain_bind, plain_findBootClass]
      congr
      funext found
      cases found <;> rfl

theorem plain_searchElement (asked name : String) (loader : Reference) :
    (searchElement asked name loader : Noting η Search _).plain =
      Exec.loadElement name loader := by
  rw [searchElement, Exec.loadElement]
  cases Registry.objectName? (name.toList.drop (Registry.brackets name)) with
  | none => rfl
  | some element =>
    dsimp only
    split
    · rfl
    · rw [plain_discard, plain_searchPlainClass]

theorem plain_searchClass (asked name : String) (loader : Reference) :
    (searchClass asked name loader : Noting η Search _).plain = Exec.findClass name loader := by
  rw [searchClass, Exec.findClass]
  split
  · rw [plain_bind, plain_searchElement]
    congr
    funext _
    rw [plain_bind, plain_ofExec]
    congr
    funext found
    cases found <;> rfl
  · exact plain_searchPlainClass asked name loader

theorem plain_searchForName (asked : String) (initialized : Bool) (loader : Reference) :
    (searchForName asked initialized loader : Noting η Search _).plain =
      Exec.classForName asked initialized loader := by
  unfold searchForName Exec.classForName
  cases internalName? asked with
  | none => rfl
  | some internal =>
    dsimp only
    rw [plain_bind, plain_outcome, plain_searchClass]
    congr
    funext found
    cases found with
    | ok c =>
      cases initialized with
      | false => exact plain_ofExec _
      | true =>
        simp only [if_true]
        rw [plain_bind, plain_ofExec]
        congr
    | error f => cases f <;> rfl

theorem plain_searchingNative (f : CoreNative) (call : NativeCall) :
    (searchingNative f call : Noting η Search _).plain = f.run call := by
  unfold searchingNative
  split
  · simp only [plain_bind, plain_ofExec, plain_searchForName]
    rfl
  · simp only [plain_bind, plain_ofExec, plain_searchForName]
    rfl
  · exact plain_ofExec _

end Noting

def AnnotatedCode.withSearches (execute : Method → List Value → Exec η (Option Value))
    (embedded : Nat → NativeCall → Exec η Nat) : AnnotatedCode η Search where
  execute m args := .ofExec (execute m args)
  native f call :=
    match f with
    | .core f => Noting.searchingNative f call
    | .embedded i => .ofExec (embedded i call)

theorem AnnotatedCode.plain_withSearches (execute : Method → List Value → Exec η (Option Value))
    (embedded : Nat → NativeCall → Exec η Nat) :
    (withSearches execute embedded).plain = .withCore execute embedded := by
  refine congr (congrArg Code.mk ?_) ?_
  · exact funext fun m => funext fun args => Noting.plain_ofExec _
  · funext f call
    cases f with
    | core f => exact Noting.plain_searchingNative f call
    | embedded i => exact Noting.plain_ofExec _

/-! Notes that are put. -/

inductive Annotated.Notes (P : ν → Prop) : Annotated η ν α → Prop
  | done {a : α} : Notes P (.done a)
  | note {n : ν} {next : Annotated η ν α} (holds : P n) (rest : Notes P next) :
      Notes P (.note n next)
  | act {β : Type} {env : Env} {f : World η → Option (β × World η)}
      {next : β → Annotated η ν α} (rest : ∀ b, Notes P (next b)) : Notes P (.act env f next)
  | execute {m : Method} {args : List Value} {env : Env}
      {next : Except Failure (Option Value) × Env → Annotated η ν α}
      (rest : ∀ r, Notes P (next r)) : Notes P (.execute m args env next)
  | native {f : NativeFunction} {call : NativeCall} {env : Env}
      {next : Except Failure Nat × Env → Annotated η ν α}
      (rest : ∀ r, Notes P (next r)) : Notes P (.native f call env next)

variable {P : ν → Prop}

namespace Annotated

theorem Notes.bind {x : Annotated η ν α} {g : α → Annotated η ν β} (first : x.Notes P)
    (rest : ∀ a, (g a).Notes P) : (x.bind g).Notes P := by
  induction first with
  | done => exact rest _
  | note holds _ ih => exact .note holds ih
  | act _ ih => exact .act ih
  | execute _ ih => exact .execute ih
  | native _ ih => exact .native ih

theorem notes_ofTask (x : Task η α) : (ofTask x : Annotated η ν α).Notes P := by
  induction x with
  | done a => exact .done
  | act env f next ih => exact .act ih
  | execute m args env next ih => exact .execute ih
  | native f call env next ih => exact .native ih

end Annotated

namespace Noting

def Notes (P : ν → Prop) (x : Noting η ν α) : Prop := ∀ env, (x.runIn env).Notes P

theorem notes_ofExec (x : Exec η α) : (ofExec x : Noting η ν α).Notes P :=
  fun _ => Annotated.notes_ofTask _

theorem notes_pure (a : α) : (pure a : Noting η ν α).Notes P := fun _ => .done

theorem notes_throw (f : Failure) : (throw f : Noting η ν α).Notes P := fun _ => .done

theorem notes_bind {x : Noting η ν α} {g : α → Noting η ν β} (first : x.Notes P)
    (rest : ∀ a, (g a).Notes P) : (x >>= g).Notes P := by
  intro env
  rw [show (x >>= g).runIn env = (x.runIn env).bind _ from rfl]
  refine (first env).bind fun (r, e) => ?_
  cases r with
  | error f => exact .done
  | ok a => exact rest a e

theorem notes_outcome {x : Noting η ν α} (notes : x.Notes P) : x.outcome.Notes P :=
  fun env => (notes env).bind fun _ => .done

theorem notes_discard {x : Noting η ν α} (notes : x.Notes P) : (discard x).Notes P := by
  intro env
  refine (notes env).bind fun (r, e) => ?_
  cases r <;> exact .done

theorem notes_note_bind {n : ν} {g : Unit → Noting η ν β} (holds : P n)
    (rest : (g ()).Notes P) : (note n >>= g).Notes P := fun env => .note holds (rest env)

section searches
variable {asked name internal : String} {P : Search → Prop}

theorem notes_findBootClass (holds : P ⟨asked, name⟩) :
    (findBootClass asked name : Noting η Search _).Notes P := by
  refine notes_bind (notes_ofExec _) fun found => ?_
  cases found with
  | some c => exact notes_pure _
  | none =>
    refine notes_note_bind holds (notes_bind (notes_ofExec _) fun file => ?_)
    cases file with
    | none => exact notes_pure _
    | some bytes => exact notes_bind (notes_ofExec _) fun d => notes_ofExec _

theorem notes_searchPlainClass (holds : P ⟨asked, name⟩) (loader : Reference) :
    (searchPlainClass asked name loader : Noting η Search _).Notes P := by
  refine notes_bind (notes_ofExec _) fun found => ?_
  cases found with
  | some c => exact notes_pure _
  | none =>
    cases loader with
    | some l => exact notes_ofExec _
    | none =>
      refine notes_bind (notes_findBootClass holds) fun found => ?_
      cases found with
      | some c => exact notes_pure _
      | none => exact notes_throw _

theorem notes_searchClass (names : internalName? asked = some internal) (loader : Reference) :
    (searchClass asked internal loader : Noting η Search _).Notes
      fun s => SearchedFor s.asked s.name := by
  unfold searchClass
  split
  · rename_i array
    refine notes_bind ?_ fun _ => notes_bind (notes_ofExec _) fun found => ?_
    · unfold searchElement
      split
      · exact notes_pure _
      · rename_i element found
        have holds : SearchedFor asked (String.ofList element) := by
          refine .element names array ?_
          rw [Registry.elementName?, found]
          rfl
        split
        · exact notes_throw _
        · exact notes_discard (notes_searchPlainClass holds loader)
    · cases found with
      | some c => exact notes_pure _
      | none => exact notes_throw _
  · rename_i plain
    have holds : SearchedFor asked internal := .plain names (eq_false_of_ne_true plain)
    exact notes_searchPlainClass holds loader

theorem notes_searchForName (asked : String) (initialized : Bool) (loader : Reference) :
    (searchForName asked initialized loader : Noting η Search _).Notes
      fun s => SearchedFor s.asked s.name := by
  unfold searchForName
  cases names : internalName? asked with
  | none => exact notes_throw _
  | some internal =>
    refine notes_bind (notes_outcome (notes_searchClass names loader)) fun found => ?_
    cases found with
    | ok c =>
      cases initialized with
      | false => exact notes_ofExec _
      | true => exact notes_bind (notes_ofExec _) fun _ => notes_ofExec _
    | error f => cases f <;> exact notes_throw _

theorem notes_searchingNative (f : CoreNative) (call : NativeCall) :
    (searchingNative f call : Noting η Search _).Notes fun s => SearchedFor s.asked s.name := by
  unfold searchingNative
  split
  · refine notes_bind (notes_ofExec _) fun name => notes_bind (notes_ofExec _) fun _ => ?_
    refine notes_bind (notes_ofExec _) fun loader => ?_
    exact notes_bind (notes_searchForName _ _ _) fun m => notes_ofExec _
  · refine notes_bind (notes_ofExec _) fun name => notes_bind (notes_ofExec _) fun _ => ?_
    exact notes_bind (notes_searchForName _ _ _) fun m => notes_ofExec _
  · exact notes_ofExec _

end searches
end Noting

namespace Pool
variable {code : AnnotatedCode η ν} {meant : ThreadId → Moment η ν → ν → Prop} {t : ThreadId}
  {p q : Pool η ν}

structure Notes (P : ν → Prop) (p : Pool η ν) : Prop where
  put : ∀ n ∈ p.moment.notes, P n.2
  tasks : ∀ t, (p.tasks t).Notes P

theorem Notes.goOn {σ : Moment η ν} {next : Annotated η ν Unit} (notes : p.Notes P)
    (put : ∀ n ∈ σ.notes, P n.2) (rest : next.Notes P) : (p.goOn t σ next).Notes P :=
  ⟨put, forall_goOn rest fun u _ => notes.tasks u⟩

theorem Notes.step (notes : p.Notes P) (execute : ∀ m args, (code.execute m args).Notes P)
    (native : ∀ f call, (code.native f call).Notes P) (step : Step code meant t p q) :
    q.Notes P := by
  have task := notes.tasks t
  cases step with
  | note here means =>
    rw [here] at task
    cases task with
    | note holds rest => exact notes.goOn (List.forall_mem_cons.mpr ⟨holds, notes.put⟩) rest
  | act refs here step =>
    rw [here] at task
    cases task with
    | act rest => exact notes.goOn notes.put (rest _)
  | execute here =>
    rw [here] at task
    cases task with
    | execute rest => exact notes.goOn notes.put ((execute _ _ _).bind rest)
  | native here =>
    rw [here] at task
    cases task with
    | native rest => exact notes.goOn notes.put ((native _ _ _).bind rest)

theorem Notes.run (notes : p.Notes P) (execute : ∀ m args, (code.execute m args).Notes P)
    (native : ∀ f call, (code.native f call).Notes P) (run : Run code meant p q) : q.Notes P := by
  induction run with
  | refl => exact notes
  | step _ step ih => exact ih.step execute native step

def start (w : World η) (tasks : ThreadId → Task η Unit) : Pool η ν where
  moment := ⟨w, []⟩
  tasks t := .ofTask (tasks t)

/-- The search is for the class that was asked for or for the class of its elements, and whatever
state it finds, the files that it tries lie under directories of the boot class path, unless the
name was led by a dot. Without the notes the code is the runtime's own. -/
theorem searches_inside_iff {execute : Method → List Value → Exec η (Option Value)}
    {embedded : Nat → NativeCall → Exec η Nat} {w : World η} {tasks : ThreadId → Task η Unit}
    {meant : ThreadId → Moment η Search → Search → Prop} {q : Pool η Search} {s : Search}
    (run : Run (.withSearches execute embedded) meant (start w tasks) q)
    (noted : (t, s) ∈ q.moment.notes) (v : World η) :
    SearchedFor s.asked s.name ∧
      ((∀ path ∈ v.bootFilesTried s.name, v.OnBootPath path) ↔
        ¬ LedByDot s.asked ∨ v.bootFilesTried s.name = [] ∨
          v.OnBootPath (s.name ++ ".class")) ∧
      (AnnotatedCode.withSearches execute embedded).plain = .withCore execute embedded := by
  have starts : (start w tasks : Pool η Search).Notes fun s => SearchedFor s.asked s.name :=
    ⟨nofun, fun t => Annotated.notes_ofTask _⟩
  have ended := starts.run (fun m args => Noting.notes_ofExec _) (fun f call => ?_) run
  · have searched := ended.put (t, s) noted
    exact ⟨searched, searched.inside_iff v, AnnotatedCode.plain_withSearches execute embedded⟩
  · cases f with
    | core f => exact Noting.notes_searchingNative f call
    | embedded i => exact Noting.notes_ofExec _

/-! A program that has a class loaded from the boot class path. -/

def loadClassMethod : Method where
  owner := ⟨0⟩
  className := "java/lang/VMClassLoader"
  name := "loadClass"
  descriptor := "(Ljava/lang/String;Z)Ljava/lang/Class;"
  type := ⟨[.object "java/lang/String", .primitive .boolean], some (.object "java/lang/Class")⟩
  flags := ⟨0x0108⟩
  slot := 0

def askFor (name : String) : Exec Unit Nat := do
  let text ← Exec.act (Atomic.newString name)
  Exec.pushSlot (.ref (some text))
  Exec.pushSlot (.int 0)
  Exec.native (.core (.loader .loadClass)) ⟨loadClassMethod, 0⟩

def filedWorld : World Unit :=
  let root := (Registry.empty.define (ClassDef.named Registry.rootName).root none).2
  let mirrors := (root.define (.named "java/lang/Class") none).2
  let strings := (mirrors.define (.named "java/lang/String") none).2
  { Boot.initialWorld .silent strings 0 with
    options := { bootClassPath := ["boot"] }
    parser := some fun _ _ x => (.ok (.named "t/C"), x)
    platform := { Embedding.silent.platform with
      files := .ofList [("boot/t/C.class", .empty)] } }

def asking (name : String) : Pool Unit Search :=
  start filedWorld fun t => ((askFor name).runIn (.new t 8)).bind fun _ => .done ()

def filedCode : AnnotatedCode Unit Search :=
  .withSearches (fun _ _ => throw .nullReference) fun _ _ => throw .nullReference

/-- The file that is read is one of the path's. -/
theorem file_found_inside :
    ∃ q, Run filedCode (fun _ _ _ => True) (asking "t.C") q ∧
      (⟨0⟩, ⟨"t.C", "t/C"⟩) ∈ q.moment.notes ∧
      q.moment.world.bootFilesTried "t/C" = ["boot/t/C.class"] ∧
      q.moment.world.OnBootPath "boot/t/C.class" := by
  have driven : ((asking "t.C").drive filedCode (fun _ _ _ => True)
      (List.replicate 10 ⟨0⟩)).map (fun q =>
        (q.moment.notes, q.moment.world.bootFilesTried "t/C")) =
      some ([(⟨0⟩, ⟨"t.C", "t/C"⟩)], ["boot/t/C.class"]) := by decide +kernel
  obtain ⟨q, drove, same⟩ := Option.map_eq_some_iff.mp driven
  obtain ⟨notes, tried⟩ := Prod.mk.inj same
  have run := run_of_drive drove
  have noted : (⟨0⟩, ⟨"t.C", "t/C"⟩) ∈ q.moment.notes := by
    rw [notes]
    exact List.mem_singleton_self _
  have inside := (searches_inside_iff run noted q.moment.world).2.1.mpr (.inl (by decide +kernel))
  refine ⟨q, run, noted, tried, inside _ ?_⟩
  rw [tried]
  exact List.mem_singleton_self _

/-- A name led by a dot leads away from the path. -/
theorem file_tried_outside :
    ∃ q, Run filedCode (fun _ _ _ => True) (asking ".etc.X") q ∧
      (⟨0⟩, ⟨".etc.X", "/etc/X"⟩) ∈ q.moment.notes ∧
      "/etc/X.class" ∈ q.moment.world.bootFilesTried "/etc/X" ∧
      ¬ q.moment.world.OnBootPath "/etc/X.class" := by
  have driven : ((asking ".etc.X").drive filedCode (fun _ _ _ => True)
      (List.replicate 7 ⟨0⟩)).map (fun q =>
        (q.moment.notes, q.moment.world.bootFilesTried "/etc/X",
          q.moment.world.options.bootClassPath)) =
      some ([(⟨0⟩, ⟨".etc.X", "/etc/X"⟩)], ["/etc/X.class"], ["boot"]) := by decide +kernel
  obtain ⟨q, drove, same⟩ := Option.map_eq_some_iff.mp driven
  simp only [Prod.mk.injEq] at same
  obtain ⟨notes, tried, dirs⟩ := same
  refine ⟨q, run_of_drive drove, ?_, ?_, ?_⟩
  · rw [notes]
    exact List.mem_singleton_self _
  · rw [tried]
    exact List.mem_singleton_self _
  · rintro ⟨dir, here, under⟩
    rw [dirs] at here
    obtain rfl := List.mem_singleton.mp here
    exact Path.not_under_of_relative (by decide) (by decide) under

end Pool
end ManagedRuntime
