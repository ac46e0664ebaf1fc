import ManagedRuntime.Proofs.Class.NamesBack
import ManagedRuntime.Proofs.Execution.Arguments
import ManagedRuntime.Proofs.Loading.ArrayLookup
import ManagedRuntime.Proofs.Loading.BootPath
import ManagedRuntime.Proofs.Loading.Definition
import ManagedRuntime.Proofs.Stack.Queries
import ManagedRuntime.Proofs.World.Reached

/-!
From a class to its name as programs see it, and from that name to a class. Other threads may do what
they like in between, as long as classes stay, mirrors on record stay there, and strings say what they
said. Main statement: the name that a class gives, looked up with the loader of that class, leads to
the mirror of the class; nothing is run for it, and no class is defined.
-/
namespace ManagedRuntime
variable {η α β : Type}

/-! Names. -/

theorem slashed_dotted {name : String} (dotless : '.' ∉ name.toList) :
    slashed (dotted name) = name := by
  have back (c : Char) (member : c ∈ name.toList) :
      SearchedFor.slashForDot (if c = '/' then '.' else c) = c := by
    unfold SearchedFor.slashForDot
    by_cases slash : c = '/'
    · simp [slash]
    · have dot : c ≠ '.' := fun same => dotless (same ▸ member)
      simp [slash, dot]
  rw [← String.toList_inj, SearchedFor.toList_slashed, dotted, String.toList_map, List.map_map]
  exact (List.map_congr_left back).trans (List.map_id _)

theorem slash_notMem_dotted (name : String) : '/' ∉ (dotted name).toList := by
  rw [dotted, String.toList_map]
  intro member
  obtain ⟨c, -, same⟩ := List.mem_map.mp member
  by_cases slash : c = '/'
  · rw [if_pos slash] at same
    exact absurd same (by decide)
  · rw [if_neg slash] at same
    exact slash same

theorem internalName?_dotted {name : String} (named : name ≠ "") (dotless : '.' ∉ name.toList)
    (array : Registry.isArrayName name = true →
      ∃ component, FieldType.parse? name.toList = some (.array component)) :
    internalName? (dotted name) = some name := by
  have nonempty : (dotted name).isEmpty = false := by
    rw [← Bool.not_eq_true, String.isEmpty_iff, ← String.toList_eq_nil_iff, dotted,
      String.toList_map, List.map_eq_nil_iff, String.toList_eq_nil_iff]
    exact named
  have slashless : (dotted name).toList.contains '/' = false := by
    rw [← Bool.not_eq_true, List.contains_iff_mem]
    exact slash_notMem_dotted name
  unfold internalName?
  rw [nonempty, slashless, slashed_dotted dotless, if_neg (by simp)]
  by_cases bracket : Registry.isArrayName name = true
  · obtain ⟨component, parsed⟩ := array bracket
    rw [if_pos bracket, parsed]
  · rw [if_neg bracket]

namespace Registry
variable {r r' : Registry} {n : Nat} {c e : ClassId}

theorem map_cls_modifyState (c : ClassId) (f : ClassState → ClassState) :
    (r.modifyState c f).loaded.map LoadedClass.cls = r.loaded.map LoadedClass.cls := by
  apply Array.ext_getElem?
  intro i
  simp only [modifyState, Array.getElem?_map, Array.getElem?_modify]
  split
  · cases r.loaded[i]? <;> rfl
  · rfl

/-- What a class needs for its name to lead back to it: with the array dimensions that there are over
class `e` the name has to be a descriptor, and it has to have no dots of its own. -/
structure Nameable (r : Registry) (n : Nat) (c e : ClassId) : Prop extends Innermost r n c e where
  loaded : r.Resolved c
  fits : n ≤ FieldType.maxDimensions
  notVoid : (r.cls e).kind ≠ .primitive .void
  dotless : '.' ∉ (r.cls e).name.toList
  unended : n ≠ 0 → ';' ∉ (r.cls e).name.toList

theorem Nameable.later (nameable : r.Nameable n c e) (built : r.Built) (later : Later r r') :
    r'.Nameable n c e := by
  have there := nameable.loaded.there
  have inner := later.cls e (nameable.spans.there built.ordered there)
  exact {
    spans := later.arrayOver built.ordered there nameable.spans
    plain := by rw [inner]; exact nameable.plain
    loaded := later.resolved nameable.loaded
    fits := nameable.fits
    notVoid := by rw [inner]; exact nameable.notVoid
    dotless := by rw [inner]; exact nameable.dotless
    unended := by rw [inner]; exact nameable.unended }

theorem Nameable.plain_name (nameable : r.Nameable 0 c e) (keyed : r.Keyed) :
    isArrayName (r.cls c).name = false := by
  obtain rfl : c = e := nameable.spans
  have array := nameable.plain
  have reference := nameable.loaded.notPrimitive
  refine keyed.ordinary c nameable.loaded.there ?_
  cases kind : (r.cls c).kind with
  | ordinary => rfl
  | primitive p => simp [Class.isPrimitive, kind] at reference
  | array d m => simp [Class.isArray, kind] at array

theorem Nameable.dotless_name (nameable : r.Nameable n c e) (keyed : r.Keyed) :
    '.' ∉ (r.cls c).name.toList := by
  by_cases positive : n = 0
  · subst positive
    obtain rfl : c = e := nameable.spans
    exact nameable.dotless
  · rw [(nameable.spans.called keyed positive).2, List.mem_append]
    rintro (bracket | signature)
    · exact absurd (List.eq_of_mem_replicate bracket) (by decide)
    · have dotless := nameable.dotless
      have plain := nameable.plain
      unfold Class.signature at signature
      cases kind : (r.cls e).kind with
      | array d m => simp [Class.isArray, kind] at plain
      | ordinary => simp [kind, dotless] at signature
      | primitive p =>
        rw [kind] at signature
        have letter := List.mem_singleton.mp signature
        cases p <;> exact absurd letter (by decide)

/-- A program that gives the name of the class means that class. -/
theorem Nameable.internalName? (nameable : r.Nameable n c e) (built : r.Built) :
    ManagedRuntime.internalName? (r.cls c).dottedName = some (r.cls c).name := by
  have keyed := built.keyed
  refine internalName?_dotted (built.named nameable.loaded.there) (nameable.dotless_name keyed)
    fun bracket => ?_
  by_cases positive : n = 0
  · subst positive
    rw [nameable.plain_name keyed] at bracket
    cases bracket
  · exact nameable.parse?_name built positive nameable.fits nameable.notVoid
      (nameable.unended positive)

end Registry

/-! The shared state. -/

namespace World
variable {w v u : World η}

structure Preserves (w u : World η) : Prop where
  equipped : w.Equipped → u.Equipped
  later : Registry.Later w.registry u.registry
  limit : u.heap.accounting.maxBytes = w.heap.accounting.maxBytes
  records : ∀ c o, (w.registry.state c).mirror = some o → (u.registry.state c).mirror = some o
  mirrored : ∀ o c, (w.heap.get o).mirrored? = some c → (u.heap.get o).mirrored? = some c
  texts : ∀ o s, (w.heap.get o).string? = some s → (u.heap.get o).string? = some s

structure DefinesNone (w u : World η) : Prop extends Preserves w u where
  classes : u.registry.loaded.map LoadedClass.cls = w.registry.loaded.map LoadedClass.cls

theorem Preserves.refl (w : World η) : w.Preserves w :=
  ⟨id, .refl _, rfl, fun _ _ => id, fun _ _ => id, fun _ _ => id⟩

theorem Preserves.trans (first : w.Preserves v) (second : v.Preserves u) : w.Preserves u where
  equipped := second.equipped ∘ first.equipped
  later := first.later.trans second.later
  limit := second.limit.trans first.limit
  records c o record := second.records c o (first.records c o record)
  mirrored o c mirrors := second.mirrored o c (first.mirrored o c mirrors)
  texts o s text := second.texts o s (first.texts o s text)

theorem Preserves.during (w : World η) (refs : List ObjectId) : w.Preserves (w.during refs) :=
  ⟨fun equipped => equipped.during refs, .refl _, rfl, fun _ _ => id, fun _ _ => id, fun _ _ => id⟩

theorem DefinesNone.refl (w : World η) : w.DefinesNone w := ⟨.refl w, rfl⟩

theorem DefinesNone.of_during {refs : List ObjectId} (none : (w.during refs).DefinesNone u) :
    w.DefinesNone u := ⟨(Preserves.during w refs).trans none.toPreserves, none.classes⟩

theorem Equipped.newString (equipped : w.Equipped) (unlimited : w.heap.accounting.maxBytes = 0)
    (s : String) : ∃ o u, (Atomic.newString s).runOn w = (.ok o, u) ∧ w.DefinesNone u ∧
      (u.heap.get o).string? = some s := by
  have plain : Registry.isArrayName "java/lang/String" = false := by decide +kernel
  obtain ⟨k, boot⟩ := equipped.required "java/lang/String" (by decide)
  let x := Heap.newCarrier w.registry k (.string s)
  have ran : (Atomic.newString s).runOn w = (Atomic.allocate x).runOn w := by
    rw [Atomic.newString, Atomic.runOn_bind, Atomic.runOn_bootClass plain boot]
    rfl
  have tame := Atomic.tame_newString s w
  obtain ⟨heap, accounting, alike, limit, allocated⟩ := Atomic.allocate_unlimited unlimited x
  rw [ran] at tame ⊢
  have equips : w.Equipped → _ := fun equipped => equipped.allocate tame
  rw [allocated] at equips ⊢
  have retains := alike.retains_push x accounting
  refine ⟨_, _, rfl, ⟨⟨equips, .refl _, limit, fun _ _ => id, ?_, ?_⟩, rfl⟩, ?_⟩
  · exact fun _ _ => retains.mirrored?
  · exact fun _ _ => retains.string?
  · rw [Heap.get_push, if_pos alike.size.symm]
    rfl

theorem Equipped.mirror_made (equipped : w.Equipped) (unlimited : w.heap.accounting.maxBytes = 0)
    {c : ClassId} (there : c.index < w.registry.loaded.size) :
    ∃ o u, (Atomic.mirror c).runOn w = (.ok o, u) ∧ w.DefinesNone u ∧
      (u.registry.state c).mirror = some o := by
  have equips : w.Equipped → _ := fun equipped => equipped.mirror there
  obtain ⟨k, boot⟩ := equipped.required "java/lang/Class" (by decide)
  have comes := Atomic.mirroring w c
  generalize (Atomic.mirror c).runOn w = result at equips comes ⊢
  cases comes with
  | recorded same => exact ⟨_, _, rfl, .refl w, same⟩
  | missing none => cases boot.symm.trans none
  | exhausted alike full =>
    rw [Accounting.fits, alike.limit, unlimited] at full
    cases full
  | @made heap accounting x bare alike limit mirrors =>
    have retains := alike.retains_push x accounting
    have later := Registry.Later.modifyState (r := w.registry) c
      ({ · with mirror := some ⟨w.heap.objects.size⟩ })
    refine ⟨_, _, rfl, ⟨⟨equips, later, limit, fun d o record => ?_, ?_, ?_⟩,
      Registry.map_cls_modifyState c _⟩, ?_⟩
    · rw [Registry.state_modifyState, if_neg]
      · exact record
      · rintro ⟨rfl, -⟩
        cases bare.symm.trans record
    · exact fun _ _ => retains.mirrored?
    · exact fun _ _ => retains.string?
    · rw [Registry.state_modifyState, if_pos ⟨rfl, there⟩]

end World

/-! Programs. -/

namespace Exec
open World
-- only the rules are used from here on; unfolded, the judgement goes through the task step by step
attribute [local irreducible] Unaided
variable {w v : World η} {env d : Env} {P : α → World η → Prop} {Q : β → World η → Prop}
  {call : NativeCall} {index n : Nat} {o : ObjectId} {c e : ClassId}

/-- While others preserve what is so, the program comes to a result with `P`. It has nothing run,
defines no class, and leaves the operand stack as it is. -/
def Finds (w : World η) (env : Env) (x : Exec η α) (P : α → World η → Prop) : Prop :=
  Unaided Preserves DefinesNone w env x fun r d u =>
    ∃ a, r = .ok a ∧ d.stack = env.stack ∧ w.Preserves u ∧ P a u

theorem Finds.next {x : Exec η α} {g : α → Exec η β} {T : Except Failure β → Env → World η → Prop}
    (first : Finds w env x P)
    (rest : ∀ a d v, d.stack = env.stack → w.Preserves v → P a v →
      Unaided Preserves DefinesNone v d (g a) T) :
    Unaided Preserves DefinesNone w env (x >>= g) T := by
  refine unaided_bind (first.weaken fun r d v comes => ?_)
  obtain ⟨a, rfl, stack, preserves, holds⟩ := comes
  exact rest a d v stack preserves holds

theorem Finds.bind {x : Exec η α} {g : α → Exec η β} (first : Finds w env x P)
    (rest : ∀ a d v, d.stack = env.stack → w.Preserves v → P a v → Finds v d (g a) Q) :
    Finds w env (x >>= g) Q := by
  refine first.next fun a d v stack preserves holds => ?_
  refine (rest a d v stack preserves holds).weaken fun r e u comes => ?_
  obtain ⟨b, rfl, stack', preserves', holds'⟩ := comes
  exact ⟨b, rfl, stack'.trans stack, preserves.trans preserves', holds'⟩

theorem finds_pure {a : α} (holds : P a w) : Finds w env (pure a) P :=
  unaided_pure ⟨a, rfl, rfl, .refl w, holds⟩

theorem Finds.releasing {x : Exec η α} (finds : Finds w env x P) : Finds w env (releasing x) P :=
  unaided_keeping (finds.weaken fun _ _ _ comes => comes)

theorem finds_act {x : Atomic η α}
    (acts : ∀ y, w.Preserves y → ∃ a u, x.runOn y = (.ok a, u) ∧ y.DefinesNone u ∧ P a u) :
    Finds w env (act x) P := by
  refine unaided_act fun y refs preserves => ?_
  obtain ⟨a, u, ran, none, holds⟩ := acts _ (preserves.trans (.during y (env.references ++ refs)))
  rw [ran]
  exact ⟨none.of_during, a, rfl, rfl, preserves.trans none.of_during.toPreserves, holds⟩

theorem finds_ask (f : World η → α) (holds : ∀ y, w.Preserves y → P (f y) y) :
    Finds w env (act (Atomic.ask f)) P :=
  finds_act fun y preserves => ⟨_, y, rfl, .refl y, holds y preserves⟩

theorem finds_referenceArg {r : Reference} (given : call.argument? env.stack index = some (.ref r)) :
    Finds w env (referenceArg call index) fun s _ => s = r :=
  unaided_referenceArg given ⟨r, rfl, rfl, .refl w, rfl⟩

theorem finds_objectArg (given : call.argument? env.stack index = some (.ref (some o))) :
    Finds w env (objectArg call index) fun p _ => p = o :=
  unaided_objectArg given ⟨o, rfl, rfl, .refl w, rfl⟩

theorem finds_booleanArg {b : Bool} (given : call.argument? env.stack index = some (.boolean b)) :
    Finds w env (booleanArg call index) fun b' _ => b' = b :=
  unaided_booleanArg given ⟨b, rfl, rfl, .refl w, rfl⟩

theorem finds_classArg (given : call.argument? env.stack index = some (.ref (some o)))
    (mirrors : (w.heap.get o).mirrored? = some c) :
    Finds w env (classArg call index) fun d _ => d = c :=
  unaided_classArg given (fun _ change => change.mirrored o c mirrors) fun x refs change =>
    ⟨(DefinesNone.refl _).of_during, c, rfl, rfl, change.trans (.during x refs), rfl⟩

theorem finds_stringArg {s : String} (given : call.argument? env.stack index = some (.ref (some o)))
    (text : (w.heap.get o).string? = some s) :
    Finds w env (stringArg call index) fun t _ => t = s := by
  refine ((finds_objectArg given).bind fun p d v _ preserves same => ?_).releasing
  rw [same]
  refine finds_act fun y preserves' => ?_
  refine ⟨s, y, ?_, .refl y, rfl⟩
  rw [Atomic.contents, Atomic.runOn_get_bind, preserves'.texts o s (preserves.texts o s text)]
  rfl

theorem finds_findPlainClass {name : String} {loader : Reference} (equipped : w.Equipped)
    (known : w.registry.Known name loader c) :
    Finds w env (findPlainClass name loader) fun d _ => d = c := by
  refine (finds_ask (P := fun found _ => found = some c) _ fun y preserves => ?_).bind
    fun found d v _ _ same => ?_
  · have built := (preserves.equipped equipped).sane.built
    exact built.keyed.find?_iff.mpr (preserves.later.known known)
  · rw [same]
    exact finds_pure rfl

theorem finds_loadElement (equipped : w.Equipped) (nameable : w.registry.Nameable n c e)
    (positive : n ≠ 0) :
    Finds w env (loadElement (w.cls c).name (w.cls c).loader) fun _ _ => True := by
  have built := equipped.sane.built
  have there := nameable.spans.there built.ordered nameable.loaded.there
  cases kind : (w.registry.cls e).kind with
  | array b m =>
    have plain := nameable.plain
    simp [Class.isArray, kind] at plain
  | primitive p =>
    obtain ⟨dimensions, element⟩ := nameable.brackets built.keyed positive
    unfold loadElement
    rw [World.cls, dimensions, element, Class.signature, kind]
    have letter : Registry.objectName? [p.letter] = none := by cases p <;> rfl
    dsimp only
    rw [letter]
    exact finds_pure trivial
  | ordinary =>
    have plain := built.keyed.ordinary e there kind
    have text : (w.cls c).name = arrayText n (w.registry.cls e).name := by
      rw [← String.toList_inj, arrayText, String.toList_ofList, World.cls,
        (nameable.spans.called built.keyed positive).2, Class.signature, kind]
    have known : w.registry.Known (w.registry.cls e).name (w.cls c).loader e :=
      ⟨⟨there, by rw [Class.isPrimitive, kind]⟩, rfl, (nameable.spans.loader built.keyed).symm⟩
    rw [text, loadElement_arrayText (built.named there) plain, findClass_plain plain]
    refine unaided_discard ((finds_findPlainClass equipped known).weaken fun r d v comes => ?_)
    obtain ⟨b, rfl, stack, preserves, -⟩ := comes
    exact ⟨(), rfl, stack, preserves, trivial⟩

theorem finds_findClass (equipped : w.Equipped) (nameable : w.registry.Nameable n c e) :
    Finds w env (findClass (w.cls c).name (w.cls c).loader) fun d _ => d = c := by
  have built := equipped.sane.built
  by_cases positive : n = 0
  · subst positive
    have plain : Registry.isArrayName (w.cls c).name = false := nameable.plain_name built.keyed
    rw [findClass_plain plain]
    exact finds_findPlainClass equipped ⟨nameable.loaded, rfl, rfl⟩
  · have array : Registry.isArrayName (w.cls c).name = true := by
      rw [Registry.isArrayName, World.cls, (nameable.brackets built.keyed positive).1]
      simpa using positive
    rw [findClass, if_pos array]
    refine (finds_loadElement equipped nameable positive).bind fun _ d v _ preserves _ => ?_
    have equipped' := preserves.equipped equipped
    have same := preserves.later.cls c nameable.loaded.there
    have nameable' := nameable.later built preserves.later
    refine (finds_act (P := fun found _ => found = some c) fun y preserves' => ?_).bind
      fun found d v _ _ same => ?_
    · have same' := preserves'.later.cls c nameable'.loaded.there
      have later := nameable'.later equipped'.sane.built preserves'.later
      have made := later.arrayClass_name (preserves'.equipped equipped').sane.built positive
        later.fits later.notVoid
      rw [same', same] at made
      refine ⟨some c, y, ?_, .refl y, rfl⟩
      have ran : (Atomic.onRegistry (·.arrayClass (w.cls c).name (w.cls c).loader)).runOn y =
          (.ok (y.registry.arrayClass (w.cls c).name (w.cls c).loader).1, { y with
            registry := (y.registry.arrayClass (w.cls c).name (w.cls c).loader).2 }) := rfl
      rw [ran, World.cls, made]
    · rw [same]
      exact finds_pure rfl

theorem finds_classForName (equipped : w.Equipped) (unlimited : w.heap.accounting.maxBytes = 0)
    (nameable : w.registry.Nameable n c e) :
    Finds w env (classForName (w.cls c).dottedName false (w.cls c).loader) fun m u =>
      (u.registry.state c).mirror = some m := by
  have built := equipped.sane.built
  unfold classForName
  rw [World.cls, nameable.internalName? built]
  refine Finds.bind (unaided_outcome ((finds_findClass equipped nameable).weaken
    fun r d v comes => ?_)) (P := fun r _ => r = .ok c) fun r d v _ preserves same => ?_
  · obtain ⟨b, rfl, stack, preserves, rfl⟩ := comes
    exact ⟨_, rfl, stack, preserves, rfl⟩
  · rw [same]
    refine finds_act fun y preserves' => ?_
    have both := preserves.trans preserves'
    refine (both.equipped equipped).mirror_made (both.limit.trans unlimited) ?_
    exact (both.later.resolved nameable.loaded).there

structure Returned (call : NativeCall) (s : OperandStack) (o : ObjectId) (r : Except Failure Nat)
    (e : Env) : Prop where
  height : r = .ok e.stack.size
  result : e.stack.pop = .ok (.ref (some o), s.truncate call.base)

theorem unaided_finishRef {T : Except Failure Nat → Env → World η → Prop}
    {rely does : World η → World η → Prop} (inside : call.base < env.stack.size)
    (fits : env.stack.size ≤ env.stack.capacity)
    (holds : ∀ r d, Returned call env.stack o r d → T r d w) :
    Unaided rely does w env (finishRef call (some o)) T := by
  have room : (env.stack.truncate call.base).size < (env.stack.truncate call.base).capacity := by
    have length := congrArg List.length (env.stack.toList_truncate call.base)
    rw [List.length_take, Array.length_toList, Array.length_toList] at length
    refine Nat.lt_of_lt_of_le ?_ fits
    rw [OperandStack.size, length]
    exact Nat.lt_of_le_of_lt (Nat.min_le_left ..) inside
  have placed : env.replaceFrom call.base [.ref (some o)] = (.ok (), { env with
      stack := { env.stack.truncate call.base with
        slots := (env.stack.truncate call.base).slots.push (.ref (some o)) } }) := by
    rw [Env.replaceFrom, OperandStack.pushAll_one, if_pos room]
  refine unaided_bind (unaided_onEnv ?_)
  rw [show env.replaceFrom call.base (((some (Value.ref (some o))).map Value.slots).getD []) = _
    from placed]
  exact unaided_get_bind (unaided_pure (holds _ _ ⟨rfl, by simp [OperandStack.pop]⟩))

theorem unaided_getName (equipped : w.Equipped) (unlimited : w.heap.accounting.maxBytes = 0)
    (there : c.index < w.registry.loaded.size) (mirrors : (w.heap.get o).mirrored? = some c)
    (fits : env.stack.size ≤ env.stack.capacity)
    (asked : call.argument? env.stack 0 = some (.ref (some o))) :
    Unaided Preserves DefinesNone w env (ClassNative.getName.run call) fun r d u =>
      ∃ s, Returned call env.stack s r d ∧ w.Preserves u ∧
        (u.heap.get s).string? = some (w.cls c).dottedName := by
  refine (finds_classArg asked mirrors).next fun c' d₁ v₁ stack₁ preserves₁ same => ?_
  rw [same]
  refine (finds_ask (P := fun x _ => x = w.cls c) _ fun y preserves => ?_).next
    fun x d₂ v₂ stack₂ preserves₂ same => ?_
  · exact (preserves₁.trans preserves).later.cls c there
  rw [same]
  have before := preserves₁.trans preserves₂
  refine (finds_act (P := fun s u => (u.heap.get s).string? = some (w.cls c).dottedName)
    fun y preserves => ?_).next fun s d₃ v₃ stack₃ preserves₃ text => ?_
  · have both := before.trans preserves
    exact (both.equipped equipped).newString (both.limit.trans unlimited) _
  have stack := (stack₃.trans stack₂).trans stack₁
  rw [← stack] at fits asked ⊢
  refine unaided_finishRef (base_lt_of_argument asked) fits fun r e returned => ?_
  exact ⟨s, returned, before.trans preserves₃, text⟩

theorem unaided_forName (equipped : w.Equipped) (unlimited : w.heap.accounting.maxBytes = 0)
    (nameable : w.registry.Nameable n c e) (text : (w.heap.get o).string? = some (w.cls c).dottedName)
    (fits : env.stack.size ≤ env.stack.capacity)
    (name : call.argument? env.stack 0 = some (.ref (some o)))
    (flag : call.argument? env.stack 1 = some (.boolean false))
    (loader : call.argument? env.stack 2 = some (.ref (w.cls c).loader)) :
    Unaided Preserves DefinesNone w env (ClassNative.forName.run call) fun r d u =>
      ∃ m, Returned call env.stack m r d ∧ w.Preserves u ∧
        (u.registry.state c).mirror = some m := by
  refine (finds_stringArg name text).next fun s d₁ v₁ stack₁ preserves₁ same => ?_
  rw [same]
  rw [← stack₁] at flag loader
  refine (finds_booleanArg flag).next fun b d₂ v₂ stack₂ preserves₂ same => ?_
  rw [same]
  rw [← stack₂] at loader
  refine (finds_referenceArg loader).next fun l d₃ v₃ stack₃ preserves₃ same => ?_
  rw [same]
  have before := (preserves₁.trans preserves₂).trans preserves₃
  have class_same : v₃.cls c = w.cls c := before.later.cls c nameable.loaded.there
  rw [← class_same]
  refine (finds_classForName (before.equipped equipped) (before.limit.trans unlimited)
    (nameable.later equipped.sane.built before.later)).next fun m d₄ v₄ stack₄ preserves₄ mirror => ?_
  have stack := ((stack₄.trans stack₃).trans stack₂).trans stack₁
  rw [← stack] at fits name ⊢
  refine unaided_finishRef (base_lt_of_argument name) fits fun r e returned => ?_
  exact ⟨m, returned, before.trans preserves₄, mirror⟩

/-- In every state that a runtime without a limit on memory comes to: the name of a class is given as
a string, and that string, with the loader of the class, is given back the mirror of the class. -/
theorem forName_getName (reached : w.Reached) (unlimited : w.heap.accounting.maxBytes = 0)
    (nameable : w.registry.Nameable n c e) (mirrors : (w.heap.get o).mirrored? = some c)
    (fits : env.stack.size ≤ env.stack.capacity)
    (asked : call.argument? env.stack 0 = some (.ref (some o))) :
    Unaided Preserves DefinesNone w env (ClassNative.getName.run call) fun r d u =>
      ∃ s, Returned call env.stack s r d ∧ (u.heap.get s).string? = some (w.cls c).dottedName ∧
        ∀ v call' env', u.Preserves v → env'.stack.size ≤ env'.stack.capacity →
          call'.argument? env'.stack 0 = some (.ref (some s)) →
          call'.argument? env'.stack 1 = some (.boolean false) →
          call'.argument? env'.stack 2 = some (.ref (w.cls c).loader) →
          Unaided Preserves DefinesNone v env' (ClassNative.forName.run call') fun r d u' =>
            ∃ m, Returned call' env'.stack m r d ∧ (u'.registry.state c).mirror = some m ∧
              (u'.heap.get m).mirrored? = some c ∧
              ∀ p, (w.registry.state c).mirror = some p → p = m := by
  have equipped := reached.equipped
  have built := equipped.sane.built
  have there := nameable.loaded.there
  refine (unaided_getName equipped unlimited there mirrors fits asked).weaken
    fun r d u comes => ?_
  obtain ⟨s, returned, preserves, text⟩ := comes
  refine ⟨s, returned, text, fun v call' env' preserves' fits' name flag loader => ?_⟩
  have before := preserves.trans preserves'
  have same : v.cls c = w.cls c := before.later.cls c there
  rw [← same] at text loader
  refine (unaided_forName (before.equipped equipped) (before.limit.trans unlimited)
    (nameable.later built before.later) (preserves'.texts s _ text) fits' name flag loader).weaken
    fun r d u' comes => ?_
  obtain ⟨m, returned', preserves'', mirror⟩ := comes
  have after := before.trans preserves''
  refine ⟨m, returned', mirror, (after.equipped equipped).mirrors c m mirror, fun p own => ?_⟩
  exact Option.some.inj ((after.records c p own).symm.trans mirror)

/-! Arrays of arrays of strings, in a runtime where a thread has asked for their mirror. -/

def mirrorOfNested : Atomic Unit ObjectId :=
  Atomic.bootClass "[[Ljava/lang/String;" >>= Atomic.mirror

def nameMethod : Method :=
  ⟨⟨9⟩, "java/lang/VMClass", "getName", "(Ljava/lang/Class;)Ljava/lang/String;",
    ⟨[.object "java/lang/Class"], some (.object "java/lang/String")⟩,
    .isStatic ||| .isNative, 0⟩

def searchMethod : Method :=
  ⟨⟨9⟩, "java/lang/VMClass", "forName",
    "(Ljava/lang/String;ZLjava/lang/ClassLoader;)Ljava/lang/Class;",
    ⟨[.object "java/lang/String", .primitive .boolean, .object "java/lang/ClassLoader"],
      some (.object "java/lang/Class")⟩,
    .isStatic ||| .isNative, 0⟩

def calling (slots : Array Slot) : Env := { Env.new ⟨0⟩ 8 with stack := ⟨slots, 8⟩ }

theorem nested_array_named_back :
    ∃ (w : World Unit) (o : ObjectId) (c e : ClassId),
      w.Reached ∧ w.heap.accounting.maxBytes = 0 ∧ w.registry.Nameable 2 c e ∧
      (w.heap.get o).mirrored? = some c ∧ (w.registry.state c).mirror = some o ∧
      Unaided Preserves DefinesNone w (calling #[.ref (some o)])
        (ClassNative.getName.run ⟨nameMethod, 0⟩) fun _ _ u => ∃ s,
          (u.heap.get s).string? = some "[[Ljava.lang.String;" ∧
            Unaided Preserves DefinesNone u (calling #[.ref (some s), .int 0, .ref none])
              (ClassNative.forName.run ⟨searchMethod, 0⟩) fun _ d _ =>
                d.stack.pop = .ok (.ref (some o), .empty 8) := by
  let seen (w : World Unit) : Bool := decide (w.heap.accounting.maxBytes = 0 ∧
    (w.heap.get ⟨0⟩).mirrored? = some ⟨47⟩ ∧ (w.registry.state ⟨47⟩).mirror = some ⟨0⟩ ∧
    47 < w.registry.loaded.size ∧ (w.cls ⟨47⟩).isPrimitive = false ∧
    (w.cls ⟨47⟩).dottedName = "[[Ljava.lang.String;" ∧ (w.cls ⟨47⟩).loader = none ∧
    (w.cls ⟨47⟩).component? = some ⟨46⟩ ∧ (w.cls ⟨46⟩).component? = some ⟨14⟩ ∧
    (w.cls ⟨14⟩).kind = .ordinary ∧ (w.cls ⟨14⟩).name = "java/lang/String")
  obtain ⟨w, q, booted, run, holds⟩ := Pool.run_objectsAlone [⟨0⟩] (Exec.act mirrorOfNested)
    seen (b := true) (by decide +kernel)
  obtain ⟨unlimited, mirrors, record, there, reference, name, loader, outer, inner, ordinary,
    element⟩ := of_decide_eq_true holds
  unfold World.cls at ordinary element
  have throws {β : Type} (n : Nat) (f : Failure) :
      Exec.Orderly n (throw f : Exec Unit β) fun _ => [] := Exec.tracks_orderly.throw f
  have asking (n : Nat) : Exec.Orderly n (Exec.act mirrorOfNested) fun _ => [] :=
    Exec.tracks_orderly.act fun _ _ => Atomic.orderly_bootMirror _
  have reached : q.moment.world.Reached :=
    .run Pool.plain_coreCode (fun n _ _ _ => throws n _) (fun n _ _ => throws n _) booted
      (Pool.orderly_alike asking) run rfl
  have nameable : q.moment.world.registry.Nameable 2 ⟨47⟩ ⟨14⟩ := {
    spans := ⟨⟨46⟩, outer, ⟨14⟩, inner, rfl⟩
    plain := by simp [Class.isArray, ordinary]
    loaded := ⟨there, reference⟩
    fits := by decide
    notVoid := by simp [ordinary]
    dotless := by rw [element]; decide
    unended := by rw [element]; decide }
  refine ⟨q.moment.world, ⟨0⟩, ⟨47⟩, ⟨14⟩, reached, unlimited, nameable, mirrors, record, ?_⟩
  refine (forName_getName reached unlimited nameable mirrors (by decide) rfl).weaken
    fun r d u comes => ?_
  obtain ⟨s, returned, text, back⟩ := comes
  refine ⟨s, name ▸ text, ?_⟩
  refine (back u ⟨searchMethod, 0⟩ (calling #[.ref (some s), .int 0, .ref none]) (.refl u)
    (show 3 ≤ 8 by decide) rfl rfl (loader ▸ rfl)).weaken fun r d v comes => ?_
  obtain ⟨m, returned', recorded, mirrored, own⟩ := comes
  obtain rfl := own ⟨0⟩ record
  exact returned'.result

end Exec
end ManagedRuntime
