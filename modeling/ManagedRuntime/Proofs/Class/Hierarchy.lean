import ManagedRuntime.Proofs.Class.ArrayNames
import ManagedRuntime.Proofs.Class.Namespace
import ManagedRuntime.Proofs.Class.Subtyping

/-!
The shape of the class hierarchy, for registries that any calls have made after the root class was
defined. Main statement: interfaces are interfaces, superclasses are classes, interfaces extend the
root, and every chain of superclasses ends at the root, exactly if every definition that was
accepted names a superclass and interfaces of the right kind and arrays were made while the
interfaces of arrays were interfaces.
-/
namespace ManagedRuntime.Registry
open Relation

inductive Operation where
  | define (d : ClassDef) (loader : Reference)
  | arrayOf (c : ClassId)
  | arrayClass (name : String) (loader : Reference)

def Operation.runOn : Operation → Registry → Registry
  | define d loader, r => (r.define d loader).2
  | arrayOf c, r => if c.index < r.loaded.size then (r.arrayOf c).2 else r
  | arrayClass name loader, r => (r.arrayClass name loader).2

def replay : List Operation → Registry → Registry
  | [], r => r
  | op :: ops, r => replay ops (op.runOn r)

variable {r r' : Registry} {root c : ClassId}

structure Shaped (r : Registry) (root c : ClassId) : Prop where
  interfaces : ∀ i ∈ (r.cls c).interfaces, (r.cls i).isInterface = true
  superclass : ∀ s, (r.cls c).superclass = some s →
    (r.cls s).isInterface = false ∧ (r.cls s).isArray = false
  ofInterface : (r.cls c).isInterface = true → (r.cls c).superclass = some root
  top : (r.cls c).superclass = none ↔ c = root

/-- Every class that is not primitive is in its place, and its superclasses lead to the root, which
is the one class without a superclass. -/
structure WellFormed (r : Registry) (root : ClassId) : Prop where
  shaped : ∀ c, r.Resolved c → r.Shaped root c
  chain : ∀ c, r.Resolved c → r.Inherits c root

theorem Built.chain (built : r.Built) (shaped : ∀ c, r.Resolved c → r.Shaped root c)
    (here : r.Resolved c) : r.Inherits c root := by
  induction k : c.index using Nat.strongRecOn generalizing c with
  | ind k ih =>
    cases above : (r.cls c).superclass with
    | none =>
      rw [(shaped c here).top.mp above]
    | some s =>
      have lower := built.ordered.superclass_lt above
      exact .head above (ih s.index (k ▸ lower) (built.above_resolved (.inl above)) rfl)

theorem Built.wellFormed_iff (built : r.Built) :
    r.WellFormed root ↔ ∀ c, r.Resolved c → r.Shaped root c :=
  ⟨WellFormed.shaped, fun shaped => ⟨shaped, fun _ here => built.chain shaped here⟩⟩

/-- The place of a class depends on earlier classes alone. -/
theorem Later.shaped_iff (later : Later r r') (ordered : r.Ordered)
    (there : c.index < r.loaded.size) : r'.Shaped root c ↔ r.Shaped root c := by
  have same {d : ClassId} (before : d.index < c.index) : r'.cls d = r.cls d :=
    later.cls d (Nat.lt_trans before there)
  have interfaces : (∀ i ∈ (r.cls c).interfaces, (r'.cls i).isInterface = true) ↔
      ∀ i ∈ (r.cls c).interfaces, (r.cls i).isInterface = true :=
    forall₂_congr fun i beside => by rw [same (ordered.interface_lt beside)]
  have superclass : (∀ s, (r.cls c).superclass = some s →
        (r'.cls s).isInterface = false ∧ (r'.cls s).isArray = false) ↔
      ∀ s, (r.cls c).superclass = some s →
        (r.cls s).isInterface = false ∧ (r.cls s).isArray = false :=
    forall₂_congr fun s above => by rw [same (ordered.superclass_lt above)]
  constructor
  · rintro ⟨beside, above, ofInterface, top⟩
    rw [later.cls c there] at beside above ofInterface top
    exact ⟨interfaces.mp beside, superclass.mp above, ofInterface, top⟩
  · rintro ⟨beside, above, ofInterface, top⟩
    rw [← interfaces] at beside
    rw [← superclass] at above
    rw [← later.cls c there] at beside above ofInterface top
    exact ⟨beside, above, ofInterface, top⟩

theorem Later.wellFormed_iff (later : Later r r') (built : r.Built) (built' : r'.Built) :
    r'.WellFormed root ↔ r.WellFormed root ∧
      ∀ c, r'.Resolved c → r.loaded.size ≤ c.index → r'.Shaped root c := by
  rw [built.wellFormed_iff, built'.wellFormed_iff]
  constructor
  · intro all
    refine ⟨fun c here => ?_, fun c here _ => all c here⟩
    exact (later.shaped_iff built.ordered here.there).mp (all c (later.resolved here))
  · rintro ⟨old, new⟩ c here
    by_cases there : c.index < r.loaded.size
    · have known : r.Resolved c := ⟨there, later.cls c there ▸ here.notPrimitive⟩
      exact (later.shaped_iff built.ordered there).mpr (old c known)
    · exact new c here (Nat.le_of_not_lt there)

/-! Array classes. -/

def arrayInterfaces (r : Registry) : List ClassId :=
  [cloneableName, serializableName].filterMap (r.find? · none)

theorem arrayFlags_notInterface (a : AccessFlags) :
    (a.inter .isPublic ||| .isFinal ||| .isAbstract).contains .isInterface = false := by
  have masked : (a.bits &&& 1 ||| 16 ||| 1024) &&& 512 = 0 := by
    rw [← UInt16.toBitVec_inj]
    simp only [UInt16.toBitVec_and, UInt16.toBitVec_or, BitVec.and_or_distrib_right,
      BitVec.and_assoc]
    rw [show (1 : UInt16).toBitVec &&& (512 : UInt16).toBitVec = 0#16 from rfl, BitVec.and_zero]
    rfl
  show ((a.bits &&& 1 ||| 16 ||| 1024) &&& 512 == 512) = false
  rw [masked]
  rfl

theorem Built.array_notInterface (built : r.Built) (array : (r.cls c).isArray = true) :
    (r.cls c).isInterface = false := by
  refine built.each (Q := fun _ _ x => x.isArray = true → x.isInterface = false) ?_ ?_ ?_ ?_ c
    (resolved_of_isArray array).there array
  · exact fun _ _ _ _ _ _ known => known
  · intro c _ array
    rw [cls_empty] at array
    cases here : Primitive.all[c.index]? <;> rw [here] at array <;> cases array
  · exact fun r c _ _ _ => arrayFlags_notInterface (r.cls c).flags
  · intro r d loader superclass interfaces x _ _ _ makes array
    rw [Class.isArray, makes.kind] at array
    cases array

theorem Widens.isArray_of_new (widens : Widens r r') (new : r.loaded.size ≤ c.index)
    (there : c.index < r'.loaded.size) : (r'.cls c).isArray = true := by
  induction widens with
  | refl => omega
  | @array r' e _ _ _ ih =>
    rw [size_add] at there
    by_cases last : c.index = r'.loaded.size
    · rw [cls_add_last last]
      rfl
    · rw [cls_add_before last]
      exact ih (by omega)

theorem Widens.earlier (widens : Widens r r') (new : r.loaded.size ≤ c.index) {name : String}
    (plain : isArrayName name = false) : r'.earlier c name = r.find? name none := by
  rw [Registry.earlier, widens.find? plain]
  cases found : r.find? name none with
  | none => rfl
  | some d =>
    have before := Nat.lt_of_lt_of_le (find?_known found).there new
    rw [Option.filter_some, if_pos (decide_eq_true before)]

theorem Built.root_extendable (built : r.Built) (isRoot : r.find? rootName none = some root)
    (shaped : r.Shaped root root) :
    (r.cls root).isInterface = false ∧ (r.cls root).isArray = false := by
  have kind := built.keyed.ordinary_of_plain (find?_known isRoot) (by decide)
  refine ⟨Bool.eq_false_iff.mpr fun interface => ?_, by rw [Class.isArray, kind]⟩
  have above := shaped.ofInterface interface
  rw [shaped.top.mpr rfl] at above
  cases above

/-- A new array class is in its place if the interfaces of arrays are interfaces. -/
theorem Widens.shaped_iff (widens : Widens r r') (built : r.Built)
    (isRoot : r.find? rootName none = some root) (shaped : r.Shaped root root)
    (new : r.loaded.size ≤ c.index) (there : c.index < r'.loaded.size) :
    r'.Shaped root c ↔ ∀ i ∈ r.arrayInterfaces, (r.cls i).isInterface = true := by
  have built' := widens.built built
  have array := widens.isArray_of_new new there
  have formed := built'.formed there
  have superclass : (r'.cls c).superclass = some root := by
    rw [formed.arrayAbove array, widens.earlier new (by decide), isRoot]
  have interfaces : (r'.cls c).interfaces = r.arrayInterfaces := by
    rw [formed.arrayBeside array]
    simp only [arrayInterfaces, List.filterMap_cons, List.filterMap_nil,
      widens.earlier new (show isArrayName cloneableName = false by decide),
      widens.earlier new (show isArrayName serializableName = false by decide)]
  have older : ∀ i ∈ r.arrayInterfaces, r'.cls i = r.cls i := by
    intro i beside
    obtain ⟨name, -, found⟩ := List.mem_filterMap.mp beside
    exact widens.grows.cls (find?_known found).there
  have rootThere := (find?_known isRoot).there
  constructor
  · intro placed i beside
    rw [← older i beside]
    exact placed.interfaces i (interfaces ▸ beside)
  · intro ready
    refine ⟨fun i beside => ?_, fun s above => ?_, fun _ => superclass, ?_⟩
    · rw [interfaces] at beside
      rw [older i beside]
      exact ready i beside
    · rw [superclass] at above
      cases above
      rw [widens.grows.cls rootThere]
      exact built.root_extendable isRoot shaped
    · rw [superclass]
      refine iff_of_false (by simp) ?_
      rintro rfl
      omega

/-! Definitions. -/

def NamesInterface (r : Registry) (name : String) (loader : Reference) : Prop :=
  ∃ i, r.findVisible? name loader = some i ∧ (r.cls i).isInterface = true

theorem Built.isArray_of_arrayName (built : r.Built) {name : String} {loader : Reference}
    (array : isArrayName name = true) (known : r.Known name loader c) :
    (r.cls c).isArray = true := by
  rw [Class.isArray]
  cases kind : (r.cls c).kind with
  | array => rfl
  | ordinary =>
    have plain := built.keyed.ordinary c known.there kind
    rw [known.name, array] at plain
    cases plain
  | primitive p =>
    have reference := known.notPrimitive
    rw [Class.isPrimitive, kind] at reference
    cases reference

theorem findVisible?_known {name : String} {loader : Reference}
    (found : r.findVisible? name loader = some c) : ∃ l, r.Known name l c := by
  unfold findVisible? at found
  rcases Option.or_eq_some_iff.mp (by simpa using found) with own | ⟨-, bootstrap⟩
  · exact ⟨loader, find?_known own⟩
  · exact ⟨none, find?_known bootstrap⟩

theorem Widens.namesInterface_iff (widens : Widens r r') (built : r.Built) {name : String}
    {loader : Reference} : r'.NamesInterface name loader ↔ r.NamesInterface name loader := by
  cases array : isArrayName name with
  | true =>
    have never {r : Registry} (built : r.Built) : ¬ r.NamesInterface name loader := by
      rintro ⟨i, found, interface⟩
      obtain ⟨l, known⟩ := findVisible?_known found
      rw [built.array_notInterface (built.isArray_of_arrayName array known)] at interface
      cases interface
    exact iff_of_false (never (widens.built built)) (never built)
  | false =>
    have same : r'.findVisible? name loader = r.findVisible? name loader := by
      rw [findVisible?, findVisible?, widens.find? array, widens.find? array]
    unfold NamesInterface
    rw [same]
    refine exists_congr fun i => and_congr_right fun found => ?_
    obtain ⟨l, known⟩ := findVisible?_known found
    rw [widens.grows.cls known.there]

theorem resolve_plain {name : String} {loader : Reference} (plain : isArrayName name = false)
    (found : r.resolve name loader = (.ok c, r')) :
    r' = r ∧ r.findVisible? name loader = some c := by
  unfold resolve at found
  unfold findVisible?
  split at found
  · rename_i own
    cases found
    exact ⟨rfl, by rw [own]; rfl⟩
  · rename_i new
    simp only [findBootstrap, findLoaded, plain, Bool.false_eq_true, if_false] at found
    cases bootstrap : r.find? name none with
    | none =>
      rw [bootstrap] at found
      cases found
    | some d =>
      rw [bootstrap] at found
      cases found
      exact ⟨rfl, by rw [new]; rfl⟩

theorem Built.arrayClass_isArray (built : r.Built) {name : String} {loader : Reference}
    (made : r.arrayClass name loader = (some c, r')) : (r'.cls c).isArray = true := by
  unfold Registry.arrayClass at made
  dsimp only at made
  split at made
  · cases made
  · rename_i dims
    split at made
    · cases made
    · rename_i e element
      have there := element?_lt built.ordered.primitives element
      have spans := (built.arrayOfTimes (brackets name) there).2.2
      cases made
      obtain ⟨n, dims⟩ := Nat.exists_eq_succ_of_ne_zero (show brackets name ≠ 0 by omega)
      rw [dims] at spans
      obtain ⟨b, component, -⟩ := spans
      rw [← dims] at component
      exact Class.isArray_iff.mpr ⟨b, component⟩

theorem Built.resolve_array (built : r.Built) {name : String} {loader : Reference}
    (array : isArrayName name = true) (found : r.resolve name loader = (.ok c, r')) :
    (r'.cls c).isArray = true := by
  unfold resolve at found
  split at found
  · rename_i own
    cases found
    exact built.isArray_of_arrayName array (find?_known own)
  · simp only [findBootstrap, findLoaded, array, if_true] at found
    split at found
    · rename_i made
      cases found
      exact built.arrayClass_isArray made
    · cases found

theorem resolveAll_interfaces (built : r.Built) {loader : Reference} {names : List String}
    {cs : List ClassId} (found : resolveAll loader names r = (.ok cs, r')) :
    (∀ i ∈ cs, (r'.cls i).isInterface = true) ↔ ∀ name ∈ names, r.NamesInterface name loader := by
  induction names generalizing r cs with
  | nil =>
    cases found
    simp
  | cons name names ih =>
    have leads := resolve_leads built.ordered.primitives name loader
    unfold resolveAll at found
    split at found
    · cases found
    · rename_i c r₁ first
      rw [first] at leads
      have built₁ := leads.1.built built
      have rest := resolveAll_leads loader names built₁.ordered.primitives
      split at found
      · cases found
      · rename_i later r₂ others
        rw [others] at rest
        cases found
        have kept : (r'.cls c).isInterface = (r₁.cls c).isInterface := by
          rw [rest.1.grows.cls (leads.2 c rfl).there]
        have names_iff : (∀ name ∈ names, r₁.NamesInterface name loader) ↔
            ∀ name ∈ names, r.NamesInterface name loader :=
          forall₂_congr fun _ _ => leads.1.namesInterface_iff built
        have head : (r₁.cls c).isInterface = true ↔ r.NamesInterface name loader := by
          cases array : isArrayName name with
          | true =>
            rw [built₁.array_notInterface (built.resolve_array array first)]
            refine iff_of_false Bool.false_ne_true ?_
            rintro ⟨i, visible, interface⟩
            obtain ⟨l, known⟩ := findVisible?_known visible
            rw [built.array_notInterface (built.isArray_of_arrayName array known)] at interface
            cases interface
          | false =>
            obtain ⟨rfl, visible⟩ := resolve_plain array first
            simp [NamesInterface, visible]
        rw [List.forall_mem_cons, List.forall_mem_cons, ih built₁ others, kept, head, names_iff]

theorem Built.resolveSuper_eq_ok (built : r.Built) {d : ClassDef} {loader : Reference}
    {superclass : Option ClassId} (found : r.resolveSuper d loader = (.ok superclass, r')) :
    superclass = d.superName.bind (r.findVisible? · loader) ∧
      (superclass = none ↔ d.superName = none) := by
  unfold resolveSuper at found
  split at found
  · rename_i root
    cases found
    rw [root]
    exact ⟨rfl, iff_of_true rfl rfl⟩
  · rename_i name named
    split at found
    · cases found
    · rename_i s r₁ resolved
      split at found
      · cases found
      · rename_i extendable
        cases found
        cases array : isArrayName name with
        | true => simp [built.resolve_array array resolved] at extendable
        | false => simp [named, (resolve_plain array resolved).2]

/-- A definition that is accepted: what its names stand for, and the class that is added. -/
theorem define_eq_ok {d : ClassDef} {loader : Reference}
    (accepted : (r.define d loader).1 = .ok c) :
    ∃ superclass r₁ interfaces r₂ x, r.resolveSuper d loader = (.ok superclass, r₁) ∧
      resolveAll loader d.interfaces r₁ = (.ok interfaces, r₂) ∧
      r₂.build d loader superclass interfaces = .ok x ∧
      r.define d loader = (.ok ⟨r₂.loaded.size⟩, (r₂.add x).2) := by
  unfold define at accepted ⊢
  split at accepted
  · cases accepted
  rename_i named
  split at accepted
  · cases accepted
  rename_i new
  split at accepted
  · cases accepted
  rename_i superclass r₁ above
  split at accepted
  · cases accepted
  rename_i interfaces r₂ beside
  split at accepted
  · cases accepted
  rename_i x made
  refine ⟨superclass, r₁, interfaces, r₂, x, above, beside, made, ?_⟩
  rw [if_neg named, if_neg new]
  rfl

theorem Makes.shaped_iff {d : ClassDef} {loader : Reference} {superclass : Option ClassId}
    {interfaces : List ClassId} {x : Class} (makes : r.Makes d loader superclass interfaces x)
    (above : ∀ s ∈ superclass, r.Extendable s) (beside : ∀ i ∈ interfaces, r.Resolved i) :
    (r.add x).2.Shaped root ⟨r.loaded.size⟩ ↔
      (∀ i ∈ interfaces, (r.cls i).isInterface = true) ∧
        (d.flags.contains .isInterface = true → superclass = some root) ∧
        (superclass = none ↔ (⟨r.loaded.size⟩ : ClassId) = root) := by
  have last : (r.add x).2.cls ⟨r.loaded.size⟩ = x := cls_add_last rfl
  have kept {s : ClassId} (resolved : r.Resolved s) : (r.add x).2.cls s = r.cls s :=
    cls_add_before (Nat.ne_of_lt resolved.there)
  have interface : x.isInterface = d.flags.contains .isInterface := by
    rw [Class.isInterface, makes.flags]
  constructor
  · rintro ⟨implemented, -, ofInterface, top⟩
    rw [last, makes.interfaces] at implemented
    rw [last, interface, makes.superclass] at ofInterface
    rw [last, makes.superclass] at top
    exact ⟨fun i member => kept (beside i member) ▸ implemented i member, ofInterface, top⟩
  · rintro ⟨implemented, ofInterface, top⟩
    refine ⟨?_, ?_, ?_, ?_⟩
    · rw [last, makes.interfaces]
      exact fun i member => (kept (beside i member)).symm ▸ implemented i member
    · rw [last, makes.superclass]
      intro s extended
      rw [kept (above s extended).toResolved]
      exact ⟨(above s extended).notInterface, (above s extended).notArray⟩
    · rw [last, interface, makes.superclass]
      exact ofInterface
    · rw [last, makes.superclass]
      exact top

theorem resolved_last {x : Class} (reference : x.isPrimitive = false) :
    (r.add x).2.Resolved ⟨r.loaded.size⟩ := by
  refine ⟨by rw [size_add]; exact Nat.lt_succ_self _, ?_⟩
  rw [show (r.add x).2.cls ⟨r.loaded.size⟩ = x from cls_add_last rfl]
  exact reference

/-- One more class: those that were there before are in their places as they were. -/
theorem Ordered.all_shaped_add {x : Class} {n : Nat} (ordered : r.Ordered)
    (reference : x.isPrimitive = false) (enough : n ≤ r.loaded.size) :
    (∀ c, (r.add x).2.Resolved c → n ≤ c.index → (r.add x).2.Shaped root c) ↔
      (∀ c, r.Resolved c → n ≤ c.index → r.Shaped root c) ∧
        (r.add x).2.Shaped root ⟨r.loaded.size⟩ := by
  constructor
  · intro all
    refine ⟨fun c here new => ?_, all _ (resolved_last reference) enough⟩
    exact ((Later.add x).shaped_iff ordered here.there).mp (all c ((Later.add x).resolved here) new)
  · rintro ⟨old, added⟩ c here new
    by_cases same : c.index = r.loaded.size
    · obtain rfl : c = ⟨r.loaded.size⟩ := by cases c; cases same; rfl
      exact added
    · have there : c.index < r.loaded.size := by
        have inside := here.there
        rw [size_add] at inside
        omega
      have known : r.Resolved c := ⟨there, cls_add_before same ▸ here.notPrimitive⟩
      exact ((Later.add x).shaped_iff ordered there).mpr (old c known new)

structure Suits (r : Registry) (root : ClassId) (d : ClassDef) (loader : Reference) : Prop where
  superclass : d.superName ≠ none
  interfaces : ∀ name ∈ d.interfaces, r.NamesInterface name loader
  ofInterface : d.flags.contains .isInterface = true →
    d.superName.bind (r.findVisible? · loader) = some root

def Operation.AddsArrays (op : Operation) (r : Registry) : Prop :=
  ∃ c : ClassId, r.loaded.size ≤ c.index ∧ ((op.runOn r).cls c).isArray = true

/-- Array classes are added only while the interfaces of arrays are interfaces, and a definition is
accepted only if its names stand for classes of the right kind. -/
structure Operation.Proper (root : ClassId) (op : Operation) (r : Registry) : Prop where
  arrays : op.AddsArrays r → ∀ i ∈ r.arrayInterfaces, (r.cls i).isInterface = true
  defined : ∀ d loader c, op = .define d loader → (r.define d loader).1 = .ok c →
    r.Suits root d loader

section step
variable (built : r.Built) (isRoot : r.find? rootName none = some root)
  (shaped : r.Shaped root root)
include built isRoot shaped

theorem Widens.all_shaped_iff (widens : Widens r r') :
    (∀ c, r'.Resolved c → r.loaded.size ≤ c.index → r'.Shaped root c) ↔
      ((∃ c : ClassId, r.loaded.size ≤ c.index ∧ (r'.cls c).isArray = true) →
        ∀ i ∈ r.arrayInterfaces, (r.cls i).isInterface = true) := by
  constructor
  · rintro all ⟨c, new, array⟩
    have here := resolved_of_isArray array
    exact (widens.shaped_iff built isRoot shaped new here.there).mp (all c here new)
  · intro ready c here new
    refine (widens.shaped_iff built isRoot shaped new here.there).mpr (ready ⟨c, new, ?_⟩)
    exact widens.isArray_of_new new here.there

theorem Operation.proper_iff_of_widens {op : Operation} (widens : Widens r (op.runOn r))
    (refused : ∀ d loader c, op = .define d loader → (r.define d loader).1 ≠ .ok c) :
    (∀ c, (op.runOn r).Resolved c → r.loaded.size ≤ c.index → (op.runOn r).Shaped root c) ↔
      op.Proper root r := by
  rw [widens.all_shaped_iff built isRoot shaped]
  refine ⟨fun ready => ⟨ready, fun d loader c same accepted => ?_⟩, Proper.arrays⟩
  exact absurd accepted (refused d loader c same)

theorem Operation.proper_iff_of_defined {d : ClassDef} {loader : Reference}
    (accepted : (r.define d loader).1 = .ok c) :
    (∀ c, (r.define d loader).2.Resolved c → r.loaded.size ≤ c.index →
        (r.define d loader).2.Shaped root c) ↔ (Operation.define d loader).Proper root r := by
  obtain ⟨superclass, r₁, interfaces, r₂, x, above, beside, made, result⟩ := define_eq_ok accepted
  have first := resolveSuper_leads built.ordered.primitives d loader
  rw [above] at first
  have built₁ := first.1.built built
  have second := resolveAll_leads loader d.interfaces built₁.ordered.primitives
  rw [beside] at second
  have widens := first.1.trans second.1
  have built₂ := widens.built built
  have makes := makes_of_build made
  have extendable : ∀ s ∈ superclass, r₂.Extendable s := fun s member =>
    (first.2 s (by rw [Option.mem_def.mp member])).grows second.1.grows
  have resolved : ∀ i ∈ interfaces, r₂.Resolved i := fun i member => second.2 i ⟨_, rfl, member⟩
  obtain ⟨named, rootless⟩ := built.resolveSuper_eq_ok above
  have other : (⟨r₂.loaded.size⟩ : ClassId) ≠ root := by
    rintro rfl
    exact absurd (find?_known isRoot).there (Nat.not_lt_of_le widens.size)
  have suits : (r₂.add x).2.Shaped root ⟨r₂.loaded.size⟩ ↔ r.Suits root d loader := by
    have names : (∀ name ∈ d.interfaces, r₁.NamesInterface name loader) ↔
        ∀ name ∈ d.interfaces, r.NamesInterface name loader :=
      forall₂_congr fun _ _ => first.1.namesInterface_iff built
    rw [makes.shaped_iff extendable resolved, resolveAll_interfaces built₁ beside, names,
      iff_false_right other, rootless, named]
    constructor
    · rintro ⟨interfaces, ofInterface, superclass⟩
      exact ⟨superclass, interfaces, ofInterface⟩
    · rintro ⟨superclass, interfaces, ofInterface⟩
      exact ⟨interfaces, ofInterface, superclass⟩
  have arrays : (Operation.define d loader).AddsArrays r ↔
      ∃ c : ClassId, r.loaded.size ≤ c.index ∧ (r₂.cls c).isArray = true := by
    simp only [AddsArrays, runOn, result]
    refine exists_congr fun c => and_congr_right fun _ => ?_
    by_cases last : c.index = r₂.loaded.size
    · rw [cls_add_last last, cls_of_unloaded (Nat.le_of_eq last.symm), Class.isArray, makes.kind]
      rfl
    · rw [cls_add_before last]
  have reference : x.isPrimitive = false := by rw [Class.isPrimitive, makes.kind]
  have proper : (Operation.define d loader).Proper root r ↔
      ((Operation.define d loader).AddsArrays r →
        ∀ i ∈ r.arrayInterfaces, (r.cls i).isInterface = true) ∧ r.Suits root d loader := by
    constructor
    · rintro ⟨ready, defined⟩
      exact ⟨ready, defined d loader c rfl accepted⟩
    · rintro ⟨ready, fits⟩
      refine ⟨ready, fun d' loader' c' same _ => ?_⟩
      cases same
      exact fits
  rw [proper, arrays, ← widens.all_shaped_iff built isRoot shaped, ← suits, result]
  exact built₂.ordered.all_shaped_add reference widens.size

/-- One operation keeps the hierarchy in shape exactly if it is a proper one. -/
theorem Operation.step_iff (op : Operation) :
    (∀ c, (op.runOn r).Resolved c → r.loaded.size ≤ c.index → (op.runOn r).Shaped root c) ↔
      op.Proper root r := by
  have primitives := built.ordered.primitives
  cases op with
  | define d loader =>
    cases outcome : (r.define d loader).1 with
    | ok c => exact proper_iff_of_defined built isRoot shaped outcome
    | error f =>
      have widens : Widens r (r.define d loader).2 := by
        have comes := define_cases d loader primitives
        generalize r.define d loader = result at comes outcome ⊢
        cases comes with
        | refused widens => exact widens
        | defined => cases outcome
      refine proper_iff_of_widens built isRoot shaped widens fun d' loader' c same accepted => ?_
      cases same
      rw [outcome] at accepted
      cases accepted
  | arrayOf c =>
    refine proper_iff_of_widens built isRoot shaped ?_ (by nofun)
    simp only [runOn]
    split
    · rename_i there
      exact (arrayOf_leads there).1
    · exact .refl
  | arrayClass name loader =>
    exact proper_iff_of_widens built isRoot shaped (arrayClass_leads primitives name loader).1
      (by nofun)

end step

theorem Operation.called (op : Operation) (r : Registry) :
    op.runOn r = r ∨ Call r (op.runOn r) := by
  cases op with
  | define d loader => exact .inr (.define d loader)
  | arrayClass name loader => exact .inr (.arrayClass name loader)
  | arrayOf c =>
    simp only [runOn]
    split
    · rename_i there
      exact .inr (.arrayOf there)
    · exact .inl rfl

theorem Operation.reaches (op : Operation) (r : Registry) : Reaches r (op.runOn r) := by
  rcases op.called r with same | call
  · rw [same]
  · exact .single call

def AllProper (root : ClassId) : List Operation → Registry → Prop
  | [], _ => True
  | op :: ops, r => op.Proper root r ∧ AllProper root ops (op.runOn r)

theorem replay_iff (built : r.Built) (isRoot : r.find? rootName none = some root)
    (ops : List Operation) :
    (replay ops r).Built ∧ Later r (replay ops r) ∧
      ((replay ops r).WellFormed root ↔ r.WellFormed root ∧ AllProper root ops r) := by
  induction ops generalizing r with
  | nil => exact ⟨built, .refl r, by simp [replay, AllProper]⟩
  | cons op ops ih =>
    have built' := (op.reaches r).built built
    have later := (op.reaches r).later built
    obtain ⟨built'', rest, iff⟩ := ih built' (later.find? built' isRoot)
    refine ⟨built'', later.trans rest, ?_⟩
    rw [replay, iff, later.wellFormed_iff built built', AllProper, and_assoc]
    refine and_congr_right fun formed => and_congr_left' ?_
    exact op.step_iff built isRoot (formed.shaped root (find?_known isRoot).toResolved)

/-! The root. -/

theorem not_resolved_empty (c : ClassId) : ¬ empty.Resolved c := by
  rintro ⟨there, reference⟩
  have inside : c.index < Primitive.all.length := by simpa [empty] using there
  rw [cls_empty, List.getElem?_eq_getElem inside] at reference
  cases reference

theorem not_namesInterface_empty (name : String) (loader : Reference) :
    ¬ empty.NamesInterface name loader := by
  rintro ⟨i, found, -⟩
  obtain ⟨l, known⟩ := findVisible?_known found
  exact not_resolved_empty i known.toResolved

theorem superclass_of_first {d : ClassDef} {loader : Reference} {superclass : Option ClassId}
    (found : empty.resolveSuper d loader = (.ok superclass, r)) : superclass = none := by
  have leads := resolveSuper_leads ordered_empty.primitives d loader
  rw [found] at leads
  refine Option.eq_none_iff_forall_ne_some.mpr fun s same => ?_
  subst same
  have extendable := leads.2 s rfl
  by_cases new : empty.loaded.size ≤ s.index
  · have array := leads.1.isArray_of_new new extendable.there
    rw [extendable.notArray] at array
    cases array
  · have there := Nat.lt_of_not_le new
    have reference := extendable.notPrimitive
    rw [leads.1.grows.cls there] at reference
    exact not_resolved_empty s ⟨there, reference⟩

/-- The root class is in its place if it implements nothing and is no interface. -/
theorem first_wellFormed_iff {d : ClassDef} (named : d.name = rootName)
    (accepted : (empty.define d none).1 = .ok root) :
    (empty.define d none).2.find? rootName none = some root ∧
      ((empty.define d none).2.WellFormed root ↔
        d.interfaces = [] ∧ d.flags.contains .isInterface = false) := by
  have built : (empty.define d none).2.Built := .define .empty d none
  obtain ⟨superclass, r₁, interfaces, r₂, x, above, beside, made, result⟩ := define_eq_ok accepted
  rw [result] at accepted built ⊢
  cases accepted
  obtain rfl := superclass_of_first above
  have first := resolveSuper_leads ordered_empty.primitives d none
  rw [above] at first
  have built₁ := first.1.built .empty
  have second := resolveAll_leads none d.interfaces built₁.ordered.primitives
  rw [beside] at second
  have makes := makes_of_build made
  have last : (r₂.add x).2.cls ⟨r₂.loaded.size⟩ = x := cls_add_last rfl
  have reference : x.isPrimitive = false := by rw [Class.isPrimitive, makes.kind]
  have here : (r₂.add x).2.Resolved ⟨r₂.loaded.size⟩ := resolved_last reference
  refine ⟨built.keyed.find?_iff.mpr ⟨here, ?_, ?_⟩, ?_⟩
  · rw [last, makes.name, named]
  · rw [last, makes.loader]
  have names (name : String) : ¬ r₁.NamesInterface name none := by
    rw [first.1.namesInterface_iff .empty]
    exact not_namesInterface_empty name none
  have placed : (r₂.add x).2.Shaped ⟨r₂.loaded.size⟩ ⟨r₂.loaded.size⟩ ↔
      d.interfaces = [] ∧ d.flags.contains .isInterface = false := by
    rw [makes.shaped_iff (fun s member => by cases member) fun i member =>
        second.2 i ⟨_, rfl, member⟩,
      resolveAll_interfaces built₁ beside]
    simp [names, List.eq_nil_iff_forall_not_mem]
  rw [built.wellFormed_iff, ← placed]
  refine ⟨fun all => all _ here, fun root => ?_⟩
  -- names of arrays that the definition could have asked for are among its interfaces
  obtain ⟨none_, -⟩ := placed.mp root
  have rootless := (Built.empty.resolveSuper_eq_ok above).2.mp rfl
  rw [resolveSuper, rootless] at above
  cases above
  rw [none_] at beside
  cases beside
  intro c resolved
  refine (ordered_empty.all_shaped_add reference (Nat.zero_le _)).mpr ⟨fun c old _ => ?_, root⟩ c
    resolved (Nat.zero_le _)
  exact absurd old (not_resolved_empty c)

/-- After the root class has been defined, the hierarchy is well formed exactly if the root
implements nothing and is no interface, and every operation since then has been a proper one. -/
theorem wellFormed_iff_proper {d : ClassDef} (named : d.name = rootName)
    (accepted : (empty.define d none).1 = .ok root) (ops : List Operation) :
    (replay (.define d none :: ops) empty).WellFormed root ↔
      (d.interfaces = [] ∧ d.flags.contains .isInterface = false) ∧
        AllProper root ops (empty.define d none).2 := by
  obtain ⟨isRoot, formed⟩ := first_wellFormed_iff named accepted
  rw [← formed]
  exact (replay_iff (.define .empty d none) isRoot ops).2.2

def properOperations : List Operation :=
  [.define (.interfaceNamed cloneableName) none, .define ((ClassDef.named "t/A").implementing
    cloneableName) none, .arrayOf ⟨11⟩]

theorem properOperations_wellFormed :
    (replay (.define (ClassDef.named rootName).root none :: properOperations) empty).WellFormed
      ⟨9⟩ := by
  have accepted : (empty.define (ClassDef.named rootName).root none).1 = .ok ⟨9⟩ := by
    have made : (empty.define (ClassDef.named rootName).root none).1.toOption = some ⟨9⟩ := by
      decide +kernel
    cases outcome : (empty.define (ClassDef.named rootName).root none).1 with
    | error f => simp [outcome, Except.toOption] at made
    | ok c => simpa [outcome, Except.toOption] using made
  refine (wellFormed_iff_proper rfl accepted properOperations).mpr ⟨by decide, ?_⟩
  refine ⟨⟨fun _ => by decide +kernel, ?_⟩, ⟨fun _ => by decide +kernel, ?_⟩,
    ⟨fun _ => by decide +kernel, by nofun⟩, trivial⟩
  · rintro d loader c same -
    cases same
    exact ⟨by decide, by nofun, fun _ => by decide +kernel⟩
  · rintro d loader c same -
    cases same
    refine ⟨by decide, fun name member => ?_, fun _ => by decide +kernel⟩
    obtain rfl := List.mem_singleton.mp member
    exact ⟨⟨10⟩, by decide +kernel, by decide +kernel⟩

def improperOperations : List Operation :=
  [.define (.named "t/A") none, .define ((ClassDef.named "t/B").implementing "t/A") none]

theorem class_implemented :
    let r := replay (.define (ClassDef.named rootName).root none :: improperOperations) empty
    r.find? "t/B" none = some ⟨11⟩ ∧ (r.cls ⟨11⟩).interfaces = [⟨10⟩] ∧
      (r.cls ⟨10⟩).isInterface = false ∧ ¬ r.WellFormed ⟨9⟩ := by
  intro r
  have interfaces : (r.cls ⟨11⟩).interfaces = [⟨10⟩] := by decide +kernel
  have plain : (r.cls ⟨10⟩).isInterface = false := by decide +kernel
  refine ⟨by decide +kernel, interfaces, plain, fun formed => ?_⟩
  have here : r.Resolved ⟨11⟩ := ⟨by decide +kernel, by decide +kernel⟩
  have interface := (formed.shaped ⟨11⟩ here).interfaces ⟨10⟩ (by rw [interfaces]; decide)
  rw [plain] at interface
  cases interface

end ManagedRuntime.Registry
