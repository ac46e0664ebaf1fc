import ManagedRuntime.Class.Registry

/-!
What a class refers to was loaded before it. Registries are taken as the operations of a runtime
make them, and every operation adds classes of two kinds only: array classes, and classes that a
definition makes out of classes that are loaded. Main statements: all links of a class go to earlier
classes, and an invariant of both kinds of additions holds of every registry.
-/
namespace ManagedRuntime

def Class.links (x : Class) : List ClassId :=
  x.superclass.toList ++ x.interfaces ++ x.component?.toList

def Class.ownTemplate (x : Class) : List Slot :=
  (x.fields.filter (!·.isStatic)).flatMap fun f => Slot.zeroed f.type.primitive?

namespace Registry
variable {r r' r'' : Registry}

structure Ordered (r : Registry) : Prop where
  primitives : Primitive.all.length ≤ r.loaded.size
  links : ∀ c, ∀ d ∈ (r.cls c).links, d.index < c.index

structure Extends (r r' : Registry) : Prop where
  ordered : r'.Ordered
  size : r.loaded.size ≤ r'.loaded.size
  cls : ∀ c : ClassId, c.index < r.loaded.size → r'.cls c = r.cls c

inductive Built : Registry → Prop where
  | empty : Built empty
  | define {r : Registry} (built : Built r) (d : ClassDef) (loader : Reference) :
      Built (r.define d loader).2
  | arrayOf {r : Registry} {c : ClassId} (built : Built r) (there : c.index < r.loaded.size) :
      Built (r.arrayOf c).2
  | arrayClass {r : Registry} (built : Built r) (name : String) (loader : Reference) :
      Built (r.arrayClass name loader).2
  | modifyState {r : Registry} (built : Built r) (c : ClassId) (f : ClassState → ClassState) :
      Built (r.modifyState c f)

theorem Extends.refl (ordered : r.Ordered) : Extends r r := ⟨ordered, Nat.le_refl _, fun _ _ => rfl⟩

theorem Extends.trans (first : Extends r r') (second : Extends r' r'') : Extends r r'' where
  ordered := second.ordered
  size := Nat.le_trans first.size second.size
  cls c there := (second.cls c (Nat.lt_of_lt_of_le there first.size)).trans (first.cls c there)

/-! Classes by number and by name. -/

theorem cls_of_unloaded {c : ClassId} (outside : r.loaded.size ≤ c.index) : r.cls c = default := by
  rw [cls, Array.getElem?_eq_none outside]
  rfl

theorem cls_add (x : Class) (c : ClassId) :
    (r.add x).2.cls c = if c.index = r.loaded.size then x else r.cls c := by
  unfold cls add
  rw [Array.getElem?_push]
  split <;> rfl

theorem cls_add_last {x : Class} {c : ClassId} (last : c.index = r.loaded.size) :
    (r.add x).2.cls c = x := by rw [cls_add, if_pos last]

theorem cls_add_before {x : Class} {c : ClassId} (before : c.index ≠ r.loaded.size) :
    (r.add x).2.cls c = r.cls c := by rw [cls_add, if_neg before]

theorem size_add (x : Class) : (r.add x).2.loaded.size = r.loaded.size + 1 := by
  simp [add]

theorem cls_modifyState (c : ClassId) (f : ClassState → ClassState) (d : ClassId) :
    (r.modifyState c f).cls d = r.cls d := by
  unfold cls modifyState
  rw [Array.getElem?_modify]
  split
  · cases r.loaded[d.index]? <;> rfl
  · rfl

theorem size_modifyState (c : ClassId) (f : ClassState → ClassState) :
    (r.modifyState c f).loaded.size = r.loaded.size := by
  simp [modifyState]

theorem state_modifyState (c : ClassId) (f : ClassState → ClassState) (d : ClassId) :
    (r.modifyState c f).state d =
      if d = c ∧ c.index < r.loaded.size then f (r.state d) else r.state d := by
  unfold state modifyState
  rw [Array.getElem?_modify]
  by_cases same : d = c
  · subst same
    by_cases there : d.index < r.loaded.size <;> simp [there]
  · have apart : c.index ≠ d.index := fun index => same (by cases c; cases d; cases index; rfl)
    rw [if_neg apart, if_neg fun both => same both.1]

theorem state_add (x : Class) (c : ClassId) :
    (r.add x).2.state c = if c.index = r.loaded.size then .initial x else r.state c := by
  unfold state add
  rw [Array.getElem?_push]
  split <;> rfl

structure Resolved (r : Registry) (c : ClassId) : Prop where
  there : c.index < r.loaded.size
  notPrimitive : (r.cls c).isPrimitive = false

structure Known (r : Registry) (name : String) (loader : Reference) (c : ClassId) : Prop
    extends Resolved r c where
  name : (r.cls c).name = name
  loader : (r.cls c).loader = loader

theorem find?_eq_some_iff {name : String} {loader : Reference} {c : ClassId} :
    r.find? name loader = some c ↔
      r.Known name loader c ∧ ∀ d : ClassId, d.index < c.index → ¬ r.Known name loader d := by
  have known (d : ClassId) (there : d.index < r.loaded.size) :
      (r.loaded[d.index].cls.name == name && r.loaded[d.index].cls.loader == loader
          && !r.loaded[d.index].cls.isPrimitive) = true ↔ r.Known name loader d := by
    have same : r.cls d = r.loaded[d.index].cls := by
      rw [cls, Array.getElem?_eq_getElem there]
      rfl
    rw [← same]
    simp only [Bool.and_eq_true, beq_iff_eq, Bool.not_eq_true']
    constructor
    · rintro ⟨⟨named, by_⟩, reference⟩
      exact ⟨⟨there, reference⟩, named, by_⟩
    · intro known
      exact ⟨⟨known.name, known.loader⟩, known.notPrimitive⟩
  rw [find?, Option.map_eq_some_iff]
  constructor
  · rintro ⟨i, found, rfl⟩
    obtain ⟨there, holds, first⟩ := Array.findIdx?_eq_some_iff_getElem.mp found
    refine ⟨(known ⟨i⟩ there).mp holds, fun d earlier other => ?_⟩
    exact first d.index earlier ((known d other.there).mpr other)
  · rintro ⟨here, first⟩
    refine ⟨c.index, Array.findIdx?_eq_some_iff_getElem.mpr ⟨here.there, ?_, ?_⟩, rfl⟩
    · exact (known c here.there).mpr here
    · intro j earlier other
      exact first ⟨j⟩ earlier ((known ⟨j⟩ (Nat.lt_trans earlier here.there)).mp other)

theorem find?_known {name : String} {loader : Reference} {c : ClassId}
    (found : r.find? name loader = some c) : r.Known name loader c :=
  (find?_eq_some_iff.mp found).1

theorem known_congr {name : String} {loader : Reference} {c : ClassId}
    (there : c.index < r'.loaded.size ↔ c.index < r.loaded.size) (same : r'.cls c = r.cls c) :
    r'.Known name loader c ↔ r.Known name loader c := by
  constructor
  · rintro ⟨⟨inside, reference⟩, named, by_⟩
    rw [same] at reference named by_
    exact ⟨⟨there.mp inside, reference⟩, named, by_⟩
  · rintro ⟨⟨inside, reference⟩, named, by_⟩
    rw [← same] at reference named by_
    exact ⟨⟨there.mpr inside, reference⟩, named, by_⟩

theorem find?_modifyState (c : ClassId) (f : ClassState → ClassState) (name : String)
    (loader : Reference) : (r.modifyState c f).find? name loader = r.find? name loader := by
  have known (d : ClassId) : (r.modifyState c f).Known name loader d ↔ r.Known name loader d :=
    known_congr (by rw [size_modifyState]) (cls_modifyState c f d)
  apply Option.ext
  intro d
  simp only [find?_eq_some_iff, known]

theorem find?_add (x : Class) (name : String) (loader : Reference) :
    (r.add x).2.find? name loader =
      (r.find? name loader).or
        (if x.name == name && x.loader == loader && !x.isPrimitive then some ⟨r.loaded.size⟩
          else none) := by
  unfold find? add
  rw [Array.findIdx?_push, Option.map_or]
  congr 1
  split <;> simp_all

/-! Additions. -/

structure Extendable (r : Registry) (c : ClassId) : Prop extends Resolved r c where
  notInterface : (r.cls c).isInterface = false
  notArray : (r.cls c).isArray = false

inductive Grows (r : Registry) : Registry → Prop where
  | refl : Grows r r
  | array {r' : Registry} {c : ClassId} (grows : Grows r r') (there : c.index < r'.loaded.size)
      (new : r'.find? (r'.cls c).arrayName (r'.cls c).loader = none) :
      Grows r (r'.add (r'.arrayClassOf c)).2
  | ordinary {r' : Registry} {d : ClassDef} {loader : Reference} {superclass : Option ClassId}
      {interfaces : List ClassId} {x : Class} (grows : Grows r r')
      (above : ∀ s ∈ superclass, r'.Extendable s) (beside : ∀ i ∈ interfaces, r'.Resolved i)
      (made : r'.build d loader superclass interfaces = .ok x) : Grows r (r'.add x).2

theorem Grows.size (grows : Grows r r') : r.loaded.size ≤ r'.loaded.size := by
  induction grows with
  | refl => exact Nat.le_refl _
  | array _ _ _ ih | ordinary _ _ _ _ ih =>
    rw [size_add]
    omega

theorem Grows.cls (grows : Grows r r') {c : ClassId} (there : c.index < r.loaded.size) :
    r'.cls c = r.cls c := by
  induction grows with
  | refl => rfl
  | array grows _ _ ih | ordinary grows _ _ _ ih =>
    have older := grows.size
    rw [cls_add_before (by omega), ih]

theorem Grows.state (grows : Grows r r') {c : ClassId} (there : c.index < r.loaded.size) :
    r'.state c = r.state c := by
  induction grows with
  | refl => rfl
  | array grows _ _ ih | ordinary grows _ _ _ ih =>
    have older := grows.size
    rw [state_add, if_neg (by omega), ih]

inductive Widens (r : Registry) : Registry → Prop where
  | refl : Widens r r
  | array {r' : Registry} {c : ClassId} (widens : Widens r r') (there : c.index < r'.loaded.size)
      (new : r'.find? (r'.cls c).arrayName (r'.cls c).loader = none) :
      Widens r (r'.add (r'.arrayClassOf c)).2

theorem Widens.trans (first : Widens r r') (second : Widens r' r'') : Widens r r'' := by
  induction second with
  | refl => exact first
  | array _ there new ih => exact .array ih there new

theorem Widens.grows (widens : Widens r r') : Grows r r' := by
  induction widens with
  | refl => exact .refl
  | array _ there new ih => exact .array ih there new

theorem Widens.size (widens : Widens r r') : r.loaded.size ≤ r'.loaded.size := widens.grows.size

theorem Resolved.grows {c : ClassId} (resolved : r.Resolved c) (grows : Grows r r') :
    r'.Resolved c where
  there := Nat.lt_of_lt_of_le resolved.there grows.size
  notPrimitive := by rw [grows.cls resolved.there]; exact resolved.notPrimitive

theorem Extendable.grows {c : ClassId} (extendable : r.Extendable c) (grows : Grows r r') :
    r'.Extendable c where
  toResolved := extendable.toResolved.grows grows
  notInterface := by rw [grows.cls extendable.there]; exact extendable.notInterface
  notArray := by rw [grows.cls extendable.there]; exact extendable.notArray

def Leads (r : Registry) (found : ClassId → Prop) (r' : Registry) : Prop :=
  Widens r r' ∧ ∀ c, found c → r'.Resolved c

theorem arrayOf_leads {c : ClassId} (there : c.index < r.loaded.size) :
    r.Leads (· = (r.arrayOf c).1) (r.arrayOf c).2 := by
  unfold arrayOf
  split
  · rename_i found
    exact ⟨.refl, fun _ same => same ▸ (find?_known found).toResolved⟩
  · rename_i new
    refine ⟨Widens.array .refl there new, ?_⟩
    rintro _ rfl
    have last : (r.add (r.arrayClassOf c)).1.index = r.loaded.size := rfl
    refine ⟨by rw [last, size_add]; omega, ?_⟩
    rw [cls_add_last last]
    rfl

theorem arrayOfTimes_leads (n : Nat) {c : ClassId} (there : c.index < r.loaded.size) :
    r.Leads (fun d => n ≠ 0 ∧ d = (arrayOfTimes n c r).1) (arrayOfTimes n c r).2 := by
  induction n generalizing c r with
  | zero => exact ⟨.refl, fun _ ⟨positive, _⟩ => absurd rfl positive⟩
  | succ n ih =>
    obtain ⟨grows, made⟩ := arrayOf_leads there
    have element := made _ rfl
    obtain ⟨rest, last⟩ := ih element.there
    refine ⟨grows.trans rest, ?_⟩
    rintro d ⟨-, rfl⟩
    cases n with
    | zero => exact element
    | succ n => exact last _ ⟨by omega, rfl⟩

theorem element?_lt {cs : List Char} {loader : Reference} {c : ClassId}
    (primitives : Primitive.all.length ≤ r.loaded.size) (found : r.element? cs loader = some c) :
    c.index < r.loaded.size := by
  have visible {name : String} (seen : r.findVisible? name loader = some c) :
      c.index < r.loaded.size := by
    unfold findVisible? at seen
    rcases Option.or_eq_some_iff.mp (by simpa using seen) with own | ⟨-, bootstrap⟩
    · exact (find?_known own).there
    · exact (find?_known bootstrap).there
  unfold element? at found
  split at found
  · cases found
  · exact visible found
  · split at found
    · split at found
      · cases found
      · cases found
      · rename_i p _ _
        cases found
        exact Nat.lt_of_lt_of_le (by cases p <;> decide) primitives
    · cases found

section operations
variable (primitives : Primitive.all.length ≤ r.loaded.size)
include primitives

theorem arrayClass_leads (name : String) (loader : Reference) :
    r.Leads (some · = (r.arrayClass name loader).1) (r.arrayClass name loader).2 := by
  unfold arrayClass
  dsimp only
  split
  · exact ⟨.refl, fun c made => by cases made⟩
  · rename_i dims
    split
    · exact ⟨.refl, fun c made => by cases made⟩
    · rename_i found
      obtain ⟨grows, made⟩ :=
        arrayOfTimes_leads (brackets name) (element?_lt primitives found)
      refine ⟨grows, fun c same => made c ⟨by omega, ?_⟩⟩
      exact Option.some.inj same

theorem findLoaded_leads (name : String) (loader : Reference) :
    r.Leads (some · = (r.findLoaded name loader).1) (r.findLoaded name loader).2 := by
  unfold findLoaded
  split
  · exact arrayClass_leads primitives name loader
  · exact ⟨.refl, fun c found => (find?_known found.symm).toResolved⟩

theorem resolve_leads (name : String) (loader : Reference) :
    r.Leads (.ok · = (r.resolve name loader).1) (r.resolve name loader).2 := by
  unfold resolve
  split
  · rename_i found
    refine ⟨.refl, fun c same => ?_⟩
    cases same
    exact (find?_known found).toResolved
  · have bootstrap := findLoaded_leads primitives name none
    unfold findBootstrap
    split
    · rename_i found
      rw [found] at bootstrap
      refine ⟨bootstrap.1, fun c same => bootstrap.2 c ?_⟩
      cases same
      rfl
    · rename_i found
      rw [found] at bootstrap
      exact ⟨bootstrap.1, fun c same => by cases same⟩

theorem resolveSuper_leads (d : ClassDef) (loader : Reference) :
    Widens r (r.resolveSuper d loader).2 ∧
      ∀ c, (r.resolveSuper d loader).1 = .ok (some c) →
        (r.resolveSuper d loader).2.Extendable c := by
  unfold resolveSuper
  split
  · exact ⟨.refl, fun c same => by cases same⟩
  · rename_i name _
    have named := resolve_leads primitives name loader
    split
    · rename_i failed
      rw [failed] at named
      exact ⟨named.1, fun c same => by cases same⟩
    · rename_i s r' found
      rw [found] at named
      split
      · exact ⟨named.1, fun c same => by cases same⟩
      · rename_i extendable
        refine ⟨named.1, fun c same => ?_⟩
        cases same
        simp only [Bool.or_eq_true, not_or, Bool.not_eq_true] at extendable
        exact ⟨named.2 s rfl, extendable.1, extendable.2⟩

end operations

theorem resolveAll_leads (loader : Reference) (names : List String)
    (primitives : Primitive.all.length ≤ r.loaded.size) :
    r.Leads (fun c => ∃ cs, (resolveAll loader names r).1 = .ok cs ∧ c ∈ cs)
      (resolveAll loader names r).2 := by
  induction names generalizing r with
  | nil =>
    refine ⟨.refl, ?_⟩
    rintro c ⟨cs, same, member⟩
    cases same
    cases member
  | cons name names ih =>
    have first := resolve_leads primitives name loader
    unfold resolveAll
    split
    · rename_i found
      rw [found] at first
      exact ⟨first.1, fun c ⟨cs, same, _⟩ => by cases same⟩
    · rename_i c r' found
      rw [found] at first
      have rest := ih (Nat.le_trans primitives first.1.size)
      split
      · rename_i failed
        rw [failed] at rest
        exact ⟨first.1.trans rest.1, fun c ⟨cs, same, _⟩ => by cases same⟩
      · rename_i cs r'' resolved
        rw [resolved] at rest
        refine ⟨first.1.trans rest.1, ?_⟩
        rintro d ⟨all, same, member⟩
        cases same
        rcases List.mem_cons.mp member with rfl | later
        · exact (first.2 d rfl).grows rest.1.grows
        · exact rest.2 d ⟨cs, rfl, later⟩

/-- What comes of a definition: it is refused, and only array classes that its names asked for are
new, or after those the class that it makes is added. -/
inductive Defines (r : Registry) (d : ClassDef) (loader : Reference) :
    Except Failure ClassId × Registry → Prop where
  | refused {f : Failure} {r' : Registry} (widens : Widens r r') : Defines r d loader (.error f, r')
  | defined {r' : Registry} {superclass : Option ClassId} {interfaces : List ClassId} {x : Class}
      (widens : Widens r r') (named : d.name.isEmpty = false) (plain : isArrayName d.name = false)
      (new : r.find? d.name loader = none) (above : ∀ s ∈ superclass, r'.Extendable s)
      (beside : ∀ i ∈ interfaces, r'.Resolved i)
      (made : r'.build d loader superclass interfaces = .ok x) :
      Defines r d loader (.ok ⟨r'.loaded.size⟩, (r'.add x).2)

theorem define_cases (d : ClassDef) (loader : Reference)
    (primitives : Primitive.all.length ≤ r.loaded.size) :
    Defines r d loader (r.define d loader) := by
  unfold define
  split
  · exact .refused .refl
  rename_i named
  split
  · exact .refused .refl
  rename_i new
  have above := resolveSuper_leads primitives d loader
  split
  · rename_i failed
    rw [failed] at above
    exact .refused above.1
  rename_i superclass r' found
  rw [found] at above
  have beside := resolveAll_leads loader d.interfaces (Nat.le_trans primitives above.1.size)
  split
  · rename_i failed
    rw [failed] at beside
    exact .refused (above.1.trans beside.1)
  rename_i interfaces r'' resolved
  rw [resolved] at beside
  have widens := above.1.trans beside.1
  split
  · exact .refused widens
  rename_i x made
  simp only [Bool.or_eq_true, not_or, Bool.not_eq_true] at named
  rw [Option.not_isSome_iff_eq_none] at new
  refine .defined widens named.1 named.2 new (fun s root => ?_) (fun i member => ?_) made
  · obtain rfl := Option.mem_def.mp root
    exact (above.2 s rfl).grows beside.1.grows
  · exact beside.2 i ⟨interfaces, rfl, member⟩

theorem define_grows (d : ClassDef) (loader : Reference)
    (primitives : Primitive.all.length ≤ r.loaded.size) : Grows r (r.define d loader).2 := by
  have comes := define_cases d loader primitives
  generalize r.define d loader = result at comes ⊢
  cases comes with
  | refused widens => exact widens.grows
  | defined widens _ _ _ above beside made => exact widens.grows.ordinary above beside made

def inheritedTemplate (r : Registry) (x : Class) : List Slot :=
  (x.superclass.map fun s => (r.cls s).template).getD []

structure Makes (r : Registry) (d : ClassDef) (loader : Reference) (superclass : Option ClassId)
    (interfaces : List ClassId) (x : Class) : Prop where
  name : x.name = d.name
  kind : x.kind = .ordinary
  superclass : x.superclass = superclass
  interfaces : x.interfaces = interfaces
  flags : x.flags = d.flags
  loader : x.loader = loader
  methods : numberMethods ⟨r.loaded.size⟩ d.name 0 d.methods = .ok x.methods
  fields : layFields d.name (r.inheritedTemplate x).length 0 d.fields = .ok x.fields
  template : x.template = r.inheritedTemplate x ++ x.ownTemplate

theorem makes_of_build {d : ClassDef} {loader : Reference} {superclass : Option ClassId}
    {interfaces : List ClassId} {x : Class}
    (built : r.build d loader superclass interfaces = .ok x) :
    r.Makes d loader superclass interfaces x := by
  unfold build at built
  simp only [bind, Except.bind, pure, Except.pure] at built
  split at built
  · cases built
  · rename_i laid
    split at built
    · cases built
    · rename_i numbered
      cases built
      exact ⟨rfl, rfl, rfl, rfl, rfl, rfl, numbered, laid, rfl⟩

/-! Order. -/

theorem Ordered.superclass_lt {c s : ClassId} (ordered : r.Ordered)
    (above : (r.cls c).superclass = some s) : s.index < c.index :=
  ordered.links c s (by simp [Class.links, above])

theorem Ordered.interface_lt {c i : ClassId} (ordered : r.Ordered)
    (above : i ∈ (r.cls c).interfaces) : i.index < c.index :=
  ordered.links c i (by simp [Class.links, above])

theorem Ordered.component_lt {c e : ClassId} (ordered : r.Ordered)
    (array : (r.cls c).component? = some e) : e.index < c.index :=
  ordered.links c e (by simp [Class.links, array])

theorem ordered_add {x : Class} (ordered : r.Ordered)
    (earlier : ∀ d ∈ x.links, d.index < r.loaded.size) : (r.add x).2.Ordered where
  primitives := by
    rw [size_add]
    exact Nat.le_succ_of_le ordered.primitives
  links c d linked := by
    rw [cls_add] at linked
    split at linked
    · rename_i last
      rw [last]
      exact earlier d linked
    · exact ordered.links c d linked

theorem Ordered.modifyState (ordered : r.Ordered) (c : ClassId) (f : ClassState → ClassState) :
    (r.modifyState c f).Ordered where
  primitives := by
    rw [size_modifyState]
    exact ordered.primitives
  links d := by
    rw [cls_modifyState]
    exact ordered.links d

theorem Grows.ordered (grows : Grows r r') (ordered : r.Ordered) : r'.Ordered := by
  induction grows with
  | refl => exact ordered
  | array _ there _ ih =>
    refine ordered_add ih fun d linked => ?_
    simp only [Class.links, List.mem_append, Option.mem_toList] at linked
    rcases linked with (root | implemented) | component
    · exact (find?_known root).there
    · obtain ⟨name, -, found⟩ := List.mem_filterMap.mp implemented
      exact (find?_known found).there
    · cases component
      exact there
  | ordinary _ above beside made ih =>
    obtain ⟨-, kind, superclass, interfaces, -, -, -⟩ := makes_of_build made
    refine ordered_add ih fun d linked => ?_
    simp only [Class.links, Class.component?, superclass, interfaces, kind, List.mem_append,
      Option.mem_toList] at linked
    rcases linked with (root | implemented) | component
    · exact (above d root).there
    · exact (beside d implemented).there
    · cases component

theorem Grows.extends (grows : Grows r r') (ordered : r.Ordered) : Extends r r' :=
  ⟨grows.ordered ordered, grows.size, fun _ there => grows.cls there⟩

theorem Widens.extends (widens : Widens r r') (ordered : r.Ordered) : Extends r r' :=
  widens.grows.extends ordered

theorem cls_empty (c : ClassId) :
    empty.cls c = (Primitive.all[c.index]?.map primitiveClass).getD default := by
  simp only [empty, cls, List.getElem?_toArray, List.getElem?_map]
  cases Primitive.all[c.index]? <;> rfl

theorem ordered_empty : empty.Ordered := by
  refine ⟨by decide, fun c d linked => ?_⟩
  rw [cls_empty] at linked
  cases here : Primitive.all[c.index]? <;> rw [here] at linked <;> cases linked

theorem Built.ordered (built : Built r) : r.Ordered := by
  induction built with
  | empty => exact ordered_empty
  | define _ d loader ih => exact (define_grows d loader ih.primitives).ordered ih
  | arrayOf _ there ih => exact (arrayOf_leads there).1.grows.ordered ih
  | arrayClass _ name loader ih =>
    exact (arrayClass_leads ih.primitives name loader).1.grows.ordered ih
  | modifyState _ c f ih => exact ih.modifyState c f

theorem Widens.built (widens : Widens r r') (built : Built r) : Built r' := by
  induction widens with
  | refl => exact built
  | array _ there new ih =>
    have made := ih.arrayOf there
    rw [Registry.arrayOf, new] at made
    exact made

/-- The second registry has the classes of the first, and more. -/
structure Later (r r' : Registry) : Prop where
  size : r.loaded.size ≤ r'.loaded.size
  cls : ∀ c : ClassId, c.index < r.loaded.size → r'.cls c = r.cls c

theorem Later.add (x : Class) : Later r (r.add x).2 where
  size := by rw [size_add]; omega
  cls c there := cls_add_before (by omega)

theorem Later.modifyState (c : ClassId) (f : ClassState → ClassState) :
    Later r (r.modifyState c f) where
  size := Nat.le_of_eq (size_modifyState c f).symm
  cls d _ := cls_modifyState c f d

/-- What every class has when it is added, told in terms of the earlier ones, it keeps. -/
theorem Built.each {Q : Registry → ClassId → Class → Prop} (built : Built r)
    (keep : ∀ r r' c x, Later r r' → c.index ≤ r.loaded.size → Q r c x → Q r' c x)
    (start : ∀ c : ClassId, c.index < Registry.empty.loaded.size →
      Q Registry.empty c (Registry.empty.cls c))
    (array : ∀ r c, r.Ordered → c.index < r.loaded.size →
      Q r ⟨r.loaded.size⟩ (r.arrayClassOf c))
    (ordinary : ∀ r d loader superclass interfaces x, r.Ordered →
      (∀ s ∈ superclass, r.Extendable s) → (∀ i ∈ interfaces, r.Resolved i) →
      r.Makes d loader superclass interfaces x → Q r ⟨r.loaded.size⟩ x) :
    ∀ c : ClassId, c.index < r.loaded.size → Q r c (r.cls c) := by
  have added {r : Registry} {x : Class} (new : Q r ⟨r.loaded.size⟩ x)
      (old : ∀ c : ClassId, c.index < r.loaded.size → Q r c (r.cls c)) (c : ClassId)
      (there : c.index < (r.add x).2.loaded.size) : Q (r.add x).2 c ((r.add x).2.cls c) := by
    rw [size_add] at there
    rw [cls_add]
    split
    · rename_i last
      obtain rfl : c = ⟨r.loaded.size⟩ := by cases c; cases last; rfl
      exact keep _ _ _ _ (.add x) (Nat.le_refl _) new
    · exact keep _ _ _ _ (.add x) (by omega) (old c (by omega))
  have grown {r r' : Registry} (grows : Grows r r') (ordered : r.Ordered)
      (old : ∀ c : ClassId, c.index < r.loaded.size → Q r c (r.cls c)) :
      ∀ c : ClassId, c.index < r'.loaded.size → Q r' c (r'.cls c) := by
    induction grows with
    | refl => exact old
    | array grows there _ ih => exact added (array _ _ (grows.ordered ordered) there) ih
    | ordinary grows above beside made ih =>
      exact added (ordinary _ _ _ _ _ _ (grows.ordered ordered) above beside (makes_of_build made))
        ih
  induction built with
  | empty => exact start
  | define built d loader ih =>
    exact grown (define_grows d loader built.ordered.primitives) built.ordered ih
  | arrayOf built there ih => exact grown (arrayOf_leads there).1.grows built.ordered ih
  | arrayClass built name loader ih =>
    exact grown (arrayClass_leads built.ordered.primitives name loader).1.grows built.ordered ih
  | modifyState _ c f ih =>
    intro d there
    rw [size_modifyState] at there
    rw [cls_modifyState]
    exact keep _ _ _ _ (.modifyState c f) (Nat.le_of_lt there) (ih d there)

/-! Members. -/

theorem numberMethods_getElem? {owner : ClassId} {className : String} {slot : Nat}
    {ds : List MemberDef} {ms : List Method} (numbered : numberMethods owner className slot ds = .ok ms)
    {i : Nat} {m : Method} (there : ms[i]? = some m) :
    ∃ d type, ds[i]? = some d ∧ MethodType.parse d.descriptor = .ok type ∧
      m = ⟨owner, className, d.name, d.descriptor, type, d.flags, slot + i⟩ := by
  induction ds generalizing slot ms i with
  | nil =>
    cases numbered
    cases there
  | cons d ds ih =>
    rw [numberMethods] at numbered
    split at numbered
    · cases numbered
    · rename_i type parsed
      cases rest : numberMethods owner className (slot + 1) ds with
      | error f =>
        rw [rest] at numbered
        cases numbered
      | ok later =>
        rw [rest] at numbered
        cases numbered
        cases i with
        | zero =>
          cases there
          exact ⟨d, type, rfl, parsed, rfl⟩
        | succ i =>
          obtain ⟨d', type', found, parsed', rfl⟩ := ih rest there
          refine ⟨d', type', found, parsed', ?_⟩
          rw [Nat.add_assoc, Nat.add_comm 1 i]

theorem numberMethods_owner {owner : ClassId} {className : String} {slot : Nat}
    {ds : List MemberDef} {ms : List Method} (numbered : numberMethods owner className slot ds = .ok ms)
    {m : Method} (member : m ∈ ms) : m.owner = owner ∧ m.className = className := by
  obtain ⟨i, there⟩ := List.getElem?_of_mem member
  obtain ⟨d, type, -, -, rfl⟩ := numberMethods_getElem? numbered there
  exact ⟨rfl, rfl⟩

theorem Built.declared (built : Built r) {c : ClassId} {m : Method} (member : m ∈ (r.cls c).methods) :
    m.owner = c ∧ m.className = (r.cls c).name := by
  by_cases there : c.index < r.loaded.size
  · refine built.each (Q := fun _ c x => ∀ m ∈ x.methods, m.owner = c ∧ m.className = x.name)
      ?_ ?_ ?_ ?_ c there m member
    · exact fun _ _ _ _ _ _ known => known
    · intro c _ m member
      rw [cls_empty] at member
      cases here : Primitive.all[c.index]? <;> rw [here] at member <;> cases member
    · exact fun _ _ _ _ _ member => by cases member
    · intro r d loader superclass interfaces x _ _ _ made m member
      rw [made.name]
      exact numberMethods_owner made.methods member
  · rw [cls_of_unloaded (by omega)] at member
    cases member

theorem Built.numbered (built : r.Built) {c : ClassId} {i : Nat} {m : Method}
    (here : (r.cls c).method? i = some m) :
    m.slot = i ∧ MethodType.parse m.descriptor = .ok m.type := by
  by_cases there : c.index < r.loaded.size
  · refine built.each (Q := fun _ _ x => ∀ i m, x.method? i = some m →
      m.slot = i ∧ MethodType.parse m.descriptor = .ok m.type) ?_ ?_ ?_ ?_ c there i m here
    · exact fun _ _ _ _ _ _ known => known
    · intro c _ i m here
      rw [cls_empty] at here
      cases primitive : Primitive.all[c.index]? <;> rw [primitive] at here <;> cases here
    · exact fun _ _ _ _ _ _ here => by cases here
    · intro r d loader superclass interfaces x _ _ _ made i m here
      obtain ⟨d', type, -, parsed, rfl⟩ := numberMethods_getElem? made.methods here
      exact ⟨Nat.zero_add i, parsed⟩
  · rw [cls_of_unloaded (by omega)] at here
    cases here

end Registry
end ManagedRuntime
