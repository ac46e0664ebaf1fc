import ManagedRuntime.Proofs.Class.Subtyping

/-!
Names of classes. Two loaded classes have different names or different loaders, array classes are
called after their components, and no other class has a name like theirs. Main statements: a class
that has been found under a name is found under it ever after, and the class of arrays that is made
for a class is the one over that class.
-/
namespace ManagedRuntime

/-- How names of array classes end when the components are of class `x`. -/
def Class.signature (x : Class) : List Char :=
  match x.kind with
  | .primitive p => [p.letter]
  | .array .. => x.name.toList
  | .ordinary => 'L' :: (x.name.toList ++ [';'])

theorem Class.toList_arrayName (x : Class) : x.arrayName.toList = '[' :: x.signature := by
  unfold arrayName signature
  cases x.kind <;> simp

namespace Registry
variable {r r' : Registry} {c d : ClassId}

theorem isArrayName_iff {name : String} :
    isArrayName name = true ↔ ∃ cs, name.toList = '[' :: cs := by
  unfold isArrayName brackets
  cases name.toList with
  | nil => simp
  | cons c cs =>
    by_cases bracket : c = '['
    · simp [bracket]
    · simp [bracket]

theorem isArrayName_arrayName (x : Class) : isArrayName x.arrayName = true :=
  isArrayName_iff.mpr ⟨_, x.toList_arrayName⟩

/-! Lookups. -/

theorem Known.isSome {name : String} {loader : Reference} (known : r.Known name loader c) :
    ∃ d, r.find? name loader = some d := by
  -- the first class of that kind is the one that is found
  induction k : c.index using Nat.strongRecOn generalizing c with
  | ind k ih =>
    subst k
    by_cases earlier : ∃ d : ClassId, d.index < c.index ∧ r.Known name loader d
    · obtain ⟨d, less, other⟩ := earlier
      exact ih d.index less other rfl
    · refine ⟨c, find?_eq_some_iff.mpr ⟨known, fun d less other => ?_⟩⟩
      exact earlier ⟨d, less, other⟩

theorem unknown_of_find? {name : String} {loader : Reference} (new : r.find? name loader = none) :
    ¬ r.Known name loader c := by
  intro known
  obtain ⟨d, found⟩ := known.isSome
  rw [new] at found
  cases found

theorem Widens.find? (widens : Widens r r') {name : String} (plain : isArrayName name = false)
    (loader : Reference) : r'.find? name loader = r.find? name loader := by
  induction widens with
  | refl => rfl
  | @array r' c _ _ _ ih =>
    have other : (r'.arrayClassOf c).name ≠ name := by
      intro same
      have bracket : isArrayName (r'.arrayClassOf c).name = true := isArrayName_arrayName (r'.cls c)
      rw [same, plain] at bracket
      cases bracket
    rw [find?_add, ih]
    simp [other]

/-! Registries that operations make. -/

/-- What holds at the start and is kept by both kinds of additions holds always. -/
theorem Built.invariant {P : Registry → Prop} (built : Built r) (start : P Registry.empty)
    (array : ∀ r c, r.Ordered → P r → c.index < r.loaded.size →
      r.find? (r.cls c).arrayName (r.cls c).loader = none → P (r.add (r.arrayClassOf c)).2)
    (ordinary : ∀ r x, r.Ordered → P r → x.kind = .ordinary → x.name ≠ "" →
      isArrayName x.name = false → r.find? x.name x.loader = none → P (r.add x).2)
    (modify : ∀ r c f, P r → P (r.modifyState c f)) : P r := by
  have widened {r r' : Registry} (widens : Widens r r') (ordered : r.Ordered) (old : P r) :
      P r' := by
    induction widens with
    | refl => exact old
    | array widens there new ih => exact array _ _ (widens.grows.ordered ordered) ih there new
  induction built with
  | empty => exact start
  | @define r built d loader ih =>
    have ordered := built.ordered
    have comes := define_cases d loader ordered.primitives
    generalize r.define d loader = result at comes ⊢
    cases comes with
    | refused widens => exact widened widens ordered ih
    | defined widens named plain new _ _ made =>
      obtain ⟨name, kind, -, -, -, defines, -⟩ := makes_of_build made
      refine ordinary _ _ (widens.grows.ordered ordered) (widened widens ordered ih) kind ?_ ?_ ?_
      · rw [name]
        exact fun empty => by simp [empty] at named
      · rw [name]
        exact plain
      · rw [name, defines, widens.find? plain]
        exact new
  | arrayOf built there ih => exact widened (arrayOf_leads there).1 built.ordered ih
  | arrayClass built name loader ih =>
    exact widened (arrayClass_leads built.ordered.primitives name loader).1 built.ordered ih
  | modifyState _ c f ih => exact modify _ c f ih

/-- Name and loader tell a class from all others, and the names of array classes are their own. -/
structure Keyed (r : Registry) : Prop where
  unique : ∀ c d, r.Resolved c → r.Resolved d → (r.cls c).name = (r.cls d).name →
    (r.cls c).loader = (r.cls d).loader → c = d
  ordinary : ∀ c : ClassId, c.index < r.loaded.size → (r.cls c).kind = .ordinary →
    isArrayName (r.cls c).name = false
  array : ∀ c e n, (r.cls c).kind = .array e n → (r.cls c).name = (r.cls e).arrayName ∧
    (r.cls c).loader = (r.cls e).loader ∧
    n = min FieldType.maxDimensions ((r.cls e).dimensions + 1)
  primitive : ∀ c p, (r.cls c).kind = .primitive p → c = primitive p

theorem keyed_empty : empty.Keyed := by
  have primitiveOnly (c : ClassId) (there : c.index < empty.loaded.size) :
      ∃ p, empty.cls c = primitiveClass p ∧ c = primitive p := by
    have inside : c.index < Primitive.all.length := by simpa [empty] using there
    refine ⟨Primitive.all[c.index], ?_, ?_⟩
    · rw [cls_empty, List.getElem?_eq_getElem inside]
      rfl
    · have nodup : Primitive.all.Nodup := by decide
      rw [primitive, nodup.idxOf_getElem]
  refine ⟨fun c d first => ?_, fun c there ordinary => ?_, fun c e n array => ?_,
    fun c p kind => ?_⟩
  · obtain ⟨p, same, -⟩ := primitiveOnly c first.there
    have reference := first.notPrimitive
    rw [same] at reference
    cases reference
  · obtain ⟨p, same, -⟩ := primitiveOnly c there
    rw [same] at ordinary
    cases ordinary
  · by_cases there : c.index < empty.loaded.size
    · obtain ⟨p, same, -⟩ := primitiveOnly c there
      rw [same] at array
      cases array
    · rw [cls_of_unloaded (by omega)] at array
      cases array
  · by_cases there : c.index < empty.loaded.size
    · obtain ⟨q, same, rfl⟩ := primitiveOnly c there
      rw [same] at kind
      cases kind
      rfl
    · rw [cls_of_unloaded (by omega)] at kind
      cases kind

theorem Keyed.modifyState (keyed : r.Keyed) (c : ClassId) (f : ClassState → ClassState) :
    (r.modifyState c f).Keyed := by
  have classes (d : ClassId) : (r.modifyState c f).cls d = r.cls d := cls_modifyState c f d
  have size := size_modifyState (r := r) c f
  refine ⟨fun d e first second name loader => ?_, fun d there => ?_, fun d e n => ?_, fun d p => ?_⟩
  · have old {d : ClassId} (resolved : (r.modifyState c f).Resolved d) : r.Resolved d :=
      ⟨size ▸ resolved.there, classes d ▸ resolved.notPrimitive⟩
    rw [classes, classes] at name loader
    exact keyed.unique d e (old first) (old second) name loader
  · rw [classes]
    exact keyed.ordinary d (size ▸ there)
  · rw [classes, classes]
    exact keyed.array d e n
  · rw [classes]
    exact keyed.primitive d p

theorem Keyed.unique_add {x : Class} (keyed : r.Keyed) (new : r.find? x.name x.loader = none)
    (first : (r.add x).2.Resolved c) (second : (r.add x).2.Resolved d)
    (name : ((r.add x).2.cls c).name = ((r.add x).2.cls d).name)
    (loader : ((r.add x).2.cls c).loader = ((r.add x).2.cls d).loader) : c = d := by
  have old {c : ClassId} (resolved : (r.add x).2.Resolved c) (less : c.index ≠ r.loaded.size) :
      r.Resolved c := by
    have there := resolved.there
    rw [size_add] at there
    exact ⟨by omega, cls_add_before less ▸ resolved.notPrimitive⟩
  -- no earlier class has both the name and the loader of the new one
  have apart {c : ClassId} (resolved : (r.add x).2.Resolved c) (less : c.index ≠ r.loaded.size)
      (name : (r.cls c).name = x.name) (loader : (r.cls c).loader = x.loader) : False :=
    unknown_of_find? new ⟨old resolved less, name, loader⟩
  by_cases here : c.index = r.loaded.size
  · by_cases here' : d.index = r.loaded.size
    · cases c
      cases d
      cases here.trans here'.symm
      rfl
    · rw [cls_add_last here, cls_add_before here'] at name loader
      exact (apart second here' name.symm loader.symm).elim
  · by_cases here' : d.index = r.loaded.size
    · rw [cls_add_before here, cls_add_last here'] at name loader
      exact (apart first here name loader).elim
    · rw [cls_add_before here, cls_add_before here'] at name loader
      exact keyed.unique c d (old first here) (old second here') name loader

theorem Keyed.add {x : Class} (keyed : r.Keyed) (ordered : r.Ordered)
    (new : r.find? x.name x.loader = none)
    (formed : x.kind = .ordinary ∧ isArrayName x.name = false ∨
      ∃ c : ClassId, c.index < r.loaded.size ∧ x = r.arrayClassOf c) : (r.add x).2.Keyed := by
  refine ⟨fun c d first second name loader => keyed.unique_add new first second name loader,
    fun c there ordinary => ?_, fun c e n array => ?_, fun c p kind => ?_⟩
  · by_cases here : c.index = r.loaded.size
    · rw [cls_add_last here] at ordinary ⊢
      rcases formed with ⟨-, plain⟩ | ⟨e, -, rfl⟩
      · exact plain
      · cases ordinary
    · rw [size_add] at there
      rw [cls_add_before here] at ordinary ⊢
      exact keyed.ordinary c (by omega) ordinary
  · by_cases here : c.index = r.loaded.size
    · rw [cls_add_last here] at array ⊢
      rcases formed with ⟨ordinary, -⟩ | ⟨e', there, rfl⟩
      · rw [ordinary] at array
        cases array
      · cases array
        rw [cls_add_before (by omega)]
        exact ⟨rfl, rfl, rfl⟩
    · rw [cls_add_before here] at array ⊢
      have component : (r.cls c).component? = some e := Class.component?_eq_some.mpr ⟨n, array⟩
      have inside : (r.cls c).isArray = true := Class.isArray_iff.mpr ⟨e, component⟩
      have less := ordered.component_lt component
      have there := (resolved_of_isArray inside).there
      rw [cls_add_before (by omega)]
      exact keyed.array c e n array
  · by_cases here : c.index = r.loaded.size
    · rw [cls_add_last here] at kind
      rcases formed with ⟨ordinary, -⟩ | ⟨e, -, rfl⟩
      · rw [ordinary] at kind
        cases kind
      · cases kind
    · rw [cls_add_before here] at kind
      exact keyed.primitive c p kind

theorem Built.keyed (built : Built r) : r.Keyed := by
  refine built.invariant keyed_empty ?_ ?_ ?_
  · intro r c ordered keyed there new
    exact keyed.add ordered new (.inr ⟨c, there, rfl⟩)
  · intro r x ordered keyed kind _ plain new
    exact keyed.add ordered new (.inl ⟨kind, plain⟩)
  · exact fun r c f keyed => keyed.modifyState c f

theorem Keyed.find?_iff (keyed : r.Keyed) {name : String} {loader : Reference} :
    r.find? name loader = some c ↔ r.Known name loader c := by
  refine ⟨find?_known, fun known => ?_⟩
  obtain ⟨d, found⟩ := known.isSome
  have other := find?_known found
  rw [found, keyed.unique d c other.toResolved known.toResolved (other.name.trans known.name.symm)
    (other.loader.trans known.loader.symm)]

theorem Later.known (later : Later r r') {name : String} {loader : Reference}
    (known : r.Known name loader c) : r'.Known name loader c where
  toResolved := later.resolved known.toResolved
  name := by rw [later.cls c known.there]; exact known.name
  loader := by rw [later.cls c known.there]; exact known.loader

/-- A class that was there had its name and its loader from the start. -/
theorem Later.knew (later : Later r r') {name : String} {loader : Reference}
    (there : c.index < r.loaded.size) (known : r'.Known name loader c) : r.Known name loader c := by
  have same := later.cls c there
  exact ⟨⟨there, same ▸ known.notPrimitive⟩, same ▸ known.name, same ▸ known.loader⟩

theorem Later.find? (later : Later r r') (built : r'.Built) {name : String} {loader : Reference}
    (found : r.find? name loader = some c) : r'.find? name loader = some c :=
  built.keyed.find?_iff.mpr (later.known (find?_known found))

theorem Later.refl (r : Registry) : Later r r := ⟨Nat.le_refl _, fun _ _ => rfl⟩

theorem Later.trans {r'' : Registry} (first : Later r r') (second : Later r' r'') :
    Later r r'' where
  size := Nat.le_trans first.size second.size
  cls c there := (second.cls c (Nat.lt_of_lt_of_le there first.size)).trans (first.cls c there)

theorem Extends.later (extends_ : Extends r r') : Later r r' := ⟨extends_.size, extends_.cls⟩

/-! Arrays. -/

def initial : ClassKind → Char
  | .ordinary => 'L'
  | .primitive p => p.letter
  | .array _ _ => '['

theorem Keyed.head_signature (keyed : r.Keyed) (c : ClassId) :
    (r.cls c).signature.head? = some (initial (r.cls c).kind) := by
  unfold Class.signature
  cases kind : (r.cls c).kind with
  | ordinary | primitive p => rfl
  | array e n =>
    dsimp only
    rw [(keyed.array c e n kind).1, Class.toList_arrayName]
    rfl

theorem kinds_of_initial {k k' : ClassKind} (same : initial k = initial k') :
    (∃ p, k = .primitive p ∧ k' = .primitive p) ∨
      (∃ e n e' n', k = .array e n ∧ k' = .array e' n') ∨ k = .ordinary ∧ k' = .ordinary := by
  have letters (p : Primitive) : p.letter ≠ '[' ∧ p.letter ≠ 'L' := by cases p <;> decide
  cases k with
  | primitive p =>
    cases k' with
    | primitive q =>
      have code := p.ofLetter?_letter
      rw [show p.letter = q.letter from same, q.ofLetter?_letter] at code
      cases code
      exact .inl ⟨p, rfl, rfl⟩
    | array e n => exact absurd same (letters p).1
    | ordinary => exact absurd same (letters p).2
  | array e n =>
    cases k' with
    | primitive q => exact absurd same.symm (letters q).1
    | array e' n' => exact .inr (.inl ⟨e, n, e', n', rfl, rfl⟩)
    | ordinary => cases same
  | ordinary =>
    cases k' with
    | primitive q => exact absurd same.symm (letters q).2
    | array e' n' => cases same
    | ordinary => exact .inr (.inr ⟨rfl, rfl⟩)

/-- A signature tells the class among those of a loader. -/
theorem Keyed.signature_unique (keyed : r.Keyed) (first : c.index < r.loaded.size)
    (second : d.index < r.loaded.size) (same : (r.cls c).signature = (r.cls d).signature)
    (loader : (r.cls c).loader = (r.cls d).loader) : c = d := by
  have kinds : initial (r.cls c).kind = initial (r.cls d).kind := by
    have heads := congrArg List.head? same
    rw [keyed.head_signature, keyed.head_signature] at heads
    exact Option.some.inj heads
  have unique (reference : (r.cls c).isPrimitive = false)
      (reference' : (r.cls d).isPrimitive = false)
      (names : (r.cls c).name.toList = (r.cls d).name.toList) : c = d :=
    keyed.unique c d ⟨first, reference⟩ ⟨second, reference'⟩ (String.toList_inj.mp names) loader
  unfold Class.signature at same
  rcases kinds_of_initial kinds with ⟨p, kind, kind'⟩ | ⟨e, n, e', n', kind, kind'⟩ | ⟨kind, kind'⟩
  · rw [keyed.primitive c p kind, keyed.primitive d p kind']
  · rw [kind, kind'] at same
    exact unique (by simp [Class.isPrimitive, kind]) (by simp [Class.isPrimitive, kind']) same
  · rw [kind, kind'] at same
    refine unique (by simp [Class.isPrimitive, kind]) (by simp [Class.isPrimitive, kind']) ?_
    simpa using same

def ArrayOver (r : Registry) : Nat → ClassId → ClassId → Prop
  | 0, a, c => a = c
  | n + 1, a, c => ∃ b, (r.cls a).component? = some b ∧ ArrayOver r n b c

theorem ArrayOver.unique {n : Nat} {e : ClassId} (first : r.ArrayOver n c d)
    (second : r.ArrayOver n c e) : d = e := by
  induction n generalizing c with
  | zero => exact first.symm.trans second
  | succ n ih =>
    obtain ⟨b, component, rest⟩ := first
    obtain ⟨b', component', rest'⟩ := second
    cases component.symm.trans component'
    exact ih rest rest'

theorem ArrayOver.over {n : Nat} {e : ClassId} (first : r.ArrayOver n c d)
    (component : (r.cls d).component? = some e) : r.ArrayOver (n + 1) c e := by
  induction n generalizing c with
  | zero =>
    cases first
    exact ⟨e, component, rfl⟩
  | succ n ih =>
    obtain ⟨b, above, rest⟩ := first
    exact ⟨b, above, ih rest⟩

theorem ArrayOver.signature {n : Nat} (keyed : r.Keyed) (spans : r.ArrayOver n c d) :
    (r.cls c).signature = List.replicate n '[' ++ (r.cls d).signature := by
  induction n generalizing c with
  | zero =>
    cases spans
    rfl
  | succ n ih =>
    obtain ⟨b, component, rest⟩ := spans
    obtain ⟨m, kind⟩ := Class.component?_eq_some.mp component
    have name : (r.cls c).signature = (r.cls b).arrayName.toList := by
      rw [← (keyed.array c b m kind).1, Class.signature, kind]
    rw [name, Class.toList_arrayName, ih rest, List.replicate_succ, List.cons_append]

theorem ArrayOver.dimensions {n : Nat} (keyed : r.Keyed) (spans : r.ArrayOver n c d)
    (fits : (r.cls d).dimensions + n ≤ FieldType.maxDimensions) :
    (r.cls c).dimensions = (r.cls d).dimensions + n := by
  induction n generalizing c with
  | zero =>
    cases spans
    rfl
  | succ n ih =>
    obtain ⟨b, component, rest⟩ := spans
    obtain ⟨m, kind⟩ := Class.component?_eq_some.mp component
    have below := ih rest (by omega)
    have count : (r.cls c).dimensions = m := by rw [Class.dimensions, kind]
    rw [count, (keyed.array c b m kind).2.2, below]
    omega

theorem ArrayOver.loader {n : Nat} (keyed : r.Keyed) (spans : r.ArrayOver n c d) :
    (r.cls c).loader = (r.cls d).loader := by
  induction n generalizing c with
  | zero =>
    cases spans
    rfl
  | succ n ih =>
    obtain ⟨b, component, rest⟩ := spans
    obtain ⟨m, kind⟩ := Class.component?_eq_some.mp component
    exact (keyed.array c b m kind).2.1.trans (ih rest)

theorem Built.arrayOf_component (built : r.Built) (there : c.index < r.loaded.size) :
    ((r.arrayOf c).2.cls (r.arrayOf c).1).component? = some c := by
  have keyed := built.keyed
  unfold Registry.arrayOf
  split
  · rename_i a found
    have known := find?_known found
    cases kind : (r.cls a).kind with
    | primitive p =>
      have reference := known.notPrimitive
      rw [Class.isPrimitive, kind] at reference
      cases reference
    | ordinary =>
      have plain := keyed.ordinary a known.there kind
      rw [known.name, isArrayName_arrayName] at plain
      cases plain
    | array e n =>
      obtain ⟨name, loader, -⟩ := keyed.array a e n kind
      have component := Class.component?_eq_some.mpr ⟨n, kind⟩
      have less := built.ordered.component_lt component
      have signatures : (r.cls e).signature = (r.cls c).signature := by
        have names := congrArg String.toList (name.symm.trans known.name)
        rw [Class.toList_arrayName, Class.toList_arrayName] at names
        exact List.tail_eq_of_cons_eq names
      have same := keyed.signature_unique (Nat.lt_trans less known.there) there signatures
        (loader.symm.trans known.loader)
      rw [same] at component
      exact component
  · have last : (r.add (r.arrayClassOf c)).1.index = r.loaded.size := rfl
    rw [cls_add_last last]
    rfl

theorem Built.arrayOfTimes (built : r.Built) (n : Nat) (there : c.index < r.loaded.size) :
    (arrayOfTimes n c r).2.Built ∧ Later r (arrayOfTimes n c r).2 ∧
      (arrayOfTimes n c r).2.ArrayOver n (arrayOfTimes n c r).1 c := by
  induction n generalizing c r with
  | zero => exact ⟨built, .refl r, rfl⟩
  | succ n ih =>
    obtain ⟨widens, made⟩ := arrayOf_leads there
    have element := made _ rfl
    obtain ⟨built', later, spans⟩ := ih (built.arrayOf there) element.there
    refine ⟨built', (widens.extends built.ordered).later.trans later, spans.over ?_⟩
    rw [later.cls _ element.there]
    exact built.arrayOf_component there

end Registry
end ManagedRuntime
