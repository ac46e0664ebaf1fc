import ManagedRuntime.Class.Hierarchy
import ManagedRuntime.Proofs.Class.Links
import Mathlib.Logic.Relation

/-!
Assignability as an order. To an ordinary class everything below it is assignable, where below means
along superclasses and interfaces; between array classes the components decide. Both need a
hierarchy with one root. Main statement: assignability is transitive.
-/
namespace ManagedRuntime.Registry
open Relation
variable {r : Registry} {root : ClassId}

def Above (r : Registry) (c d : ClassId) : Prop :=
  (r.cls c).superclass = some d ∨ d ∈ (r.cls c).interfaces

abbrev Below (r : Registry) : ClassId → ClassId → Prop := ReflTransGen r.Above

abbrev Inherits (r : Registry) : ClassId → ClassId → Prop :=
  ReflTransGen fun c d => (r.cls c).superclass = some d

theorem Inherits.below {c d : ClassId} (inherits : r.Inherits c d) : r.Below c d :=
  ReflTransGen.mono (fun _ _ => Or.inl) _ _ inherits

theorem Above.lt (ordered : r.Ordered) {c d : ClassId} (above : r.Above c d) :
    d.index < c.index := by
  rcases above with superclass | interface
  · exact ordered.superclass_lt superclass
  · exact ordered.interface_lt interface

theorem Below.le (ordered : r.Ordered) {c d : ClassId} (below : r.Below c d) :
    d.index ≤ c.index := by
  induction below with
  | refl => exact Nat.le_refl _
  | tail _ above ih => exact Nat.le_trans (Nat.le_of_lt (above.lt ordered)) ih

theorem Above.there {c d : ClassId} (above : r.Above c d) : c.index < r.loaded.size := by
  refine Nat.lt_of_not_le fun outside => ?_
  rw [Above, cls_of_unloaded outside] at above
  rcases above with superclass | interface
  · cases superclass
  · cases interface

theorem resolved_of_isArray {a : ClassId} (array : (r.cls a).isArray = true) : r.Resolved a where
  there := by
    refine Nat.lt_of_not_le fun outside => ?_
    rw [cls_of_unloaded outside] at array
    cases array
  notPrimitive := by
    obtain ⟨e, component⟩ := Class.isArray_iff.mp array
    obtain ⟨n, kind⟩ := Class.component?_eq_some.mp component
    rw [Class.isPrimitive, kind]

/-! The walks. -/

theorem superChainWithin_eq (ordered : r.Ordered) (n m : Nat) (c : ClassId) (enough : c.index < n)
    (too : c.index < m) : r.superChainWithin n c = r.superChainWithin m c := by
  induction n generalizing m c with
  | zero => omega
  | succ n ih =>
    obtain ⟨m, rfl⟩ : ∃ k, m = k + 1 := ⟨m - 1, by omega⟩
    rw [superChainWithin, superChainWithin]
    cases above : (r.cls c).superclass with
    | none => rfl
    | some s =>
      have less := ordered.superclass_lt above
      simp only
      rw [ih m s (by omega) (by omega)]

theorem superChain_eq (ordered : r.Ordered) (c : ClassId) :
    r.superChain c = c :: ((r.cls c).superclass.map r.superChain).getD [] := by
  rw [superChain, superChainWithin]
  cases above : (r.cls c).superclass with
  | none => rfl
  | some s =>
    have less := ordered.superclass_lt above
    simp only [Option.map_some, Option.getD_some]
    rw [superChain, superChainWithin_eq ordered c.index (s.index + 1) s less (by omega)]

theorem mem_superChain_iff (ordered : r.Ordered) (c d : ClassId) :
    d ∈ r.superChain c ↔ r.Inherits c d := by
  constructor
  · intro member
    induction k : c.index using Nat.strongRecOn generalizing c with
    | ind k ih =>
      subst k
      rw [superChain_eq ordered] at member
      rcases List.mem_cons.mp member with rfl | later
      · exact .refl
      · cases above : (r.cls c).superclass with
        | none =>
          rw [above] at later
          cases later
        | some s =>
          rw [above] at later
          exact .head above (ih _ (ordered.superclass_lt above) s later rfl)
  · intro inherits
    induction inherits using ReflTransGen.head_induction_on with
    | refl =>
      rw [superChain_eq ordered]
      exact List.mem_cons_self
    | head above _ ih =>
      rw [superChain_eq ordered, above]
      exact List.mem_cons_of_mem _ ih

theorem contains_tail_superChain (ordered : r.Ordered) {c d : ClassId} (other : c ≠ d) :
    (r.superChain c).tail.contains d = true ↔ r.Inherits c d := by
  have chain := mem_superChain_iff ordered c d
  rw [superChain_eq ordered, List.mem_cons, or_iff_right (Ne.symm other)] at chain
  rw [superChain_eq ordered, List.tail_cons, List.contains_iff_mem]
  exact chain

theorem below_cases {c d : ClassId} (below : r.Below c d) :
    r.Inherits c d ∨ ∃ b, r.Inherits c b ∧ ∃ i ∈ (r.cls b).interfaces, r.Below i d := by
  induction below using ReflTransGen.head_induction_on with
  | refl => exact .inl .refl
  | head above below ih =>
    rcases above with superclass | interface
    · rcases ih with inherits | ⟨b, inherits, rest⟩
      · exact .inl (.head superclass inherits)
      · exact .inr ⟨b, .head superclass inherits, rest⟩
    · exact .inr ⟨_, .refl, _, interface, below⟩

theorem implementsWithin_iff (ordered : r.Ordered) (n : Nat) (c i : ClassId)
    (enough : c.index < n) :
    r.implementsWithin n c i = true ↔ ∃ d, r.Below c d ∧ i ∈ (r.cls d).interfaces := by
  induction n generalizing c with
  | zero => omega
  | succ n ih =>
    simp only [implementsWithin, List.any_eq_true, Bool.or_eq_true, beq_iff_eq,
      mem_superChain_iff ordered]
    constructor
    · rintro ⟨d, inherits, e, listed, here⟩
      rcases here with rfl | above
      · exact ⟨d, inherits.below, listed⟩
      · have le := inherits.below.le ordered
        have less := ordered.interface_lt listed
        obtain ⟨b, below, listed'⟩ := (ih e (by omega)).mp above
        exact ⟨b, inherits.below.trans (.head (.inr listed) below), listed'⟩
    · rintro ⟨d, below, listed⟩
      rcases below_cases below with inherits | ⟨b, inherits, e, listed', rest⟩
      · exact ⟨d, inherits, i, listed, .inl rfl⟩
      · have le := inherits.below.le ordered
        have less := ordered.interface_lt listed'
        exact ⟨b, inherits, e, listed', .inr ((ih e (by omega)).mpr ⟨d, rest, listed⟩)⟩

theorem implements_iff (ordered : r.Ordered) (c i : ClassId) :
    r.implements c i = true ↔ ∃ d, r.Below c d ∧ i ∈ (r.cls d).interfaces :=
  implementsWithin_iff ordered _ c i (Nat.lt_succ_self _)

theorem assignableWithin_eq (ordered : r.Ordered) (n m : Nat) (c t : ClassId)
    (enough : c.index < n) (too : c.index < m) :
    r.assignableWithin n c t = r.assignableWithin m c t := by
  induction n generalizing m c t with
  | zero => omega
  | succ n ih =>
    obtain ⟨m, rfl⟩ : ∃ k, m = k + 1 := ⟨m - 1, by omega⟩
    rw [assignableWithin, assignableWithin]
    split
    · rfl
    · split <;> try rfl
      rename_i array _
      have less := ordered.component_lt (Class.component?_eq_some.mpr ⟨_, array⟩)
      rw [ih m _ _ (by omega) (by omega)]

/-! Targets that are no ordinary class. -/

theorem assignable_self (c : ClassId) : r.assignable c c = true := by
  simp [assignable, assignableWithin]

theorem assignable_primitive_iff {c t : ClassId}
    (primitive : (r.cls c).isPrimitive = true ∨ (r.cls t).isPrimitive = true) :
    r.assignable c t = true ↔ c = t := by
  rw [assignable, assignableWithin]
  by_cases same : c = t
  · simp [same]
  · cases source : (r.cls c).kind <;> cases target : (r.cls t).kind <;>
      simp_all [Class.isPrimitive]

theorem assignable_array_iff (ordered : r.Ordered) {c t f : ClassId}
    (array : (r.cls t).component? = some f) :
    r.assignable c t = true ↔ c = t ∨ ∃ e, (r.cls c).component? = some e ∧
      (r.cls e).isPrimitive = false ∧ (r.cls f).isPrimitive = false ∧ r.assignable e f = true := by
  obtain ⟨n, kind⟩ := Class.component?_eq_some.mp array
  rw [assignable, assignableWithin]
  by_cases same : c = t
  · simp [same]
  · cases source : (r.cls c).kind with
    | array e m =>
      have component : (r.cls c).component? = some e := Class.component?_eq_some.mpr ⟨m, source⟩
      have less := ordered.component_lt component
      simp [same, kind, component, assignable, and_assoc,
        assignableWithin_eq ordered c.index (e.index + 1) e f less (by omega)]
    | ordinary | primitive => simp [same, kind, Class.component?, source]

theorem array_of_assignable (ordered : r.Ordered) {a b : ClassId}
    (assignable : r.assignable a b = true) (array : (r.cls b).isArray = true) :
    (r.cls a).isArray = true := by
  obtain ⟨e, component⟩ := Class.isArray_iff.mp array
  rcases (assignable_array_iff ordered component).mp assignable with rfl | ⟨d, source, -⟩
  · exact array
  · exact Class.isArray_iff.mpr ⟨d, source⟩

theorem assignable_unloaded_iff (ordered : r.Ordered) {c t : ClassId}
    (outside : r.loaded.size ≤ t.index) :
    r.assignable c t = true ↔ c = t ∨ (r.cls c).isArray = true := by
  have plain : (default : Class).isInterface = false := rfl
  have apart (other : c ≠ t) : ¬ r.Inherits c t := by
    intro inherits
    rcases inherits.cases_head with same | ⟨s, superclass, rest⟩
    · exact other same
    · have less := ordered.superclass_lt superclass
      have le := (Inherits.below rest).le ordered
      have there := Above.there (.inl superclass)
      omega
  rw [assignable, assignableWithin, cls_of_unloaded outside]
  by_cases same : c = t
  · simp [same]
  · have kind : (default : Class).kind = .ordinary := rfl
    have root : (default : Class).superclass = none := rfl
    rw [if_neg same, Class.isArray, kind, plain, root]
    cases (r.cls c).kind with
    | primitive | array => simp [same]
    | ordinary => simpa [same] using (not_congr (contains_tail_superChain ordered same)).mpr (apart same)

/-! One root. -/

/-- The class of this name that the bootstrap loader defined before class `c`. -/
def earlier (r : Registry) (c : ClassId) (name : String) : Option ClassId :=
  (r.find? name none).filter fun d => d.index < c.index

structure Formed (r : Registry) (c : ClassId) (x : Class) : Prop where
  above : ∀ s ∈ x.superclass, r.Resolved s
  beside : ∀ i ∈ x.interfaces, r.Resolved i
  notInterface : x.isArray = false → ∀ s ∈ x.superclass, (r.cls s).isInterface = false
  arrayAbove : x.isArray = true → x.superclass = r.earlier c rootName
  arrayBeside : x.isArray = true →
    x.interfaces = [cloneableName, serializableName].filterMap (r.earlier c)

theorem Later.resolved {r' : Registry} (later : Later r r') {c : ClassId}
    (resolved : r.Resolved c) : r'.Resolved c where
  there := Nat.lt_of_lt_of_le resolved.there later.size
  notPrimitive := by rw [later.cls c resolved.there]; exact resolved.notPrimitive

theorem Later.earlier {r' : Registry} (later : Later r r') {c : ClassId}
    (there : c.index ≤ r.loaded.size) : r'.earlier c = r.earlier c := by
  have known {name : String} {d : ClassId} (less : d.index < r.loaded.size) :
      r'.Known name none d ↔ r.Known name none d :=
    known_congr (iff_of_true (Nat.lt_of_lt_of_le less later.size) less) (later.cls d less)
  funext name
  apply Option.ext
  intro d
  simp only [Registry.earlier, Option.filter_eq_some_iff, find?_eq_some_iff, decide_eq_true_eq]
  constructor
  · rintro ⟨⟨here, first⟩, less⟩
    have old : d.index < r.loaded.size := by omega
    refine ⟨⟨(known old).mp here, fun e before other => first e before ?_⟩, less⟩
    exact (known (by omega)).mpr other
  · rintro ⟨⟨here, first⟩, less⟩
    have old : d.index < r.loaded.size := by omega
    refine ⟨⟨(known old).mpr here, fun e before other => first e before ?_⟩, less⟩
    exact (known (by omega)).mp other

/-! Classes stand to one another as they did when fewer were loaded. -/

theorem Later.inherits_iff {r' : Registry} (later : Later r r') (ordered : r.Ordered) {c d : ClassId}
    (there : c.index < r.loaded.size) : r'.Inherits c d ↔ r.Inherits c d := by
  induction k : c.index using Nat.strongRecOn generalizing c with
  | ind k ih =>
    subst k
    have same := later.cls c there
    have up (s : ClassId) (above : (r.cls c).superclass = some s) :
        r'.Inherits s d ↔ r.Inherits s d :=
      have less := ordered.superclass_lt above
      ih s.index less (Nat.lt_trans less there) rfl
    constructor
    · intro inherits
      rcases inherits.cases_head with rfl | ⟨s, above, rest⟩
      · exact .refl
      · rw [same] at above
        exact .head above ((up s above).mp rest)
    · intro inherits
      rcases inherits.cases_head with rfl | ⟨s, above, rest⟩
      · exact .refl
      · have above' : (r'.cls c).superclass = some s := by rw [same, above]
        exact .head above' ((up s above).mpr rest)

theorem Later.superChainWithin {r' : Registry} (later : Later r r') (ordered : r.Ordered) (n : Nat)
    {c : ClassId} (there : c.index < r.loaded.size) :
    r'.superChainWithin n c = r.superChainWithin n c := by
  induction n generalizing c with
  | zero => rfl
  | succ n ih =>
    rw [Registry.superChainWithin, Registry.superChainWithin, later.cls c there]
    cases above : (r.cls c).superclass with
    | none => rfl
    | some s =>
      have less := ordered.superclass_lt above
      simp only
      rw [ih (Nat.lt_trans less there)]

theorem Later.implementsWithin {r' : Registry} (later : Later r r') (ordered : r.Ordered) (n : Nat)
    {c : ClassId} (there : c.index < r.loaded.size) (i : ClassId) :
    r'.implementsWithin n c i = r.implementsWithin n c i := by
  induction n generalizing c with
  | zero => rfl
  | succ n ih =>
    have chain : r'.superChain c = r.superChain c := later.superChainWithin ordered _ there
    rw [Registry.implementsWithin, Registry.implementsWithin, chain]
    rw [Bool.eq_iff_iff]
    simp only [List.any_eq_true]
    apply exists_congr
    intro d
    apply and_congr_right
    intro member
    have le := ((mem_superChain_iff ordered c d).mp member).below.le ordered
    rw [later.cls d (Nat.lt_of_le_of_lt le there)]
    apply exists_congr
    intro e
    apply and_congr_right
    intro listed
    have less := ordered.interface_lt listed
    rw [ih (by omega)]

theorem Later.assignableWithin {r' : Registry} (later : Later r r') (ordered : r.Ordered) (n : Nat)
    {c t : ClassId} (there : c.index < r.loaded.size) (there' : t.index < r.loaded.size) :
    r'.assignableWithin n c t = r.assignableWithin n c t := by
  induction n generalizing c t with
  | zero => rfl
  | succ n ih =>
    have chain : r'.superChain c = r.superChain c := later.superChainWithin ordered _ there
    have interfaces : r'.implements c t = r.implements c t :=
      later.implementsWithin ordered _ there t
    rw [Registry.assignableWithin, Registry.assignableWithin, later.cls c there, later.cls t there',
      chain, interfaces]
    cases source : (r.cls c).kind with
    | ordinary | primitive p => cases (r.cls t).kind <;> rfl
    | array e m =>
      cases target : (r.cls t).kind with
      | ordinary | primitive p => rfl
      | array f k =>
        have below := ordered.component_lt (Class.component?_eq_some.mpr ⟨m, source⟩)
        have below' := ordered.component_lt (Class.component?_eq_some.mpr ⟨k, target⟩)
        simp only
        rw [later.cls e (by omega), later.cls f (by omega), ih (by omega) (by omega)]

theorem Later.assignable {r' : Registry} (later : Later r r') (ordered : r.Ordered) {c t : ClassId}
    (there : c.index < r.loaded.size) (there' : t.index < r.loaded.size) :
    r'.assignable c t = r.assignable c t := later.assignableWithin ordered _ there there'

theorem earlier_new (name : String) : r.earlier ⟨r.loaded.size⟩ name = r.find? name none := by
  apply Option.ext
  intro d
  rw [earlier, Option.filter_eq_some_iff]
  constructor
  · exact And.left
  · intro found
    exact ⟨found, by simpa using (find?_known found).there⟩

theorem Built.formed (built : Built r) {c : ClassId} (there : c.index < r.loaded.size) :
    r.Formed c (r.cls c) := by
  refine built.each (Q := Formed) ?_ ?_ ?_ ?_ c there
  · intro r r' c x later inside formed
    refine ⟨fun s root => later.resolved (formed.above s root),
      fun i member => later.resolved (formed.beside i member), ?_, ?_, ?_⟩
    · intro ordinary s root
      rw [later.cls s (formed.above s root).there]
      exact formed.notInterface ordinary s root
    · rw [later.earlier inside]
      exact formed.arrayAbove
    · rw [later.earlier inside]
      exact formed.arrayBeside
  · intro c _
    rw [cls_empty]
    cases Primitive.all[c.index]? with
    | none => exact ⟨nofun, nofun, nofun, nofun, nofun⟩
    | some p => exact ⟨nofun, nofun, nofun, nofun, nofun⟩
  · intro r c ordered there
    refine ⟨?_, ?_, nofun, fun _ => (earlier_new rootName).symm, fun _ => ?_⟩
    · intro s root
      exact (find?_known root).toResolved
    · intro i member
      obtain ⟨name, -, found⟩ := List.mem_filterMap.mp member
      exact (find?_known found).toResolved
    · rw [funext earlier_new]
      rfl
  · intro r d loader superclass interfaces x ordered above beside made
    have notArray : x.isArray = false := by rw [Class.isArray, made.kind]
    rw [← made.superclass] at above
    rw [← made.interfaces] at beside
    refine ⟨fun s root => (above s root).toResolved, beside, ?_, ?_, ?_⟩
    · intro _ s root
      exact (above s root).notInterface
    · intro array
      rw [notArray] at array
      cases array
    · intro array
      rw [notArray] at array
      cases array

/-- `root` is the only class without a superclass, interfaces are interfaces and have it as
superclass, and the types of all arrays were there before any array class. -/
structure Rooted (r : Registry) (root : ClassId) : Prop where
  isRoot : r.find? rootName none = some root
  only : ∀ c, r.Resolved c → ((r.cls c).superclass = none ↔ c = root)
  interface : ∀ c, r.Resolved c → (r.cls c).isInterface = true → (r.cls c).superclass = some root
  declared : ∀ c, r.Resolved c → ∀ i ∈ (r.cls c).interfaces, (r.cls i).isInterface = true
  arrays : ∀ a, r.Resolved a → (r.cls a).isArray = true →
    ∀ name ∈ [rootName, cloneableName, serializableName], (r.earlier a name).isSome

theorem rooted_of_each (isRoot : r.find? rootName none = some root)
    (each : ∀ i < r.loaded.size, (r.cls ⟨i⟩).isPrimitive = false →
      ((r.cls ⟨i⟩).superclass = none ↔ (⟨i⟩ : ClassId) = root) ∧
      ((r.cls ⟨i⟩).isInterface = true → (r.cls ⟨i⟩).superclass = some root) ∧
      (∀ j ∈ (r.cls ⟨i⟩).interfaces, (r.cls j).isInterface = true) ∧
      ((r.cls ⟨i⟩).isArray = true →
        ∀ name ∈ [rootName, cloneableName, serializableName], (r.earlier ⟨i⟩ name).isSome)) :
    r.Rooted root := by
  have all (c : ClassId) (resolved : r.Resolved c) := each c.index resolved.there resolved.notPrimitive
  exact ⟨isRoot, fun c resolved => (all c resolved).1, fun c resolved => (all c resolved).2.1,
    fun c resolved => (all c resolved).2.2.1, fun c resolved => (all c resolved).2.2.2⟩

theorem Built.above_resolved (built : r.Built) {c d : ClassId} (above : r.Above c d) :
    r.Resolved d := by
  have formed := built.formed above.there
  rcases above with superclass | interface
  · exact formed.above d superclass
  · exact formed.beside d interface

theorem Built.below_resolved (built : r.Built) {c d : ClassId} (start : r.Resolved c)
    (below : r.Below c d) : r.Resolved d := by
  induction below with
  | refl => exact start
  | tail _ above _ => exact built.above_resolved above

theorem Rooted.superclass_root (rooted : r.Rooted root) : (r.cls root).superclass = none :=
  (rooted.only root (find?_known rooted.isRoot).toResolved).mpr rfl

theorem Rooted.root_notInterface (rooted : r.Rooted root) : (r.cls root).isInterface = false := by
  refine Bool.eq_false_iff.mpr fun interface => ?_
  have above := rooted.interface root (find?_known rooted.isRoot).toResolved interface
  rw [rooted.superclass_root] at above
  cases above

theorem Rooted.eq_of_inherits (rooted : r.Rooted root) {t : ClassId}
    (inherits : r.Inherits root t) : t = root := by
  rcases inherits.cases_head with same | ⟨_, above, _⟩
  · exact same.symm
  · rw [rooted.superclass_root] at above
    cases above

section rooted
variable (built : r.Built) (rooted : r.Rooted root)
include built rooted

theorem Rooted.array_superclass {a : ClassId} (resolved : r.Resolved a)
    (array : (r.cls a).isArray = true) : (r.cls a).superclass = some root := by
  rw [(built.formed resolved.there).arrayAbove array]
  obtain ⟨s, found⟩ := Option.isSome_iff_exists.mp (rooted.arrays a resolved array rootName (by simp))
  have isRoot := (Option.filter_eq_some_iff.mp found).1
  rw [rooted.isRoot] at isRoot
  cases isRoot
  exact found

theorem Rooted.superclass_notInterface {c s : ClassId} (resolved : r.Resolved c)
    (above : (r.cls c).superclass = some s) : (r.cls s).isInterface = false := by
  cases array : (r.cls c).isArray with
  | false => exact (built.formed resolved.there).notInterface array s above
  | true =>
    rw [rooted.array_superclass built resolved array] at above
    cases above
    exact rooted.root_notInterface

theorem Rooted.above_array {a b c : ClassId} (first : r.Resolved a)
    (firstArray : (r.cls a).isArray = true) (second : r.Resolved b)
    (secondArray : (r.cls b).isArray = true) (above : r.Above b c) : r.Above a c := by
  rcases above with superclass | interface
  · left
    rw [rooted.array_superclass built second secondArray] at superclass
    rw [rooted.array_superclass built first firstArray]
    exact superclass
  · right
    have same {name : String} (basic : name ∈ [cloneableName, serializableName]) :
        r.earlier a name = r.find? name none ∧ r.earlier b name = r.find? name none := by
      have there {x : ClassId} (resolved : r.Resolved x) (array : (r.cls x).isArray = true) :
          r.earlier x name = r.find? name none := by
        obtain ⟨d, found⟩ := Option.isSome_iff_exists.mp
          (rooted.arrays x resolved array name (List.mem_cons_of_mem _ basic))
        rw [found, (Option.filter_eq_some_iff.mp found).1]
      exact ⟨there first firstArray, there second secondArray⟩
    rw [(built.formed second.there).arrayBeside secondArray] at interface
    rw [(built.formed first.there).arrayBeside firstArray]
    obtain ⟨name, basic, found⟩ := List.mem_filterMap.mp interface
    refine List.mem_filterMap.mpr ⟨name, basic, ?_⟩
    rw [(same basic).1, ← (same basic).2]
    exact found

theorem Rooted.inherits_root {c : ClassId} (resolved : r.Resolved c) : r.Inherits c root := by
  induction k : c.index using Nat.strongRecOn generalizing c with
  | ind k ih =>
    subst k
    cases above : (r.cls c).superclass with
    | none =>
      obtain rfl := (rooted.only c resolved).mp above
      exact .refl
    | some s =>
      have less := built.ordered.superclass_lt above
      exact .head above (ih _ less (built.above_resolved (.inl above)) rfl)

/-- An interface has nothing but the root and other interfaces above it. -/
theorem Rooted.inherits_of_below {c t : ClassId} (resolved : r.Resolved c) (below : r.Below c t)
    (notInterface : (r.cls t).isInterface = false) : r.Inherits c t := by
  induction below using ReflTransGen.head_induction_on with
  | refl => exact .refl
  | @head c d above below ih =>
    have next := built.above_resolved above
    have rest := ih next
    rcases above with superclass | listed
    · exact .head superclass rest
    · -- the root alone is left as a class above an interface, and it is above `c` as well
      have interface := rooted.declared c resolved d listed
      rcases rest.cases_head with rfl | ⟨s, superclass, last⟩
      · rw [notInterface] at interface
        cases interface
      · rw [rooted.interface d next interface] at superclass
        cases superclass
        rw [rooted.eq_of_inherits last]
        exact rooted.inherits_root built resolved

theorem Rooted.implements_iff_below {c t : ClassId} (reference : (r.cls c).isPrimitive = false)
    (interface : (r.cls t).isInterface = true) (other : c ≠ t) :
    r.implements c t = true ↔ r.Below c t := by
  rw [implements_iff built.ordered]
  constructor
  · rintro ⟨d, below, listed⟩
    exact below.tail (.inr listed)
  · intro below
    have there : r.Resolved c := by
      rcases below.cases_head with same | ⟨_, above, _⟩
      · exact absurd same other
      · exact ⟨above.there, reference⟩
    rcases below.cases_tail with same | ⟨d, below, above⟩
    · exact absurd same.symm other
    · rcases above with superclass | listed
      · have last := built.below_resolved there below
        rw [rooted.superclass_notInterface built last superclass] at interface
        cases interface
      · exact ⟨d, below, listed⟩

theorem Rooted.inherits_iff_below {c t : ClassId} (reference : (r.cls c).isPrimitive = false)
    (notInterface : (r.cls t).isInterface = false) : r.Inherits c t ↔ r.Below c t := by
  refine ⟨Inherits.below, fun below => ?_⟩
  rcases below.cases_head with rfl | ⟨_, above, _⟩
  · exact .refl
  · exact rooted.inherits_of_below built ⟨above.there, reference⟩ below notInterface

/-- The root is the only ordinary class above an array class that is no interface. -/
theorem Rooted.array_inherits_iff {a t : ClassId} (resolved : r.Resolved a)
    (array : (r.cls a).isArray = true) (other : a ≠ t) : r.Inherits a t ↔ t = root := by
  constructor
  · intro inherits
    rcases inherits.cases_head with same | ⟨s, superclass, rest⟩
    · exact absurd same other
    · rw [rooted.array_superclass built resolved array] at superclass
      cases superclass
      exact rooted.eq_of_inherits rest
  · rintro rfl
    exact rooted.inherits_root built resolved

theorem Rooted.assignable_ordinary_iff {c t : ClassId} (reference : (r.cls c).isPrimitive = false)
    (there : t.index < r.loaded.size) (ordinary : (r.cls t).kind = .ordinary) :
    r.assignable c t = true ↔ r.Below c t := by
  by_cases same : c = t
  · subst same
    exact iff_of_true (assignable_self c) .refl
  have target : r.Resolved t := ⟨there, by rw [Class.isPrimitive, ordinary]⟩
  rw [assignable, assignableWithin, if_neg same, ordinary]
  cases interface : (r.cls t).isInterface with
  | true =>
    rw [← rooted.implements_iff_below built reference interface same]
    cases source : (r.cls c).kind with
    | primitive p => simp [Class.isPrimitive, source] at reference
    | array | ordinary => rfl
  | false =>
    rw [← rooted.inherits_iff_below built reference interface]
    cases source : (r.cls c).kind with
    | primitive p => simp [Class.isPrimitive, source] at reference
    | array e n =>
      have array : (r.cls c).isArray = true := by rw [Class.isArray, source]
      rw [rooted.array_inherits_iff built (resolved_of_isArray array) array same]
      simpa using rooted.only t target
    | ordinary => exact contains_tail_superChain built.ordered same

/-- Everything above an array class, itself apart, is above every array class. -/
theorem Rooted.below_array {a b t : ClassId} (first : (r.cls a).isArray = true)
    (second : (r.cls b).isArray = true) (below : r.Below b t) (other : b ≠ t) : r.Below a t := by
  rcases below.cases_head with same | ⟨d, above, rest⟩
  · exact absurd same other
  · exact .head (rooted.above_array built (resolved_of_isArray first) first
      (resolved_of_isArray second) second above) rest

theorem Rooted.below_of_assignable {a b t : ClassId} (first : r.assignable a b = true)
    (second : r.assignable b t = true) (there : t.index < r.loaded.size)
    (ordinary : (r.cls t).kind = .ordinary) (start : (r.cls a).isPrimitive = false) :
    r.Below a t := by
  cases middle : (r.cls b).kind with
  | primitive p =>
    obtain rfl := (assignable_primitive_iff (.inr (by rw [Class.isPrimitive, middle]))).mp first
    exact (rooted.assignable_ordinary_iff built start there ordinary).mp second
  | ordinary =>
    have rest := (rooted.assignable_ordinary_iff built (by rw [Class.isPrimitive, middle]) there
      ordinary).mp second
    have inside : b.index < r.loaded.size := by
      rcases rest.cases_head with rfl | ⟨_, above, _⟩
      · exact there
      · exact above.there
    exact ((rooted.assignable_ordinary_iff built start inside middle).mp first).trans rest
  | array e n =>
    have array : (r.cls b).isArray = true := by rw [Class.isArray, middle]
    have rest := (rooted.assignable_ordinary_iff built (by rw [Class.isPrimitive, middle]) there
      ordinary).mp second
    refine rooted.below_array built (array_of_assignable built.ordered first array) array rest ?_
    rintro rfl
    rw [middle] at ordinary
    cases ordinary

theorem Rooted.assignable_trans {a b c : ClassId} (first : r.assignable a b = true)
    (second : r.assignable b c = true) : r.assignable a c = true := by
  -- on the number of the target: a component has a smaller one than its array
  induction k : c.index using Nat.strongRecOn generalizing a b c with
  | ind k ih =>
  subst k
  cases kind : (r.cls c).kind with
  | primitive p =>
    obtain rfl := (assignable_primitive_iff (.inr (by rw [Class.isPrimitive, kind]))).mp second
    exact first
  | array f n =>
    have component : (r.cls c).component? = some f := Class.component?_eq_some.mpr ⟨n, kind⟩
    rcases (assignable_array_iff built.ordered component).mp second with
      rfl | ⟨e, middle, reference, target, below⟩
    · exact first
    rcases (assignable_array_iff built.ordered middle).mp first with
      rfl | ⟨d, source, start, -, above⟩
    · exact second
    refine (assignable_array_iff built.ordered component).mpr
      (.inr ⟨d, source, start, target, ?_⟩)
    exact ih _ (built.ordered.component_lt component) above below rfl
  | ordinary =>
    by_cases there : c.index < r.loaded.size
    · cases primitive : (r.cls a).isPrimitive with
      | true =>
        obtain rfl := (assignable_primitive_iff (.inl primitive)).mp first
        exact second
      | false =>
        exact (rooted.assignable_ordinary_iff built primitive there kind).mpr
          (rooted.below_of_assignable built first second there kind primitive)
    · have outside := assignable_unloaded_iff built.ordered (c := a) (Nat.le_of_not_lt there)
      rcases (assignable_unloaded_iff built.ordered (Nat.le_of_not_lt there)).mp second with
        rfl | array
      · exact first
      · exact outside.mpr (.inr (array_of_assignable built.ordered first array))

end rooted

end ManagedRuntime.Registry
