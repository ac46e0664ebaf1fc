import ManagedRuntime.Proofs.Class.Subtyping
import Mathlib.Control.Monad.Basic
import Mathlib.Data.List.Basic

/-!
Which declaration a virtual call runs. The search for a method visits the superclasses of the
receiver's class and then, class by class, their interfaces, and takes the first declaration that it
meets, abstract ones included. Main statement: it takes the most derived declaration exactly if it
meets no other one before.
-/
namespace ManagedRuntime.Registry
open Relation
variable {r : Registry} {c d : ClassId} {name descriptor : String} {m target : Method}

def visitedWithin (r : Registry) : Nat → ClassId → List ClassId
  | 0, _ => []
  | n + 1, c =>
    r.superChain c ++
      (r.superChain c).flatMap fun d => (r.cls d).interfaces.flatMap (r.visitedWithin n)

def visited (r : Registry) (c : ClassId) : List ClassId := r.visitedWithin (c.index + 1) c

theorem findSome?_flatMap {α β γ : Type} (f : α → List β) (g : β → Option γ) (l : List α) :
    (l.flatMap f).findSome? g = l.findSome? fun a => (f a).findSome? g := by
  induction l with
  | nil => rfl
  | cons a l ih =>
    rw [List.flatMap_cons, List.findSome?_append, ih, List.findSome?_cons]
    cases (f a).findSome? g <;> rfl

theorem lookupMethodWithin_eq (n : Nat) (c : ClassId) (name descriptor : String) :
    r.lookupMethodWithin n c name descriptor =
      (r.visitedWithin n c).findSome? fun d => (r.cls d).declaredMethod? name descriptor := by
  induction n generalizing c with
  | zero => rfl
  | succ n ih =>
    simp only [lookupMethodWithin, visitedWithin, List.findSome?_append, findSome?_flatMap, ih,
      Option.orElse_eq_orElse, Option.orElse_eq_or]

theorem lookupMethod?_eq (c : ClassId) (name descriptor : String) :
    r.lookupMethod? c name descriptor =
      (r.visited c).findSome? fun d => (r.cls d).declaredMethod? name descriptor :=
  lookupMethodWithin_eq _ c name descriptor

theorem mem_visitedWithin_iff (ordered : r.Ordered) (n : Nat) (c d : ClassId)
    (enough : c.index < n) : d ∈ r.visitedWithin n c ↔ r.Below c d := by
  induction n generalizing c with
  | zero => omega
  | succ n ih =>
    have beside {b i : ClassId} (inherits : r.Inherits c b) (listed : i ∈ (r.cls b).interfaces) :
        d ∈ r.visitedWithin n i ↔ r.Below i d := by
      have le := inherits.below.le ordered
      have less := ordered.interface_lt listed
      exact ih i (by omega)
    simp only [visitedWithin, List.mem_append, List.mem_flatMap, mem_superChain_iff ordered]
    constructor
    · rintro (inherits | ⟨b, inherits, i, listed, later⟩)
      · exact inherits.below
      · exact inherits.below.trans (.head (.inr listed) ((beside inherits listed).mp later))
    · intro below
      rcases below_cases below with inherits | ⟨b, inherits, i, listed, rest⟩
      · exact .inl inherits
      · exact .inr ⟨b, inherits, i, listed, (beside inherits listed).mpr rest⟩

theorem mem_visited_iff (ordered : r.Ordered) (c d : ClassId) :
    d ∈ r.visited c ↔ r.Below c d :=
  mem_visitedWithin_iff ordered _ c d (Nat.lt_succ_self _)

def DeclaresNamed (r : Registry) (name descriptor : String) (d : ClassId) : Prop :=
  ∃ m ∈ (r.cls d).methods, m.has name descriptor = true

theorem not_declaresNamed_iff :
    ¬ r.DeclaresNamed name descriptor d ↔ (r.cls d).declaredMethod? name descriptor = none := by
  simp [DeclaresNamed, Class.declaredMethod?]

/-- The search comes to the class of `m` before any other that declares the name and descriptor, and
`m` is the first of them there. -/
structure First (r : Registry) (c : ClassId) (m : Method) : Prop where
  inClass : (r.cls m.owner).declaredMethod? m.name m.descriptor = some m
  before : ∃ earlier later, r.visited c = earlier ++ m.owner :: later ∧
    ∀ e ∈ earlier, ¬ r.DeclaresNamed m.name m.descriptor e

theorem declaredMethod?_named {x : Class} (found : x.declaredMethod? name descriptor = some m) :
    m ∈ x.methods ∧ m.name = name ∧ m.descriptor = descriptor := by
  have named := List.find?_some (p := fun k : Method => k.has name descriptor) found
  exact ⟨List.mem_of_find?_eq_some found, by simpa [Method.has] using named⟩

theorem Built.lookupMethod?_eq_some_iff (built : r.Built) :
    r.lookupMethod? c name descriptor = some m ↔
      r.First c m ∧ m.name = name ∧ m.descriptor = descriptor := by
  rw [lookupMethod?_eq, List.findSome?_eq_some_iff]
  constructor
  · rintro ⟨earlier, d, later, order, found, nothing⟩
    obtain ⟨member, rfl, rfl⟩ := declaredMethod?_named found
    obtain rfl := (built.declared member).1
    exact ⟨⟨found, earlier, later, order, fun e before => not_declaresNamed_iff.mpr (nothing e before)⟩,
      rfl, rfl⟩
  · rintro ⟨⟨found, earlier, later, order, nothing⟩, rfl, rfl⟩
    exact ⟨earlier, m.owner, later, order, found, fun e before =>
      not_declaresNamed_iff.mp (nothing e before)⟩

structure Virtual (m : Method) : Prop where
  onInstance : m.isStatic = false
  notInitializer : m.isInitializer = false
  shared : m.isPrivate = false

theorem Built.virtualTarget_eq_ok_iff (built : r.Built) (virtual : Virtual m) :
    r.virtualTarget c m = .ok target ↔
      r.First c target ∧ target.name = m.name ∧ target.descriptor = m.descriptor ∧
        target.isAbstract = false := by
  have found : r.lookupMethod? c m.name m.descriptor = some target ↔ _ :=
    built.lookupMethod?_eq_some_iff
  unfold virtualTarget
  rw [virtual.onInstance, virtual.notInitializer, virtual.shared, if_neg (by simp)]
  rw [← and_assoc, ← and_assoc, and_assoc (a := r.First c target), ← found]
  cases looked : r.lookupMethod? c m.name m.descriptor with
  | none => simp
  | some k =>
    simp only [Option.some.injEq]
    split
    · rename_i abstract
      refine iff_of_false nofun ?_
      rintro ⟨rfl, concrete⟩
      rw [concrete] at abstract
      cases abstract
    · rename_i concrete
      constructor
      · rintro ⟨⟩
        exact ⟨rfl, Bool.eq_false_iff.mpr concrete⟩
      · rintro ⟨rfl, -⟩
        rfl

/-! Classes that are loaded later change nothing about what a call runs. -/

theorem Later.visitedWithin {r' : Registry} (later : Later r r') (ordered : r.Ordered) (n : Nat)
    {c : ClassId} (there : c.index < r.loaded.size) :
    r'.visitedWithin n c = r.visitedWithin n c := by
  induction n generalizing c with
  | zero => rfl
  | succ n ih =>
    have chain : r'.superChain c = r.superChain c := later.superChainWithin ordered _ there
    rw [Registry.visitedWithin, Registry.visitedWithin, chain]
    congr 1
    refine List.flatMap_congr fun d member => ?_
    have le := ((mem_superChain_iff ordered c d).mp member).below.le ordered
    rw [later.cls d (by omega)]
    refine List.flatMap_congr fun i listed => ?_
    have less := ordered.interface_lt listed
    exact ih (by omega)

theorem Later.lookupMethod? {r' : Registry} (later : Later r r') (ordered : r.Ordered)
    (there : c.index < r.loaded.size) (name descriptor : String) :
    r'.lookupMethod? c name descriptor = r.lookupMethod? c name descriptor := by
  have order : r'.visited c = r.visited c := later.visitedWithin ordered _ there
  rw [lookupMethod?_eq, lookupMethod?_eq, order, ← List.head?_filterMap, ← List.head?_filterMap]
  refine congrArg List.head? (List.filterMap_congr fun d member => ?_)
  have le := ((mem_visited_iff ordered c d).mp member).le ordered
  rw [later.cls d (by omega)]

theorem Later.virtualTarget {r' : Registry} (later : Later r r') (ordered : r.Ordered)
    (there : c.index < r.loaded.size) (m : Method) :
    r'.virtualTarget c m = r.virtualTarget c m := by
  rw [Registry.virtualTarget, Registry.virtualTarget, later.lookupMethod? ordered there,
    later.cls c there]

/-- A declaration that can run on an instance, in a class that is below every other class or
interface above `c` that declares the name and descriptor. -/
structure MostDerived (r : Registry) (c : ClassId) (m : Method) : Prop where
  above : r.Below c m.owner
  declared : m ∈ (r.cls m.owner).methods
  concrete : m.isAbstract = false
  onInstance : m.isStatic = false
  shared : m.isPrivate = false
  below : ∀ e, r.Below c e → r.DeclaresNamed m.name m.descriptor e → r.Below m.owner e

theorem superChain_split (ordered : r.Ordered) (inherits : r.Inherits c d) :
    ∃ earlier later, r.superChain c = earlier ++ d :: later ∧
      ∀ e ∈ earlier, r.Inherits c e ∧ d.index < e.index := by
  induction inherits using ReflTransGen.head_induction_on with
  | refl => exact ⟨[], _, superChain_eq ordered d, nofun⟩
  | @head c s above rest ih =>
    obtain ⟨earlier, later, order, between⟩ := ih
    have less := ordered.superclass_lt above
    have le := (Inherits.below rest).le ordered
    refine ⟨c :: earlier, later, ?_, ?_⟩
    · rw [superChain_eq ordered, above]
      simp [order]
    · intro e member
      rcases List.mem_cons.mp member with rfl | member
      · exact ⟨.refl, by omega⟩
      · exact ⟨.head above (between e member).1, (between e member).2⟩

theorem MostDerived.first_of_inherits (ordered : r.Ordered) (most : r.MostDerived c m)
    (inherits : r.Inherits c m.owner)
    (inClass : (r.cls m.owner).declaredMethod? m.name m.descriptor = some m) : r.First c m := by
  obtain ⟨earlier, later, order, between⟩ := superChain_split ordered inherits
  refine ⟨inClass, earlier, _, by rw [visited, visitedWithin, order]; simp; rfl, ?_⟩
  intro e member declares
  have up := (most.below e (between e member).1.below declares).le ordered
  have less := (between e member).2
  omega

/-- What a call on an instance of `c` runs is the most derived declaration exactly if the search comes
to it first. One in a superclass comes first, unless its class has another before it. -/
theorem virtualTarget_mostDerived_iff (built : r.Built) (virtual : Virtual m)
    (most : r.MostDerived c target) (named : target.name = m.name)
    (described : target.descriptor = m.descriptor) :
    (r.virtualTarget c m = .ok target ↔ r.First c target) ∧
      (r.Inherits c target.owner → (r.First c target ↔
        (r.cls target.owner).declaredMethod? target.name target.descriptor = some target)) := by
  constructor
  · rw [built.virtualTarget_eq_ok_iff virtual]
    exact ⟨And.left, fun first => ⟨first, named, described, most.concrete⟩⟩
  · exact fun inherits => ⟨First.inClass, most.first_of_inherits built.ordered inherits⟩

theorem mostDerived_of_visited (ordered : r.Ordered) (above : m.owner ∈ r.visited c)
    (declared : m ∈ (r.cls m.owner).methods)
    (plain : m.isAbstract = false ∧ m.isStatic = false ∧ m.isPrivate = false)
    (below : ∀ e ∈ r.visited c, ((r.cls e).declaredMethod? m.name m.descriptor).isSome →
      e ∈ r.visited m.owner) : r.MostDerived c m where
  above := (mem_visited_iff ordered _ _).mp above
  declared := declared
  concrete := plain.1
  onInstance := plain.2.1
  shared := plain.2.2
  below e visited declares := by
    refine (mem_visited_iff ordered _ _).mp (below e ((mem_visited_iff ordered _ _).mpr visited) ?_)
    rw [Option.isSome_iff_ne_none]
    exact fun none => not_declaresNamed_iff.mpr none declares

/-! An interface and another one that extends it, both implemented by one class. -/

/-- `t/J` overrides both methods of `t/I`, one of which is abstract there. `t/A` lists `t/I` first,
`t/B` lists `t/J` first. -/
def diamond : Registry :=
  let root := (Registry.empty.define (ClassDef.named rootName).root none).2
  let i := (root.define (((ClassDef.interfaceNamed "t/I").publicMethod "f" "()V").method "g" "()V"
    (.isPublic ||| .isAbstract)) none).2
  let j := (i.define ((((ClassDef.interfaceNamed "t/J").implementing "t/I").publicMethod "f"
    "()V").publicMethod "g" "()V") none).2
  let a := (j.define (((ClassDef.named "t/A").implementing "t/I").implementing "t/J") none).2
  (a.define (((ClassDef.named "t/B").implementing "t/J").implementing "t/I") none).2

theorem built_diamond : diamond.Built := by
  unfold diamond
  exact ((((Registry.Built.empty.define _ _).define _ _).define _ _).define _ _).define _ _

def diamondMethod (owner : ClassId) (slot : Nat) : Method :=
  ((diamond.cls owner).method? slot).getD ⟨⟨0⟩, "", "", "", ⟨[], none⟩, .empty, 0⟩

theorem mostDerived_diamond (slot : Nat) (here : slot = 0 ∨ slot = 1) (c : ClassId)
    (both : c = ⟨12⟩ ∨ c = ⟨13⟩) : diamond.MostDerived c (diamondMethod ⟨11⟩ slot) := by
  rcases here with rfl | rfl <;> rcases both with rfl | rfl <;>
    exact mostDerived_of_visited built_diamond.ordered (by decide +kernel) (by decide +kernel)
      (by decide +kernel) (by decide +kernel)

/-- On a `t/B` the calls of the methods of `t/I` run those of `t/J`. -/
theorem override_found :
    diamond.virtualTarget ⟨13⟩ (diamondMethod ⟨10⟩ 0) = .ok (diamondMethod ⟨11⟩ 0) := by
  have first : diamond.First ⟨13⟩ (diamondMethod ⟨11⟩ 0) :=
    ⟨by decide +kernel, [⟨13⟩, ⟨9⟩], [⟨9⟩, ⟨10⟩, ⟨9⟩, ⟨10⟩, ⟨9⟩], by decide +kernel,
      by simp only [not_declaresNamed_iff]; decide +kernel⟩
  exact (virtualTarget_mostDerived_iff built_diamond
    ⟨by decide +kernel, by decide +kernel, by decide +kernel⟩
    (mostDerived_diamond 0 (.inl rfl) ⟨13⟩ (.inr rfl)) (by decide +kernel)
    (by decide +kernel)).1.mpr first

/-- On a `t/A` one of them runs itself, and the other fails as abstract. -/
theorem override_missed :
    diamond.MostDerived ⟨12⟩ (diamondMethod ⟨11⟩ 0) ∧
      diamond.MostDerived ⟨12⟩ (diamondMethod ⟨11⟩ 1) ∧
      diamond.virtualTarget ⟨12⟩ (diamondMethod ⟨10⟩ 0) = .ok (diamondMethod ⟨10⟩ 0) ∧
      diamond.virtualTarget ⟨12⟩ (diamondMethod ⟨10⟩ 1) = .error (.abstractMethod "t/A.g()V") :=
  ⟨mostDerived_diamond 0 (.inl rfl) ⟨12⟩ (.inl rfl),
    mostDerived_diamond 1 (.inr rfl) ⟨12⟩ (.inl rfl), by decide +kernel, by decide +kernel⟩

end ManagedRuntime.Registry
