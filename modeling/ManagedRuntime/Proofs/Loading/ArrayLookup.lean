import ManagedRuntime.Boot.Basic
import ManagedRuntime.Loading.Resolution
import ManagedRuntime.Proofs.Class.ArrayNames
import ManagedRuntime.Proofs.Execution.Calls
import Mathlib.Control.Monad.Basic

/-!
Lookups of array classes against lookups of their elements. A loader is asked for the element class,
but the array class is then made for the class that the loader itself, or else the bootstrap loader,
has defined under the name of the element. Main statement: the two lookups agree exactly where the
loader has answered with that class.
-/
namespace ManagedRuntime

def arrayText (n : Nat) (name : String) : String :=
  String.ofList (List.replicate n '[' ++ 'L' :: (name.toList ++ [';']))

namespace Registry
variable {r : Registry} {n : Nat} {name : String} {loader : Reference} {c : ClassId}

theorem brackets_arrayText (n : Nat) (name : String) : brackets (arrayText n name) = n := by
  rw [brackets, arrayText, String.toList_ofList, List.takeWhile_append_of_pos (by simp)]
  simp

theorem drop_arrayText (n : Nat) (name : String) :
    (arrayText n name).toList.drop n = 'L' :: (name.toList ++ [';']) := by
  rw [arrayText, String.toList_ofList]
  exact List.drop_left' List.length_replicate

theorem arrayClass_arrayText (named : name ≠ "") (positive : 1 ≤ n)
    (fits : n ≤ FieldType.maxDimensions) :
    r.arrayClass (arrayText n name) loader =
      match r.findVisible? name loader with
      | none => (none, r)
      | some e => (some (arrayOfTimes n e r).1, (arrayOfTimes n e r).2) := by
  have element : r.element? ((arrayText n name).toList.drop n) loader =
      r.findVisible? name loader := by
    rw [drop_arrayText]
    unfold element?
    rw [objectName?_eq_some.mpr rfl]
    cases chars : name.toList with
    | nil => exact absurd (String.toList_eq_nil_iff.mp chars) named
    | cons x xs => simp only [← chars, String.ofList_toList]
  unfold arrayClass
  simp only [brackets_arrayText, element]
  exact if_neg (by omega)

theorem Built.arrayClass_iff (built : r.Built) (named : name ≠ "")
    (plain : isArrayName name = false) (positive : 1 ≤ n) (fits : n ≤ FieldType.maxDimensions) :
    (∃ a, (r.arrayClass (arrayText n name) loader).1 = some a ∧
        (r.arrayClass (arrayText n name) loader).2.ArrayOver n a c ∧
        ((r.arrayClass (arrayText n name) loader).2.cls a).dimensions = n) ↔
      r.Visible name loader c := by
  have keyed := built.keyed
  rw [arrayClass_arrayText named positive fits, ← keyed.findVisible?_iff]
  cases seen : r.findVisible? name loader with
  | none => simp
  | some e =>
    obtain ⟨loader', known⟩ : ∃ l, r.Known name l e := by
      rcases keyed.findVisible?_iff.mp seen with own | ⟨-, bootstrap⟩
      · exact ⟨_, own⟩
      · exact ⟨_, bootstrap⟩
    obtain ⟨built', later, spans⟩ := built.arrayOfTimes n known.there
    have ordinary := built'.keyed.ordinary_of_plain (later.known known) plain
    have element : ((Registry.arrayOfTimes n e r).2.cls e).dimensions = 0 := by
      rw [Class.dimensions, ordinary]
    have dimensions := spans.dimensions built'.keyed (by omega)
    rw [element, Nat.zero_add] at dimensions
    constructor
    · rintro ⟨a, made, spans', -⟩
      cases made
      exact congrArg some (spans.unique spans')
    · intro same
      cases same
      exact ⟨_, rfl, spans, dimensions⟩

end Registry

namespace Exec
open Registry
variable {η : Type} {code : Code η} {rely : World η → World η → Prop} {w v y u : World η}
  {env d e : Env} {n : Nat} {name : String} {loader : Reference} {c : ClassId}

theorem findClass_plain (plain : isArrayName name = false) :
    (findClass name loader : Exec η ClassId) = findPlainClass name loader := by
  rw [findClass, if_neg (by simp [plain])]

theorem loadElement_arrayText (named : name ≠ "") (plain : isArrayName name = false) :
    (loadElement (arrayText n name) loader : Exec η Unit) = discard (findClass name loader) := by
  have empty : name.toList.isEmpty = false := by
    rw [List.isEmpty_eq_false_iff]
    exact fun none => named (String.toList_eq_nil_iff.mp none)
  have head : name.toList.head? ≠ some '[' := by
    intro bracket
    obtain ⟨cs, chars⟩ := List.head?_eq_some_iff.mp bracket
    rw [isArrayName_iff.mpr ⟨cs, chars⟩] at plain
    cases plain
  rw [findClass_plain plain, loadElement, brackets_arrayText, drop_arrayText,
    objectName?_eq_some.mpr rfl]
  simp only [empty, String.ofList_toList]
  rw [if_neg (by simp [head])]

def arrayAnswer (n : Nat) (name : String) (loader : Reference) : Exec η ClassId := do
  let found ← act (Atomic.onRegistry (·.arrayClass (arrayText n name) loader))
  conclude (found.elim (.error (.classNotFound (arrayText n name))) .ok)

/-- A lookup of an array class is a lookup of its element and then one in the registry. -/
theorem ends_findClass_arrayText (named : name ≠ "") (plain : isArrayName name = false)
    (positive : 1 ≤ n) {r : Except Failure ClassId} :
    Ends code rely w env (findClass (arrayText n name) loader) r e u ↔
      (∃ f, Ends code rely w env (findClass name loader) (.error f) e u ∧ r = .error f) ∨
        ∃ c d v, Ends code rely w env (findClass name loader) (.ok c) d v ∧
          Ends code rely v d (arrayAnswer n name loader) r e u := by
  have array : isArrayName (arrayText n name) = true := by
    rw [isArrayName, brackets_arrayText]
    simpa using Nat.ne_of_gt positive
  have split : (findClass (arrayText n name) loader : Exec η ClassId) =
      discard (findClass name loader) >>= fun _ => arrayAnswer n name loader := by
    rw [findClass, if_pos array, loadElement_arrayText named plain]
    unfold arrayAnswer
    congr
    funext _
    congr
    funext found
    cases found <;> rfl
  rw [split, ends_bind]
  simp only [ends_discard]
  constructor
  · rintro (⟨f, ⟨q, first, same⟩, rfl⟩ | ⟨_, d, v, ⟨q, first, same⟩, rest⟩)
    · cases q with
      | error g =>
        cases same
        exact .inl ⟨_, first, rfl⟩
      | ok c => cases same
    · cases q with
      | error g => cases same
      | ok c => exact .inr ⟨c, d, v, first, rest⟩
  · rintro (⟨f, first, rfl⟩ | ⟨c, d, v, first, rest⟩)
    · exact .inl ⟨f, ⟨_, first, rfl⟩, rfl⟩
    · exact .inr ⟨_, d, v, ⟨_, first, rfl⟩, rest⟩

def IsArrayOf (n : Nat) (c : ClassId) (r : Except Failure ClassId) (u : World η) : Prop :=
  ∃ a, r = .ok a ∧ u.registry.ArrayOver n a c ∧ (u.cls a).dimensions = n

theorem ends_arrayAnswer {r : Except Failure ClassId} :
    Ends code rely v d (arrayAnswer n name loader) r e u ↔
      ∃ y refs, rely v y ∧
        u = { y.during (d.references ++ refs) with
          registry := (y.registry.arrayClass (arrayText n name) loader).2 } ∧
        r = (y.registry.arrayClass (arrayText n name) loader).1.elim
          (.error (.classNotFound (arrayText n name))) .ok ∧
        e = d.hold (u.madeSince y.heap.objects.size) := by
  unfold arrayAnswer
  rw [ends_bind]
  constructor
  · rintro (⟨f, first, rfl⟩ | ⟨found, d', v', first, rest⟩)
    · obtain ⟨y, refs, change, ran, -⟩ := ends_act.mp first
      cases ran
    · obtain ⟨y, refs, change, ran, rfl⟩ := ends_act.mp first
      cases ran
      obtain ⟨rfl, rfl, rfl⟩ := ends_conclude.mp rest
      exact ⟨y, refs, change, rfl, rfl, rfl⟩
  · rintro ⟨y, refs, change, rfl, rfl, rfl⟩
    refine .inr ⟨_, _, _, ends_act.mpr ⟨y, refs, change, rfl, rfl⟩, ?_⟩
    exact ends_conclude.mpr ⟨rfl, rfl, rfl⟩

theorem isArrayOf_iff (built : y.registry.Built) (named : name ≠ "")
    (plain : isArrayName name = false) (positive : 1 ≤ n) (fits : n ≤ FieldType.maxDimensions)
    (refs : List ObjectId) :
    IsArrayOf n c
        ((y.registry.arrayClass (arrayText n name) loader).1.elim
          (.error (.classNotFound (arrayText n name))) .ok)
        { y.during refs with registry := (y.registry.arrayClass (arrayText n name) loader).2 } ↔
      y.registry.Visible name loader c := by
  rw [← built.arrayClass_iff named plain positive fits]
  constructor
  · rintro ⟨a, answer, spans, dimensions⟩
    refine ⟨a, ?_, spans, dimensions⟩
    cases found : (y.registry.arrayClass (arrayText n name) loader).1 with
    | none =>
      rw [found] at answer
      cases answer
    | some b =>
      rw [found] at answer
      cases answer
      rfl
  · rintro ⟨a, found, spans, dimensions⟩
    exact ⟨a, by rw [found]; rfl, spans, dimensions⟩

/-- Every lookup of an array class contains a lookup of its element, every lookup of the element
goes on to one of the array class, and in both cases the two agree if and only if the element that
was answered is the class that the loader, or else the bootstrap loader, has defined under its name
at the moment when the array class is made. -/
theorem arrayLookup_agrees_iff (reached : ∀ w x, rely w x → x.registry.Built) (named : name ≠ "")
    (plain : isArrayName name = false) (positive : 1 ≤ n) (fits : n ≤ FieldType.maxDimensions) :
    (∀ r e u, Ends code rely w env (findClass (arrayText n name) loader) r e u →
      ∃ q d v, Ends code rely w env (findClass name loader) q d v ∧
        match q with
        | .error f => r = .error f
        | .ok c => ∃ y, rely v y ∧ (IsArrayOf n c r u ↔ y.registry.Visible name loader c)) ∧
    ∀ q d v, Ends code rely w env (findClass name loader) q d v →
      match q with
      | .error f => Ends code rely w env (findClass (arrayText n name) loader) (.error f) d v
      | .ok c => ∀ y, rely v y → ∃ r e u,
        Ends code rely w env (findClass (arrayText n name) loader) r e u ∧
          (IsArrayOf n c r u ↔ y.registry.Visible name loader c) := by
  constructor
  · intro r e u ends
    rcases (ends_findClass_arrayText named plain positive).mp ends with
      ⟨f, first, rfl⟩ | ⟨c, d, v, first, rest⟩
    · exact ⟨.error f, e, u, first, rfl⟩
    · obtain ⟨y, refs, change, rfl, rfl, -⟩ := ends_arrayAnswer.mp rest
      exact ⟨.ok c, d, v, first, y, change,
        isArrayOf_iff (reached v y change) named plain positive fits _⟩
  · intro q d v first
    cases q with
    | error f => exact (ends_findClass_arrayText named plain positive).mpr (.inl ⟨f, first, rfl⟩)
    | ok c =>
      intro y change
      let answer := (y.registry.arrayClass (arrayText n name) loader).1.elim
        (Except.error (Failure.classNotFound (arrayText n name))) .ok
      have rest : ∃ e u, Ends code rely v d (arrayAnswer n name loader) answer e u ∧
          (IsArrayOf n c answer u ↔ y.registry.Visible name loader c) :=
        ⟨_, _, ends_arrayAnswer.mpr ⟨y, [], change, rfl, rfl, rfl⟩,
          isArrayOf_iff (reached v y change) named plain positive fits _⟩
      obtain ⟨e, u, rest, agrees⟩ := rest
      exact ⟨answer, e, u, (ends_findClass_arrayText named plain positive).mpr
        (.inr ⟨c, d, v, first, rest⟩), agrees⟩

/-! A loader that answers with a class of its parent. -/

def loaderDef : ClassDef :=
  (ClassDef.named "Loader").publicMethod "loadClass" "(Ljava/lang/String;)Ljava/lang/Class;"

def parentRegistry : Registry :=
  let root := (Registry.empty.define (ClassDef.named Registry.rootName).root none).2
  let strings := (root.define (.named "java/lang/String") none).2
  let loaders := (strings.define loaderDef none).2
  (loaders.define (.named "N") (some ⟨0⟩)).2

theorem built_parentRegistry : parentRegistry.Built := by
  unfold parentRegistry
  exact (((Registry.Built.empty.define _ _).define _ _).define _ _).define _ _

def parentWorld : World Unit :=
  { Boot.initialWorld .silent parentRegistry 0 with
    heap := { Heap.empty 0 0 with objects := #[
      { cls := ⟨11⟩, fields := #[], payload := .plain },
      { cls := ⟨11⟩, fields := #[], payload := .plain },
      { cls := ⟨9⟩, fields := #[], payload := .mirror ⟨12⟩ }] } }

def parentCode : Code Unit where
  execute _ _ := pure (some (.ref (some ⟨2⟩)))
  native _ _ := throw .nullReference

def lookedUp (name : String) (loader : Reference) : Option (Except Failure ClassId) :=
  (Machine.run parentCode (fun _ => .done ()) 16 ((findClass name loader).runIn (.new ⟨0⟩ 8))
    ⟨parentWorld, []⟩).map (·.1.1)

/-- Loader `1` answers `N` with the class of loader `0`, and has no array class of it. -/
theorem delegated_array_not_found :
    parentWorld.registry.Built ∧ arrayText 1 "N" = "[LN;" ∧
      lookedUp "N" (some ⟨1⟩) = some (.ok ⟨12⟩) ∧
      lookedUp "[LN;" (some ⟨1⟩) = some (.error (.classNotFound "[LN;")) := by
  refine ⟨built_parentRegistry, ?_, ?_, ?_⟩ <;> decide +kernel

/-- A class that the loader has defined is found, and nobody is asked. -/
theorem ends_findClass_defined (change : rely w y) (plain : isArrayName name = false)
    (found : y.registry.find? name loader = some c) :
    Ends code rely w env (findClass name loader) (.ok c) env (y.during (env.references ++ [])) := by
  rw [findClass_plain plain]
  unfold findPlainClass
  refine ends_bind.mpr (.inr ⟨some c, env, _, ends_ask.mpr ⟨⟨y, [], change, rfl⟩, ?_, rfl⟩, ?_⟩)
  · rw [← found]
    rfl
  · exact ends_pure.mpr ⟨rfl, rfl, rfl⟩

/-- Loader `0` has defined `N`, and gets the arrays of it. -/
theorem defined_array_found :
    ∃ r e u, Ends parentCode (fun _ x => x.registry.Built) parentWorld (.new ⟨0⟩ 8)
        (findClass (arrayText 2 "N") (some ⟨0⟩)) r e u ∧ IsArrayOf 2 ⟨12⟩ r u := by
  have found : parentWorld.registry.find? "N" (some ⟨0⟩) = some ⟨12⟩ := by decide +kernel
  have plain : isArrayName "N" = false := by decide +kernel
  have change : parentWorld.registry.Built := built_parentRegistry
  have element : ∃ v, Ends parentCode (fun _ x => x.registry.Built) parentWorld (.new ⟨0⟩ 8)
      (findClass "N" (some ⟨0⟩)) (.ok ⟨12⟩) (.new ⟨0⟩ 8) v :=
    ⟨_, ends_findClass_defined change plain found⟩
  obtain ⟨v, element⟩ := element
  obtain ⟨r, e, u, ends, agrees⟩ := (arrayLookup_agrees_iff (n := 2) (fun _ _ built => built)
    (by decide) plain (by decide) (by decide)).2 _ _ _ element parentWorld change
  exact ⟨r, e, u, ends, agrees.mpr (.inl (find?_known found))⟩

end Exec
end ManagedRuntime
