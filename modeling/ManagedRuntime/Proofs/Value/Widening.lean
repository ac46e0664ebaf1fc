import Mathlib.Algebra.Ring.Int.Defs
import ManagedRuntime.Value.Widening

/-!
What widening does to values. Between types of whole numbers it is allowed exactly where the range of
the one lies in the range of the other, so no number is lost. Main statement: widening gives a value
exactly where it is allowed, of the type that was asked for and with the number that it had, and
widening by way of a type of whole numbers is widening at once.
-/
namespace ManagedRuntime

namespace Primitive
variable {p q t : Primitive}

def range? : Primitive → Option (Int × Int)
  | byte => some (-2 ^ 7, 2 ^ 7 - 1)
  | char => some (0, 2 ^ 16 - 1)
  | short => some (-2 ^ 15, 2 ^ 15 - 1)
  | int => some (-2 ^ 31, 2 ^ 31 - 1)
  | long => some (-2 ^ 63, 2 ^ 63 - 1)
  | boolean | float | double | void => none

def isIntegral (p : Primitive) : Bool := p.range?.isSome

def Holds (p : Primitive) (n : Int) : Prop := ∃ r, p.range? = some r ∧ r.1 ≤ n ∧ n ≤ r.2

theorem widensTo_self_iff : p.widensTo p ↔ p ≠ void := by
  cases p <;> decide

theorem widensTo_trans (first : p.widensTo q) (second : q.widensTo t) : p.widensTo t := by
  revert first second
  cases p <;> cases q <;> cases t <;> decide

theorem widensTo_antisymm (up : p.widensTo q) (down : q.widensTo p) : p = q := by
  revert up down
  cases p <;> cases q <;> decide

/-- Between types of whole numbers the order is that of the ranges. -/
theorem widensTo_iff_range {r s : Int × Int} (first : p.range? = some r)
    (second : q.range? = some s) : p.widensTo q ↔ s.1 ≤ r.1 ∧ r.2 ≤ s.2 := by
  cases p <;> cases first <;> cases q <;> cases second <;> decide

theorem Holds.widened {n : Int} (holds : p.Holds n) (wider : p.widensTo q) (whole : q.isIntegral) :
    q.Holds n := by
  obtain ⟨r, range, least, greatest⟩ := holds
  obtain ⟨s, range'⟩ := Option.isSome_iff_exists.mp whole
  obtain ⟨below, above⟩ := (widensTo_iff_range range range').mp wider
  exact ⟨s, range', Int.le_trans below least, Int.le_trans greatest above⟩

theorem mem_of_widensTo (wider : p.widensTo q) (other : p ≠ q) :
    q ∈ [short, int, long, float, double] := by
  revert wider other
  cases p <;> cases q <;> decide

theorem isIntegral_of_widensTo (wider : p.widensTo q) (whole : q.isIntegral) : p.isIntegral := by
  revert wider whole
  cases p <;> cases q <;> decide

end Primitive

namespace Value
variable {v x : Value} {p q t : Primitive} {n : Int}

theorem exists_integer (type : v.primitive? = some p) (whole : p.isIntegral) :
    ∃ n, v.integer? = some n ∧ p.Holds n := by
  cases v with
  | byte a => cases type; exact ⟨_, rfl, _, rfl, a.le_toInt, Int.le_sub_one_of_lt a.toInt_lt⟩
  | char a =>
    cases type
    have below := a.toNat_lt
    exact ⟨_, rfl, _, rfl, by omega, by simp only; omega⟩
  | short a => cases type; exact ⟨_, rfl, _, rfl, a.le_toInt, Int.le_sub_one_of_lt a.toInt_lt⟩
  | int a => cases type; exact ⟨_, rfl, _, rfl, a.le_toInt, Int.le_sub_one_of_lt a.toInt_lt⟩
  | long a => cases type; exact ⟨_, rfl, _, rfl, a.le_toInt, Int.le_sub_one_of_lt a.toInt_lt⟩
  | boolean | float | double => cases type; cases whole
  | ref => cases type

theorem exists_ofInteger (n : Int) (wider : p.widensTo t) (other : p ≠ t) :
    ∃ x, ofInteger n t = some x := by
  have taken := Primitive.mem_of_widensTo wider other
  cases t with
  | void | boolean | byte | char => simp at taken
  | short | int | long | float | double => exact ⟨_, rfl⟩

theorem primitive?_ofInteger (made : ofInteger n p = some x) : x.primitive? = some p := by
  cases p with
  | void | boolean | byte | char => cases made
  | short | int | long | float | double =>
    cases made
    rfl

theorem integer?_ofInteger (made : ofInteger n p = some x) (holds : p.Holds n) :
    x.integer? = some n := by
  obtain ⟨r, range, least, greatest⟩ := holds
  cases p with
  | void | boolean | byte | char => cases made
  | float | double => cases range
  | short =>
    cases made; cases range
    exact congrArg some (Int16.toInt_ofInt_of_le least (Int.lt_of_le_sub_one greatest))
  | int =>
    cases made; cases range
    exact congrArg some (Int32.toInt_ofInt_of_le least (Int.lt_of_le_sub_one greatest))
  | long =>
    cases made; cases range
    exact congrArg some (Int64.toInt_ofInt_of_le least (Int.lt_of_le_sub_one greatest))

theorem ne_void (type : v.primitive? = some p) : p ≠ .void := by
  cases v <;> cases type <;> nofun

theorem widen_self (type : v.primitive? = some p) : v.widen p = some v := by
  unfold widen
  rw [type]
  exact if_pos rfl

/-- To another type a whole number goes as the number that it is. -/
theorem widen_eq_ofInteger (type : v.primitive? = some p) (number : v.integer? = some n)
    (other : p ≠ q) (wider : p.widensTo q) : v.widen q = ofInteger n q := by
  unfold widen
  rw [type]
  dsimp only
  rw [if_neg other, if_pos wider]
  split
  · cases number
  · rw [number]
    rfl

theorem widensTo_of_widen (widened : v.widen t = some x) :
    ∃ p, v.primitive? = some p ∧ p.widensTo t := by
  unfold widen at widened
  split at widened
  · cases widened
  · rename_i p type
    refine ⟨p, type, ?_⟩
    split at widened
    · rename_i same
      exact same ▸ Primitive.widensTo_self_iff.mpr (ne_void type)
    · split at widened
      · assumption
      · cases widened

theorem exists_widen (type : v.primitive? = some p) (wider : p.widensTo t) :
    ∃ x, v.widen t = some x := by
  by_cases same : p = t
  · exact ⟨v, same ▸ widen_self type⟩
  have kinds : p.isIntegral ∨ p = .float ∧ t = .double := by
    revert wider same
    cases p <;> cases t <;> decide
  rcases kinds with whole | ⟨rfl, rfl⟩
  · obtain ⟨n, number, -⟩ := exists_integer type whole
    rw [widen_eq_ofInteger type number same wider]
    exact exists_ofInteger n wider same
  · cases v <;> cases type
    exact ⟨_, rfl⟩

theorem widen_isSome_iff : (v.widen t).isSome ↔ ∃ p, v.primitive? = some p ∧ p.widensTo t := by
  rw [Option.isSome_iff_exists]
  constructor
  · rintro ⟨x, widened⟩
    exact widensTo_of_widen widened
  · rintro ⟨p, type, wider⟩
    exact exists_widen type wider

theorem primitive?_widen (widened : v.widen p = some x) : x.primitive? = some p := by
  obtain ⟨q, type, wider⟩ := widensTo_of_widen widened
  by_cases same : q = p
  · subst same
    cases (widen_self type).symm.trans widened
    exact type
  unfold widen at widened
  rw [type] at widened
  dsimp only at widened
  rw [if_neg same, if_pos wider] at widened
  split at widened
  · cases type
    cases widened
    cases p with
    | double => rfl
    | float => exact absurd rfl same
    | _ => cases wider
  · obtain ⟨n, -, made⟩ := Option.bind_eq_some_iff.mp widened
    exact primitive?_ofInteger made

theorem integer?_widen (widened : v.widen t = some x) (whole : t.isIntegral) :
    ∃ n, v.integer? = some n ∧ x.integer? = some n := by
  obtain ⟨p, type, wider⟩ := widensTo_of_widen widened
  obtain ⟨n, number, holds⟩ := exists_integer type (Primitive.isIntegral_of_widensTo wider whole)
  refine ⟨n, number, ?_⟩
  by_cases same : p = t
  · subst same
    cases (widen_self type).symm.trans widened
    exact number
  · rw [widen_eq_ofInteger type number same wider] at widened
    exact integer?_ofInteger widened (holds.widened wider whole)

/-- A type of whole numbers on the way makes no difference. -/
theorem widen_widen (type : v.primitive? = some p) (whole : q.isIntegral) (first : p.widensTo q)
    (second : q.widensTo t) : (v.widen q).bind (·.widen t) = v.widen t := by
  by_cases stays : p = q
  · subst stays
    rw [widen_self type, Option.bind_some]
  obtain ⟨x, widened⟩ := exists_widen type first
  rw [widened, Option.bind_some]
  have type' := primitive?_widen widened
  by_cases arrived : q = t
  · subst arrived
    rw [widen_self type', widened]
  -- neither step stays where it is, so the two together do not come back
  have other : p ≠ t := by
    rintro rfl
    exact stays (Primitive.widensTo_antisymm first second)
  obtain ⟨n, number, number'⟩ := integer?_widen widened whole
  rw [widen_eq_ofInteger type' number' arrived second,
    widen_eq_ofInteger type number other (Primitive.widensTo_trans first second)]

/-- Widening to short, int and long keeps numbers, and a type of whole numbers on the way to any type
makes no difference. -/
theorem widening_keeps_values (v : Value) :
    (∀ t, (v.widen t).isSome ↔ ∃ p, v.primitive? = some p ∧ p.widensTo t) ∧
      (∀ t x, v.widen t = some x → x.primitive? = some t ∧ (v.primitive? = some t → x = v) ∧
        (t ∈ [.short, .int, .long] → ∃ n, v.integer? = some n ∧ x.integer? = some n)) ∧
      ∀ p a b, v.primitive? = some p → a.isIntegral → p.widensTo a → a.widensTo b →
        (v.widen a).bind (·.widen b) = v.widen b := by
  refine ⟨fun t => widen_isSome_iff, fun t x widened => ⟨primitive?_widen widened, ?_, ?_⟩,
    fun p a b => widen_widen⟩
  · intro type
    exact Option.some.inj (widened.symm.trans (widen_self type))
  · intro whole
    refine integer?_widen widened ?_
    simp only [List.mem_cons, List.not_mem_nil, or_false] at whole
    rcases whole with rfl | rfl | rfl <;> rfl

/-- The greatest character is no short. As an int it is still positive, and on to a double. -/
theorem greatest_char_widened :
    ((char 65535).widen .short).isSome = false ∧
      (∃ n, (char 65535).integer? = some n ∧ (int 65535).integer? = some n) ∧
      ((char 65535).widen .int).bind (·.widen .double) = (char 65535).widen .double := by
  obtain ⟨allowed, kept, twice⟩ := widening_keeps_values (char 65535)
  refine ⟨?_, (kept .int (int 65535) (by decide)).2.2 (by decide), ?_⟩
  · rw [Bool.eq_false_iff, ne_eq, allowed .short]
    rintro ⟨p, type, wider⟩
    cases type
    cases wider
  · exact twice .char .int .double rfl rfl rfl rfl

end Value
end ManagedRuntime
