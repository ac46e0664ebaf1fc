import ManagedRuntime.Binary.Format

/-!
Shortest decimal text of a binary floating-point number: the fewest digits that read back to the
same number, of those the nearest, and of two equally near the larger. The numbers that read back
form an interval, closed iff the mantissa is even.
-/
namespace ManagedRuntime.Decimal

abbrev tenTo (n : Nat) : Nat := Nat.pow 10 n

/-- Exact positive rationals `value`, `low` and `high` over one denominator. -/
structure Interval where
  value : Nat
  low : Nat
  high : Nat
  denominator : Nat
  closed : Bool
  deriving DecidableEq, Repr

/-- The numbers that round to `x`: half way to either neighbour. -/
def Interval.of (x : Binary.Finite) : Interval :=
  let v := 4 * x.mantissa
  let low := v - (if x.narrowBelow then 1 else 2)
  let shift := x.exponent - 2
  let up := Binary.twoTo shift.toNat
  ⟨v * up, low * up, (v + 2) * up, Binary.twoTo (-shift).toNat, x.mantissa % 2 = 0⟩

def Interval.contains (i : Interval) (t : Nat) (k : Int) : Bool :=
  let x := t * tenTo k.toNat * i.denominator
  let scale := tenTo (-k).toNat
  if i.closed then i.low * scale ≤ x ∧ x ≤ i.high * scale
  else i.low * scale < x ∧ x < i.high * scale

/-- The multiple of `10 ^ k` just below the value, in units of `10 ^ k`. -/
def Interval.gridBelow (i : Interval) (k : Int) : Nat :=
  i.value * tenTo (-k).toNat / (i.denominator * tenTo k.toNat)

/-- Is the value at least as far from `t · 10 ^ k` as from `(t + 1) · 10 ^ k`? -/
def Interval.upperNearer (i : Interval) (t : Nat) (k : Int) : Bool :=
  (2 * t + 1) * tenTo k.toNat * i.denominator ≤ 2 * i.value * tenTo (-k).toNat

/-- The point of the grid `10 ^ k` next to the value that lies in the interval. -/
def Interval.onGrid? (i : Interval) (k : Int) : Option Nat :=
  let t := i.gridBelow k
  match i.contains t k, i.contains (t + 1) k with
  | true, true => some (if i.upperNearer t k then t + 1 else t)
  | true, false => some t
  | false, true => some (t + 1)
  | false, false => none

/-- Least `e` with `value < 10 ^ e`, searched upward from `e`. -/
def Interval.magnitude (i : Interval) : Nat → Int → Int
  | 0, e => e
  | fuel + 1, e =>
    if i.value * tenTo (-e).toNat < i.denominator * tenTo e.toNat then e
    else i.magnitude fuel (e + 1)

/-- The first grid from `10 ^ k` down with a point in the interval. -/
def Interval.search (i : Interval) : Nat → Int → Nat × Int
  | 0, k => (i.gridBelow k, k)
  | fuel + 1, k =>
    match i.onGrid? k with
    | some t => (t, k)
    | none => i.search fuel (k - 1)

def stripZeros : Nat → Nat → Int → Nat × Int
  | 0, t, k => (t, k)
  | fuel + 1, t, k => if t ≠ 0 ∧ t % 10 = 0 then stripZeros fuel (t / 10) (k + 1) else (t, k)

/-- Digits `t` and exponent `k` of the shortest decimal `t · 10 ^ k` for a magnitude. -/
def shortest (x : Binary.Finite) : Nat × Int :=
  if x.mantissa = 0 then (0, 0)
  else
    let i := Interval.of x
    let e := i.magnitude 700 (-330)
    let found := i.search 20 (e - 1)
    stripZeros 20 found.1 found.2

/-- Positional text of `t · 10 ^ k`: no exponent, and no point in a whole number. -/
def positional (t : Nat) (k : Int) : String :=
  let digits := (toString t).toList
  if 0 ≤ k then String.ofList (digits ++ List.replicate k.toNat '0')
  else
    let places := (-k).toNat
    let padded := List.replicate (places + 1 - digits.length) '0' ++ digits
    let whole := padded.length - places
    String.ofList (padded.take whole ++ '.' :: padded.drop whole)

def text (f : Binary.Format) (bits : Nat) : String :=
  let sign := if f.negative bits then "-" else ""
  match f.classify bits with
  | .nan => "NaN"
  | .infinite => sign ++ "inf"
  | .finite x => sign ++ positional (shortest x).1 (shortest x).2

end ManagedRuntime.Decimal
