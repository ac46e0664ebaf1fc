/-!
Binary floating-point formats on their bits: the two formats of the managed language, the
decoding of a bit pattern, rounding of integers to nearest with ties to even, and the exact
passage from the narrow format to the wide one.
-/
namespace ManagedRuntime.Binary

abbrev twoTo (n : Nat) : Nat := Nat.pow 2 n

structure Format where
  fractionBits : Nat
  exponentBits : Nat
  deriving DecidableEq, Repr

def single : Format := ⟨23, 8⟩
def double : Format := ⟨52, 11⟩

namespace Format
variable (f : Format)

def bias : Nat := twoTo (f.exponentBits - 1) - 1
def topExponent : Nat := twoTo f.exponentBits - 1
def signBit : Nat := twoTo (f.fractionBits + f.exponentBits)
def fraction (bits : Nat) : Nat := bits % twoTo f.fractionBits
def exponentField (bits : Nat) : Nat := bits / twoTo f.fractionBits % twoTo f.exponentBits
def negative (bits : Nat) : Bool := bits / f.signBit % 2 == 1

def assemble (negative : Bool) (exponent fraction : Nat) : Nat :=
  (if negative then f.signBit else 0) + exponent * twoTo f.fractionBits + fraction

end Format

/-- A finite magnitude `mantissa · 2 ^ exponent`; `narrowBelow` says that the next smaller number
is only half as far away as the next larger one. -/
structure Finite where
  mantissa : Nat
  exponent : Int
  narrowBelow : Bool
  deriving DecidableEq, Repr

inductive Class where
  | finite (magnitude : Finite)
  | infinite
  | nan
  deriving DecidableEq, Repr

def Format.classify (f : Format) (bits : Nat) : Class :=
  let e := f.exponentField bits
  let m := f.fraction bits
  if e = f.topExponent then (if m = 0 then .infinite else .nan)
  else if e = 0 then .finite ⟨m, 1 - (f.bias : Int) - f.fractionBits, false⟩
  else .finite ⟨m + twoTo f.fractionBits, (e : Int) - f.bias - f.fractionBits, m = 0⟩

def shiftRoundEven (n k : Nat) : Nat :=
  let unit := twoTo k
  let q := n / unit
  let r := n % unit
  if 2 * r > unit ∨ (2 * r = unit ∧ q % 2 = 1) then q + 1 else q

/-- Bits of the number of format `f` nearest to the integer `i`, ties to even. A carry out of the
fraction runs into the exponent field, which is the next power of two. -/
def Format.ofInt (f : Format) (i : Int) : Nat :=
  let n := i.natAbs
  if n = 0 then 0
  else
    let e := Nat.log2 n
    let significand :=
      if e ≤ f.fractionBits then n * twoTo (f.fractionBits - e)
      else shiftRoundEven n (e - f.fractionBits)
    (if i < 0 then f.signBit else 0) + (e + f.bias) * twoTo f.fractionBits
      + (significand - twoTo f.fractionBits)

/-- Exact double-precision bits of single-precision bits. A NaN keeps its sign and the top of its
payload and becomes quiet. -/
def widenSingle (bits : Nat) : Nat :=
  let negative := single.negative bits
  let e := single.exponentField bits
  let m := single.fraction bits
  if e = single.topExponent then
    double.assemble negative double.topExponent
      (if m = 0 then 0 else twoTo 51 + m % twoTo 22 * twoTo 29)
  else if e = 0 then
    if m = 0 then double.assemble negative 0 0
    else
      let top := Nat.log2 m
      double.assemble negative (top + 1 + double.bias - single.bias - 23)
        ((m - twoTo top) * twoTo (52 - top))
  else double.assemble negative (e + double.bias - single.bias) (m * twoTo 29)

end ManagedRuntime.Binary
