/-!
Hexadecimal text of natural numbers: lower-case digits, no leading zeros, and `0` for zero.
-/
namespace ManagedRuntime.Text

def hexDigit (n : Nat) : Char :=
  if n < 10 then Char.ofNat (48 + n) else Char.ofNat (87 + n)

/-- Digits of `n` in base 16, least significant last; `fuel` bounds their number. -/
def hexDigits : Nat → Nat → List Char → List Char
  | 0, _, acc => acc
  | fuel + 1, n, acc =>
    if n < 16 then hexDigit n :: acc else hexDigits fuel (n / 16) (hexDigit (n % 16) :: acc)

def hex (n : Nat) : String := String.ofList (hexDigits (n + 1) n [])

def hexPadded : Nat → Nat → List Char
  | 0, _ => []
  | width + 1, n => hexPadded width (n / 16) ++ [hexDigit (n % 16)]

end ManagedRuntime.Text
