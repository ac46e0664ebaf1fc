/-!
Sets of code points as ascending closed ranges that do not touch. A lookup stops at the first range
that begins beyond the code point.
-/
namespace ManagedRuntime.Text

def covers : List (Nat × Nat) → Nat → Bool
  | [], _ => false
  | r :: rs, n => r.1 ≤ n && (n ≤ r.2 || covers rs n)

end ManagedRuntime.Text
