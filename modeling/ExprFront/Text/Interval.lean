/-!
Sets of code points as increasing lists of closed intervals.
-/

namespace ExprFront.Text

/-- Whether a code point lies in one of the intervals of an increasing list. -/
def within : List (Nat × Nat) → Nat → Bool
  | [], _ => false
  | (first, last) :: rest, n => first ≤ n && (n ≤ last || within rest n)

end ExprFront.Text
