import ExprFront.Number.Double

/-!
Numbers compared by value. Whole numbers and doubles are laid on one line, so that they compare
exactly at any size; what is no number compares with nothing.
-/

namespace ExprFront

/-- A point of the extended number line, or no number. -/
inductive Quantity where
  | nan
  | infinite (negative : Bool)
  /-- The number `units * 2 ^ exponent`. -/
  | finite (units exponent : Int)
  deriving DecidableEq

namespace Quantity

/-- The quantity of a whole number. -/
def ofInt (n : Int) : Quantity := .finite n 0

/-- The quantity of a double. -/
def ofDouble : Double → Quantity
  | .nan => .nan
  | .infinite negative => .infinite negative
  | .finite negative mantissa exponent =>
    .finite (if negative then -mantissa else mantissa) exponent

/-- How two quantities compare, if both are numbers. -/
def compare? : Quantity → Quantity → Option Ordering
  | .nan, _ => none
  | _, .nan => none
  | .infinite a, .infinite b => some (if a = b then .eq else if a then .lt else .gt)
  | .infinite a, .finite .. => some (if a then .lt else .gt)
  | .finite .., .infinite b => some (if b then .gt else .lt)
  | .finite m e, .finite n f =>
    let low := min e f
    some (compare (m * Nat.pow 2 (e - low).toNat) (n * Nat.pow 2 (f - low).toNat))

/-- Whether two quantities are the same number. -/
def same (x y : Quantity) : Bool := x.compare? y == some .eq

/-- Whether a quantity is a number below another. -/
def below (x y : Quantity) : Bool := x.compare? y == some .lt

/-- Whole numbers compare as such. -/
theorem below_ofInt (m n : Int) : (ofInt m).below (ofInt n) = decide (m < n) := by
  have h : (ofInt m).below (ofInt n) = (compare m n == Ordering.lt) := by
    simp [below, compare?, ofInt]
  rw [h, Bool.eq_iff_iff, beq_iff_eq, decide_eq_true_eq, Int.compare_eq_lt]

end Quantity

end ExprFront
