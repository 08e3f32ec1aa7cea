/-!
Binary floating point numbers of 64 bits. A finite number is a mantissa below `2 ^ 53` times a power
of two; the exponent is at least `-1074`, and the mantissa is at least `2 ^ 52` unless the exponent
is `-1074`. `Double.nearest` rounds a quotient of natural numbers to such a number, a tie going to
the even mantissa.
-/

namespace ExprFront

/-- A number `± mantissa * 2 ^ exponent`, an infinity, or no number at all. -/
inductive Double where
  | nan
  | infinite (negative : Bool)
  | finite (negative : Bool) (mantissa : Nat) (exponent : Int)
  deriving DecidableEq, Repr, Inhabited

namespace Double

/-- The least exponent of a finite number. -/
def minExponent : Int := -1074

/-- The greatest exponent of a finite number. -/
def maxExponent : Int := 971

/-- The quotient of two numbers, rounded to the nearest number, a tie to the even one. -/
def roundToEven (num den : Nat) : Nat :=
  let whole := num / den
  let twice := 2 * (num % den)
  if twice < den then whole
  else if den < twice then whole + 1
  else whole + whole % 2

/-- The quotient `num / den` divided by `2 ^ exponent`, as a quotient of natural numbers. -/
def scaled (num den : Nat) (exponent : Int) : Nat × Nat :=
  (num * Nat.pow 2 (-exponent).toNat, den * Nat.pow 2 exponent.toNat)

/-- The exponent at which a positive quotient has its mantissa. -/
def exponentOf (num den : Nat) : Int :=
  let exponent := max minExponent ((num.log2 : Int) - den.log2 - 53)
  let (n, d) := scaled num den exponent
  if n / d < Nat.pow 2 53 then exponent else exponent + 1

/-- The double nearest to `num / den`. -/
def nearest (negative : Bool) (num den : Nat) : Double :=
  if num = 0 then .finite negative 0 minExponent
  else
    let exponent := exponentOf num den
    let (n, d) := scaled num den exponent
    let mantissa := roundToEven n d
    let (mantissa, exponent) :=
      if mantissa = Nat.pow 2 53 then (Nat.pow 2 52, exponent + 1) else (mantissa, exponent)
    if maxExponent < exponent then .infinite negative else .finite negative mantissa exponent

/-- The double nearest to `digits * 10 ^ power`. -/
def ofDecimal (negative : Bool) (digits : Nat) (power : Int) : Double :=
  nearest negative (digits * Nat.pow 10 power.toNat) (Nat.pow 10 (-power).toNat)

/-- The whole number that a double is, if it is one. -/
def toInt? : Double → Option Int
  | .finite negative mantissa exponent =>
    let den := Nat.pow 2 (-exponent).toNat
    if mantissa % den = 0 then
      let whole : Int := (mantissa * Nat.pow 2 exponent.toNat / den : Nat)
      some (if negative then -whole else whole)
    else none
  | _ => none

end Double

end ExprFront
