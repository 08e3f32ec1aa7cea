import ExprFront.Number.Double

/-!
The fewest decimal digits that name a double. The reals that round to a double form an interval
around it, whose ends belong to it exactly when the mantissa is even. Of the grids of multiples of a
power of ten the coarsest is taken that has a point in the interval; of two such points the nearer
one, and of two equally near ones the even one.
-/

namespace ExprFront

/-- A decimal number `digits * 10 ^ power`. -/
structure Decimal where
  digits : Nat
  power : Int
  deriving DecidableEq, Repr

namespace Decimal

/-- Compares `digits * 10 ^ power` with `units * 2 ^ exponent`. -/
def compareBinary (d : Decimal) (units : Nat) (exponent : Int) : Ordering :=
  compare (d.digits * Nat.pow 10 d.power.toNat * Nat.pow 2 (-exponent).toNat)
    (units * Nat.pow 2 exponent.toNat * Nat.pow 10 (-d.power).toNat)

/-- Whether a decimal number rounds to the double of the given mantissa and exponent. Counted in
quarters of the last place, the interval reaches two quarters up, and two quarters down, or one
where the numbers below lie twice as dense. -/
def roundsTo (d : Decimal) (mantissa : Nat) (exponent : Int) : Bool :=
  let below := if mantissa = Nat.pow 2 52 && Double.minExponent < exponent then 1 else 2
  let low := d.compareBinary (4 * mantissa - below) (exponent - 2)
  let high := d.compareBinary (4 * mantissa + 2) (exponent - 2)
  if mantissa % 2 = 0 then low.isGE && high.isLE else low.isGT && high.isLT

/-- The point at or below `mantissa * 2 ^ exponent` on the grid of multiples of `10 ^ power`. -/
def gridFloor (mantissa : Nat) (exponent power : Int) : Nat :=
  mantissa * Nat.pow 2 exponent.toNat * Nat.pow 10 (-power).toNat
    / (Nat.pow 2 (-exponent).toNat * Nat.pow 10 power.toNat)

/-- Which of a grid point and the next one is chosen, if the interval holds one of them. -/
def onGrid? (mantissa : Nat) (exponent power : Int) : Option Decimal :=
  let floor := gridFloor mantissa exponent power
  let lower : Decimal := ⟨floor, power⟩
  let upper : Decimal := ⟨floor + 1, power⟩
  match lower.roundsTo mantissa exponent, upper.roundsTo mantissa exponent with
  | true, false => some lower
  | false, true => some upper
  | false, false => none
  | true, true =>
    -- the middle between the two, in halves of the grid
    match compareBinary ⟨2 * floor + 1, power⟩ mantissa (exponent + 1) with
    | .gt => some lower
    | .lt => some upper
    | .eq => some (if floor % 2 = 0 then lower else upper)

/-- The coarsest grid with a point in the interval, among `count` grids from `10 ^ power` down. -/
def search (mantissa : Nat) (exponent : Int) : (count : Nat) → (power : Int) → Decimal
  | 0, power => ⟨gridFloor mantissa exponent power, power⟩
  | count + 1, power =>
    match onGrid? mantissa exponent power with
    | some d => d
    | none => search mantissa exponent count (power - 1)

/-- A power of ten that is greater than `mantissa * 2 ^ exponent` by a factor of two at least. -/
def startPower (mantissa : Nat) (exponent : Int) : Int :=
  let bits : Int := mantissa.log2 + 2 + exponent
  if 0 ≤ bits then bits * 31 / 100 + 1 else bits * 30 / 100 + 1

/-- Moves the zeros at the end of the digits into the power; `bound` is the number of digits at
most. -/
def dropZeros : (bound : Nat) → Decimal → Decimal
  | 0, d => d
  | bound + 1, d =>
    if d.digits ≠ 0 && d.digits % 10 = 0 then dropZeros bound ⟨d.digits / 10, d.power + 1⟩ else d

/-- The shortest decimal number that rounds to a positive double. -/
def shortest (mantissa : Nat) (exponent : Int) : Decimal :=
  dropZeros 20 (search mantissa exponent 400 (startPower mantissa exponent))

end Decimal

end ExprFront
