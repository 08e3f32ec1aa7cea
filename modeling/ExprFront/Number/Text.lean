import ExprFront.Number.Shortest
import ExprFront.Text.DecimalDigit

/-!
Doubles as text. A double is written with its shortest digits: positionally between `10 ^ -4` and
`10 ^ 16`, then with at least one digit after the point, and by a digit, a fraction and a power of
ten of at least two digits elsewhere.
-/

namespace ExprFront

/-- The decimal digits of a number. -/
def decimalDigits (n : Nat) : List Char := Nat.toDigits 10 n

/-- The value of a list of decimal digits. -/
def ofDigits (cs : List Char) : Nat := cs.foldl (fun n c => 10 * n + (c.toNat - '0'.toNat)) 0

namespace Double

/-- The least power of ten that is written positionally. -/
def positionalFrom : Int := -4

/-- The least power of ten beyond the positional ones. -/
def positionalBelow : Int := 16

/-- The least number of digits of a written power of ten. -/
def powerWidth : Nat := 2

/-- Digits `d₁d₂…` with the point after the first `point` of them. -/
def positional (digits : List Char) (point : Int) : List Char :=
  if point ≤ 0 then '0' :: '.' :: (List.replicate (-point).toNat '0' ++ digits)
  else
    let before := digits.take point.toNat
    let zeros := List.replicate (point.toNat - digits.length) '0'
    let after := digits.drop point.toNat
    before ++ zeros ++ '.' :: (if after.isEmpty then ['0'] else after)

/-- Digits `d₁d₂…` as `d₁.d₂…` times a power of ten. -/
def scientific (digits : List Char) (power : Int) : List Char :=
  let fraction := digits.drop 1
  let size := decimalDigits power.natAbs
  digits.take 1 ++ (if fraction.isEmpty then [] else '.' :: fraction)
    ++ 'e' :: (if power < 0 then '-' else '+')
    :: (List.replicate (powerWidth - size.length) '0' ++ size)

/-- A positive number by its digits. -/
def layout (d : Decimal) : List Char :=
  let digits := decimalDigits d.digits
  let power := d.power + digits.length - 1
  if positionalFrom ≤ power && power < positionalBelow then positional digits (power + 1)
  else scientific digits power

/-- A double as text. -/
def written : Double → String
  | .nan => "nan"
  | .infinite negative => if negative then "-inf" else "inf"
  | .finite negative mantissa exponent =>
    let sign := if negative then ['-'] else []
    String.ofList <|
      sign ++ if mantissa = 0 then ['0', '.', '0'] else layout (Decimal.shortest mantissa exponent)

/-- The double that is nearest to a number written in decimal digits with an optional point. -/
def ofPlainDigits (cs : List Char) : Double :=
  let whole := cs.takeWhile (· ≠ '.')
  let fraction := (cs.dropWhile (· ≠ '.')).drop 1
  ofDecimal false (ofDigits (whole ++ fraction)) (-(fraction.length : Int))

/-- A whole number with an optional sign. -/
def signed? (cs : List Char) : Option Int :=
  let (negative, digits) :=
    match cs with
    | '-' :: rest => (true, rest)
    | '+' :: rest => (false, rest)
    | _ => (false, cs)
  if digits.isEmpty || !digits.all Text.isAsciiDigit then none
  else some (if negative then -(ofDigits digits : Int) else ofDigits digits)

/-- A nonnegative number in digits, with an optional point and an optional power of ten. -/
def ofDigitText? (negative : Bool) (cs : List Char) : Option Double :=
  let main := cs.takeWhile (· ≠ 'e')
  let whole := main.takeWhile (· ≠ '.')
  let fraction := (main.dropWhile (· ≠ '.')).drop 1
  let digits := whole ++ fraction
  if digits.isEmpty || !digits.all Text.isAsciiDigit then none
  else
    match cs.dropWhile (· ≠ 'e') with
    | [] => some (ofDecimal negative (ofDigits digits) (-(fraction.length : Int)))
    | _ :: power =>
      (signed? power).map fun p => ofDecimal negative (ofDigits digits) (p - fraction.length)

/-- Reads a double from its text. -/
def ofText? (s : String) : Option Double :=
  let (negative, cs) :=
    match s.toList with
    | '-' :: rest => (true, rest)
    | cs => (false, cs)
  if cs = ['n', 'a', 'n'] then some .nan
  else if cs = ['i', 'n', 'f'] then some (.infinite negative)
  else ofDigitText? negative cs

end Double

end ExprFront
