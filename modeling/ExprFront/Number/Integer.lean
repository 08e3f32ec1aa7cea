import ExprFront.Number.Text
import ExprFront.Text.Blank

/-!
Whole numbers as text. People write them in decimal digits of any script, with single underscores
between digits, a sign before them and blanks around them. They are written in plain decimal digits.
Numbers with too many digits are neither read nor written.
-/

namespace ExprFront

namespace Integer

/-- The most digits that are read or written. -/
def maxDigits : Nat := 4300

/-! ### Writing -/

/-- The least number that has too many digits to be written. -/
@[irreducible]
def textBound : Nat := Nat.pow 10 maxDigits

/-- A whole number in decimal digits, unless it has too many of them. -/
def text? (n : Int) : Option String := if n.natAbs < textBound then some (toString n) else none

/-- The words for a number that has too many digits to be written. -/
def tooLong : String :=
  "Exceeds the limit (" ++ toString maxDigits ++ " digits) for integer string conversion; "
    ++ "use sys.set_int_max_str_digits() to increase the limit"

/-! ### Reading -/

/-- Whether a blank may stand around a number. The information separators of the control block may
not. -/
def isMargin (c : Char) : Bool := Text.isBlank c && !(0x1C ≤ c.toNat && c.toNat ≤ 0x1F)

/-- The digits of a number after its first one. -/
def moreDigits? : List Char → Option (List Nat)
  | [] => some []
  | '_' :: c :: rest => do
    let d ← Text.digitValue? c
    let ds ← moreDigits? rest
    return d :: ds
  | c :: rest => do
    let d ← Text.digitValue? c
    let ds ← moreDigits? rest
    return d :: ds

/-- The digits of a number. -/
def digits? : List Char → Option (List Nat)
  | [] => none
  | c :: rest => do
    let d ← Text.digitValue? c
    let ds ← moreDigits? rest
    if ds.length < maxDigits then return d :: ds else none

/-- A list of characters without the blanks around it. -/
def trim (cs : List Char) : List Char :=
  ((cs.dropWhile isMargin).reverse.dropWhile isMargin).reverse

/-- Reads a whole number. -/
def ofText? (s : String) : Option Int :=
  let (negative, digits) :=
    match trim s.toList with
    | '-' :: rest => (true, rest)
    | '+' :: rest => (false, rest)
    | cs => (false, cs)
  (digits? digits).map fun ds =>
    let n : Int := (ds.foldl (fun n d => 10 * n + d) 0 : Nat)
    if negative then -n else n

end Integer

end ExprFront
