import ExprFront.Number.Integer
import ExprFront.Number.Quantity
import ExprFront.Text.Quoted

/-!
Scalars: the values that a literal may hold, which are nil, the truth values, whole numbers, doubles
and texts. A scalar is written in two ways. `Scalar.written?` tells every two kinds apart, so that a
text is quoted and a double keeps its point; `Scalar.canonical?` is the bare text of a literal in a
printed tree, in which a double without a fraction is a whole number. A whole number with too many
digits cannot be written at all.
-/

namespace ExprFront

/-- A value that a literal may hold. -/
inductive Scalar where
  | nil
  | truth (b : Bool)
  | int (n : Int)
  | double (x : Double)
  | text (s : String)
  deriving DecidableEq, Repr, Inhabited

namespace Scalar

/-- The name of the kind of a scalar in messages. -/
def kindName : Scalar → String
  | .nil => "NoneType"
  | .truth _ => "bool"
  | .int _ => "int"
  | .double _ => "float"
  | .text _ => "str"

/-- A scalar written so that its kind can be seen. -/
def written? : Scalar → Option String
  | .nil => some "None"
  | .truth b => some (if b then "True" else "False")
  | .int n => Integer.text? n
  | .double x => some x.written
  | .text s => some (Text.quoted s)

/-- A scalar as plain text: as it is written, but a text without its quotes. -/
def plain? : Scalar → Option String
  | .text s => some s
  | s => s.written?

/-- The bare text of a literal in a printed tree. A double is below `2 ^ 1024`, so that it always
has few enough digits. -/
def canonical? : Scalar → Option String
  | .nil => some "nil"
  | .truth b => some (if b then "true" else "false")
  | .int n => Integer.text? n
  | .double x =>
    match x.toInt? with
    | some n => some (toString n)
    | none => some x.written
  | .text s => some s

/-- The number that a scalar counts as; a truth value counts as one or zero. -/
def quantity? : Scalar → Option Quantity
  | .truth b => some (.ofInt b.toNat)
  | .int n => some (.ofInt n)
  | .double x => some (.ofDouble x)
  | .nil => none
  | .text _ => none

/-- Whether two scalars are equal. Numbers are equal when they have the same value, whatever their
kind; what is no number is not even equal to itself. -/
def same : Scalar → Scalar → Bool
  | .nil, .nil => true
  | .text s, .text t => s = t
  | a, b =>
    match a.quantity?, b.quantity? with
    | some x, some y => x.same y
    | _, _ => false

end Scalar

end ExprFront
