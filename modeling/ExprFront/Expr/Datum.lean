import ExprFront.Expr.Tree
import ExprFront.Text.Blank

/-!
Data: nested lists of atoms. A text is read as a datum by its parentheses and its atoms alone: an
atom has as many characters as there are in a row that are neither blank nor a parenthesis, and
blanks only keep atoms apart. Such data are the shapes of trees, as their prefix form shows them.
-/

namespace ExprFront

/-- An atom or a list of data. -/
inductive Datum where
  | atom (text : String)
  | list (items : List Datum)

namespace Datum

/-! ### Reading -/

/-- Whether a character may stand in an atom. -/
def isAtomic (c : Char) : Bool := !(c = '(' || c = ')' || Text.isBlank c)

/-- What counts in the text of a datum. -/
inductive Symbol where
  | opening
  | closing
  | atom (text : String)
  deriving DecidableEq

/-- The parentheses and the atoms of a text, in order. -/
def symbols : List Char → List Symbol
  | [] => []
  | c :: rest =>
    if c = '(' then .opening :: symbols rest
    else if c = ')' then .closing :: symbols rest
    else if Text.isBlank c then symbols rest
    else .atom (String.ofList (c :: rest.takeWhile isAtomic)) :: symbols (rest.dropWhile isAtomic)
termination_by text => text.length
decreasing_by
  · simp
  · simp
  · simp
  · exact Nat.lt_succ_of_le (List.dropWhile_sublist isAtomic).length_le

/-- Reads symbols with lists open: the items so far of the innermost one, and those of the lists
around it from the inside to the outside. Outside of all lists there has to be one datum in the end.
A list that was not opened cannot be closed, and none may be left open. -/
def collect : (items : List Datum) → (around : List (List Datum)) → List Symbol → Option Datum
  | items, around, .opening :: rest => collect [] (items :: around) rest
  | items, outer :: around, .closing :: rest => collect (outer ++ [.list items]) around rest
  | _, [], .closing :: _ => none
  | items, around, .atom text :: rest => collect (items ++ [.atom text]) around rest
  | [d], [], [] => some d
  | _, _, [] => none

/-- The datum that a text is. -/
def read? (text : String) : Option Datum := collect [] [] (symbols text.toList)

end Datum

/-! ### Shapes of trees -/

/-- The shape of a tree whose literals have texts: an operator heads the list of its operands, and a
parenthesised expression is a list headed by `group`. -/
def Tree.shape? {P : Type} : Tree P Empty → Option Datum
  | .literal value => do
    let text ← value.canonical?
    return .atom text
  | .grouping inner => do
    let shape ← inner.shape?
    return .list [.atom "group", shape]
  | .unary operator operand => do
    let shape ← operand.shape?
    return .list [.atom operator.lexeme, shape]
  | .binary left operator right => do
    let leftShape ← left.shape?
    let rightShape ← right.shape?
    return .list [.atom operator.lexeme, leftShape, rightShape]
  | .bare mark => mark.elim

end ExprFront
