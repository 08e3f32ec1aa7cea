import ExprFront.Scalar
import ExprFront.Token.Basic

/-!
Expression trees. A node is a literal, a parenthesised expression, a unary or a binary operator with
its operands, or a bare expression, of which nothing is known but a mark of type `H`. Over an empty
type of marks there are no bare expressions, and listing a tree cannot fail. Printing can still fail
at a number with too many digits, or where the stack of the printer is full.

How many levels of nesting the stack of the printer holds is left open: `Tree.printIn` takes their
number, and `Tree.print?` is the printer with as much room as it takes.
-/

namespace ExprFront

/-- The room on the stack one level further down, or an error where there is none. Where the room is
not counted, there always is some. -/
def roomBelow {ε : Type} (full : ε) : Option Nat → Except ε (Option Nat)
  | none => .ok none
  | some 0 => .error full
  | some (levels + 1) => .ok (some levels)

/-- An expression tree over tokens with payloads in `P`, with bare expressions marked by `H`. -/
inductive Tree (P H : Type) where
  | literal (value : Scalar)
  | grouping (inner : Tree P H)
  | unary (operator : TokenOf P) (operand : Tree P H)
  | binary (left : Tree P H) (operator : TokenOf P) (right : Tree P H)
  | bare (mark : H)

namespace Tree

variable {P H : Type}

/-- The name of the kind of a node. -/
def kindName : Tree P H → String
  | .literal _ => "Literal"
  | .grouping _ => "Grouping"
  | .unary .. => "Unary"
  | .binary .. => "Binary"
  | .bare _ => "Expression"

/-- The names of the kinds of nodes whose operands are known. -/
def kindNames : List String := ["Literal", "Unary", "Binary", "Grouping"]

/-- The operands of a node from left to right; of a bare expression they are not known. -/
def children : Tree P H → Except H (List (Tree P H))
  | .literal _ => .ok []
  | .grouping inner => .ok [inner]
  | .unary _ operand => .ok [operand]
  | .binary left _ right => .ok [left, right]
  | .bare mark => .error mark

/-! ### Printing in prefix form -/

/-- A name and texts in parentheses, each text after a single space. -/
def parenthesized (name : String) (parts : List String) : String :=
  "(" ++ name ++ String.join (parts.map (" " ++ ·)) ++ ")"

/-- Why a tree is not printed. -/
inductive Unprinted (H : Type) where
  /-- A bare expression has no printed form. -/
  | bare (mark : H)
  /-- A number has too many digits. -/
  | tooManyDigits
  /-- The stack has no room for a level of nesting. -/
  | stackFull
  deriving DecidableEq

/-- A tree in prefix form: an operator stands before its operands, in parentheses, and a
parenthesised expression is a list headed by `group`. A bare expression has no printed form. There
is room on the stack for a number of levels, or for all that it takes. -/
def printIn : (room : Option Nat) → Tree P H → Except (Unprinted H) String
  | _, .literal value =>
    match value.canonical? with
    | some text => .ok text
    | none => .error .tooManyDigits
  | room, .grouping inner => do
    let room ← roomBelow .stackFull room
    let text ← inner.printIn room
    return parenthesized "group" [text]
  | room, .unary operator operand => do
    let room ← roomBelow .stackFull room
    let text ← operand.printIn room
    return parenthesized operator.lexeme [text]
  | room, .binary left operator right => do
    let room ← roomBelow .stackFull room
    let leftText ← left.printIn room
    let rightText ← right.printIn room
    return parenthesized operator.lexeme [leftText, rightText]
  | _, .bare mark => .error (.bare mark)

/-- A tree in prefix form, with all the room that it takes. -/
def print? (tree : Tree P H) : Except (Unprinted H) String := tree.printIn none

/-! ### Listing in preorder -/

/-- A node without its operands. -/
inductive Label (P : Type) where
  | literal (value : Scalar)
  | grouping
  | unary (operator : TokenOf P)
  | binary (operator : TokenOf P)

/-- The nodes of a tree, each before its operands. A bare expression cannot be listed, because its
operands are not known. -/
def preorder? : Tree P H → Except H (List (Label P))
  | .literal value => .ok [.literal value]
  | .grouping inner => do
    let labels ← inner.preorder?
    return .grouping :: labels
  | .unary operator operand => do
    let labels ← operand.preorder?
    return .unary operator :: labels
  | .binary left operator right => do
    let leftLabels ← left.preorder?
    let rightLabels ← right.preorder?
    return .binary operator :: (leftLabels ++ rightLabels)
  | .bare mark => .error mark

/-! ### Trees without bare expressions -/

/-- A result that no mark can prevent. -/
def certain {α : Type} : Except Empty α → α
  | .ok a => a
  | .error mark => mark.elim

/-- The nodes of a tree without bare expressions, each before its operands. -/
def preorder (tree : Tree P Empty) : List (Label P) := certain tree.preorder?

/-- The same tree where bare expressions are allowed. -/
def weaken : Tree P Empty → Tree P H
  | .literal value => .literal value
  | .grouping inner => .grouping inner.weaken
  | .unary operator operand => .unary operator operand.weaken
  | .binary left operator right => .binary left.weaken operator right.weaken

end Tree

end ExprFront
