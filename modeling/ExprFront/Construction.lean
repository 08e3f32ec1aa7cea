import ExprFront.Value

/-!
Building values. A construction is a request to build a value; its arguments are built first, from
left to right. The parts of a node are checked when the node is built: a literal holds a scalar, an
operand is an expression and an operator is a token of a fitting type.
-/

namespace ExprFront

/-- A request to build a value. -/
inductive Construction where
  | scalar (s : Scalar)
  | list (items : List Construction)
  | table (entries : List (Scalar × Construction))
  | token (type : TokenType) (lexeme : String) (payload : Construction) (line : Int)
  | literal (value : Construction)
  | grouping (inner : Construction)
  | unary (operator operand : Construction)
  | binary (left operator right : Construction)
  | bare
  deriving Inhabited

/-- The places in which a node holds an expression. -/
inductive OperandPlace where
  | groupingInner
  | unaryOperand
  | binaryLeft
  | binaryRight
  deriving DecidableEq

/-- The kinds of node that hold an operator. -/
inductive Arity where
  | unary
  | binary
  deriving DecidableEq

/-- Why a node cannot be built. -/
inductive BuildError where
  | literalHolds (value : Value)
  | notExpression (place : OperandPlace) (value : Value)
  | operatorRefused (arity : Arity) (operator : Value)

namespace BuildError

/-- The name of a place. -/
def placeName : OperandPlace → String
  | .groupingInner => "Grouping.inner"
  | .unaryOperand => "Unary.operand"
  | .binaryLeft => "Binary.left"
  | .binaryRight => "Binary.right"

/-- The name of a kind of node. -/
def arityName : Arity → String
  | .unary => "Unary"
  | .binary => "Binary"

/-- The words for a refused payload of a literal. -/
def literalMessage (kindName : String) : String := "Literal cannot hold " ++ kindName

/-- The words for a node that cannot be built, in which a refused operator is written. There is room
on the stack for a number of levels, or for all that it takes. -/
def messageIn (room : Option Nat) : BuildError → Except Unwritten String
  | .literalHolds value => .ok (literalMessage value.kindName)
  | .notExpression place value =>
    .ok (placeName place ++ " must be an Expression, got " ++ value.kindName)
  | .operatorRefused arity operator => do
    let text ← operator.writtenIn room
    return arityName arity ++ " cannot use operator " ++ text

/-- The words for a node that cannot be built. If an operator cannot be written, they are the words
for this. -/
def message (e : BuildError) : String :=
  match e.messageIn none with
  | .ok text => text
  | .error _ => Integer.tooLong

end BuildError

namespace Arity

/-- Whether a node takes operators of a type. -/
def accepts : Arity → TokenType → Bool
  | .unary => TokenType.isUnary
  | .binary => TokenType.isBinary

end Arity

namespace Construction

/-- A value as the operand in a place. -/
def asOperand (place : OperandPlace) : Value → Except BuildError OpenExpr
  | .expression e => .ok e
  | v => .error (.notExpression place v)

/-- A value as the operator of a node. -/
def asOperator (arity : Arity) : Value → Except BuildError Token
  | .token t =>
    if arity.accepts t.type then .ok t else .error (.operatorRefused arity (.token t))
  | v => .error (.operatorRefused arity v)

/-- The literal with a value, which has to be a scalar. -/
def literalNode : Value → Except BuildError Value
  | .scalar s => .ok (.expression (.literal s))
  | v => .error (.literalHolds v)

/-- The grouping of a value, which has to be an expression. -/
def groupingNode (inner : Value) : Except BuildError Value := do
  let inner ← asOperand .groupingInner inner
  return .expression (.grouping inner)

/-- The node of a unary operator. The operator is checked before the operand. -/
def unaryNode (operator operand : Value) : Except BuildError Value := do
  let operator ← asOperator .unary operator
  let operand ← asOperand .unaryOperand operand
  return .expression (.unary operator operand)

/-- The node of a binary operator. The operator is checked between the operands. -/
def binaryNode (left operator right : Value) : Except BuildError Value := do
  let left ← asOperand .binaryLeft left
  let operator ← asOperator .binary operator
  let right ← asOperand .binaryRight right
  return .expression (.binary left operator right)

mutual

/-- Builds a value, or tells the first check that fails. -/
def build : Construction → Except BuildError Value
  | .scalar s => .ok (.scalar s)
  | .list items => do
    let items ← buildItems items
    return .list items
  | .table entries => do
    let entries ← buildEntries entries
    return .table entries
  | .token type lexeme payload line => do
    let payload ← payload.build
    return .token ⟨type, lexeme, payload, line⟩
  | .literal value => do literalNode (← value.build)
  | .grouping inner => do groupingNode (← inner.build)
  | .unary operator operand => do
    let operator ← operator.build
    let operand ← operand.build
    unaryNode operator operand
  | .binary left operator right => do
    let left ← left.build
    let operator ← operator.build
    let right ← right.build
    binaryNode left operator right
  | .bare => .ok (.expression (.bare ()))

/-- Builds the items of a list. -/
def buildItems : List Construction → Except BuildError (List Value)
  | [] => .ok []
  | item :: items => do
    let v ← item.build
    let vs ← buildItems items
    return v :: vs

/-- Builds the entries of a table. -/
def buildEntries : List (Scalar × Construction) → Except BuildError (List (Scalar × Value))
  | [] => .ok []
  | (key, item) :: entries => do
    let v ← item.build
    let rest ← buildEntries entries
    return (key, v) :: rest

end

end Construction

end ExprFront
