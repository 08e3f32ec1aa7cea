import ExprFront.Grammar.SyntaxError

/-!
The rules of the grammar, from the weakest binding to the strongest:

```text
expression = equality
equality   = comparison (("!=" | "==") comparison)*
comparison = term ((">" | ">=" | "<" | "<=") term)*
term       = factor (("+" | "-") factor)*
factor     = unary (("*" | "/") unary)*
unary      = ("!" | "-") unary | primary
primary    = NUMBER | STRING | "true" | "false" | "nil" | "(" expression ")"
```

A rule reads an expression from the front of a list of tokens. The list holds the tokens before the
end of the input, so that its own end stands for the end of the input. The operators of one level
associate to the left. Parentheses and unary operators nest; how deep is limited by a depth limit
and by the frames of a stack, of which a parenthesis takes more than an operator.
-/

namespace ExprFront

/-! ### Results -/

/-- What stops a rule. -/
inductive Obstacle where
  /-- The next token breaks the grammar. -/
  | fault (cause : Cause)
  /-- The token before carries a payload that no literal can hold. -/
  | payload (kindName : String)
  /-- The stack has no room for the frames of the next token. -/
  | stackFull
  deriving DecidableEq

/-- A rule that is stopped, and the tokens that it has not read. -/
structure Failure where
  obstacle : Obstacle
  rest : List Token

/-- An expression and the tokens after it, or a failure. -/
abbrev Parsed := Except Failure (Expr × List Token)

/-- A rule reads an expression from the front of a list of tokens. -/
abbrev Rule := List Token → Parsed

/-! ### Binary levels -/

/-- The binary levels, from the weakest binding to the strongest. -/
inductive Level where
  | equality
  | comparison
  | term
  | factor
  deriving DecidableEq, Repr

/-- Whether a token type is an operator of a level. -/
def Level.contains : Level → TokenType → Bool
  | .equality, .bangEqual | .equality, .equalEqual => true
  | .comparison, .greater | .comparison, .greaterEqual => true
  | .comparison, .less | .comparison, .lessEqual => true
  | .term, .minus | .term, .plus => true
  | .factor, .slash | .factor, .star => true
  | _, _ => false

/-- Extends an expression to the right by at most `bound` operators of a level with their
operands. -/
def extend (level : Level) (operand : Rule) : (bound : Nat) → Expr → Rule
  | 0, left, ts => .ok (left, ts)
  | _ + 1, left, [] => .ok (left, [])
  | bound + 1, left, t :: ts =>
    if level.contains t.type then do
      let (right, rest) ← operand ts
      extend level operand bound (.binary left t right) rest
    else .ok (left, t :: ts)

/-- Operands joined by operators of a level. Each operator is a token, so there are no more of them
than tokens. -/
def chain (level : Level) (operand : Rule) : Rule := fun ts => do
  let (left, rest) ← operand ts
  extend level operand rest.length left rest

/-- Unary expressions joined by multiplication and division. -/
def factorRule (unary : Rule) : Rule := chain .factor unary

/-- Factors joined by addition and subtraction. -/
def termRule (unary : Rule) : Rule := chain .term (factorRule unary)

/-- Terms joined by comparisons. -/
def comparisonRule (unary : Rule) : Rule := chain .comparison (termRule unary)

/-- Comparisons joined by equalities. -/
def equalityRule (unary : Rule) : Rule := chain .equality (comparisonRule unary)

/-- The rule for a binary level and all that binds more strongly, over a rule for unary
expressions. -/
def Level.rule (unary : Rule) : Level → Rule
  | .equality => equalityRule unary
  | .comparison => comparisonRule unary
  | .term => termRule unary
  | .factor => factorRule unary

/-! ### Nesting -/

/-- How deep the parser may nest. -/
structure Limits where
  depth : DepthLimit
  /-- The frames of the stack. -/
  stack : Nat

/-- The depth of a place in an expression, and the frames in use there. -/
structure Nesting where
  depth : Nat
  frames : Nat
  deriving DecidableEq, Repr

namespace Nesting

/-- The frames that an open parenthesis takes. -/
def parenthesisFrames : Nat := 12

/-- The frames that a pending unary operator takes. -/
def operatorFrames : Nat := 2

/-- The place outside every expression. -/
def outermost : Nesting := ⟨0, 0⟩

/-- One level deeper, with the frames that this takes; the tokens are those not yet read. A limit
that is exceeded here is below a depth that the stack allows, so that it can always be written. -/
def deeper (limits : Limits) (n : Nesting) (frames : Nat) (ts : List Token) :
    Except Failure Nesting :=
  if !limits.depth.allows (n.depth + 1) then
    .error ⟨.fault (.tooDeep limits.depth.value), ts⟩
  else if limits.stack ≤ n.frames + frames then .error ⟨.stackFull, ts⟩
  else .ok ⟨n.depth + 1, n.frames + frames⟩

end Nesting

/-! ### Unary and primary expressions -/

/-- The literal that a token is, if it is one. -/
def literal? (t : Token) : Option (Except String Scalar) :=
  match t.type with
  | .false => some (.ok (.truth false))
  | .true => some (.ok (.truth true))
  | .nil => some (.ok .nil)
  | .number | .string =>
    match t.payload with
    | .scalar s => some (.ok s)
    | v => some (.error v.kindName)
  | _ => none

/-- The closing parenthesis after an expression, which becomes a grouping. -/
def closeGroup (inner : Expr) : Rule
  | [] => .error ⟨.fault (.missingToken ")" "expression"), []⟩
  | t :: ts =>
    if t.type = .rightParen then .ok (.grouping inner, ts)
    else .error ⟨.fault (.missingToken ")" "expression"), t :: ts⟩

/-- A literal, or an expression in parentheses over a rule for the inside. -/
def primary (inside : Rule) : Rule
  | [] => .error ⟨.fault .expectExpression, []⟩
  | t :: ts =>
    match literal? t with
    | some (.ok s) => .ok (.literal s, ts)
    | some (.error kindName) => .error ⟨.payload kindName, ts⟩
    | none =>
      if t.type = .leftParen then do
        let (inner, rest) ← inside ts
        closeGroup inner rest
      else .error ⟨.fault .expectExpression, t :: ts⟩

/-- A rule one level below a place; entering it takes the given frames. -/
def nested (limits : Limits) (n : Nesting) (frames : Nat) (rule : Nesting → Rule) : Rule :=
  fun ts => do
    let inner ← n.deeper limits frames ts
    rule inner ts

/-- A unary expression at a place. The number bounds how much further the expression nests. -/
def unaryAt (limits : Limits) : (bound : Nat) → Nesting → Rule
  -- each level of nesting takes a token, so a bound above their number is never used up
  | 0, _, ts => .error ⟨.stackFull, ts⟩
  | bound + 1, n, ts =>
    let inside := nested limits n Nesting.parenthesisFrames fun inner =>
      equalityRule (unaryAt limits bound inner)
    match ts with
    | [] => primary inside []
    | t :: rest =>
      if t.type.isUnary then do
        let (operand, rest) ← nested limits n Nesting.operatorFrames (unaryAt limits bound) rest
        return (.unary t operand, rest)
      else primary inside (t :: rest)

/-- A unary expression at a place. -/
def unary (limits : Limits) (n : Nesting) : Rule := fun ts => unaryAt limits (ts.length + 1) n ts

/-- An expression one level below a place; entering it takes the given frames. -/
def expressionBelow (limits : Limits) (n : Nesting) (frames : Nat) : Rule :=
  nested limits n frames fun inner => equalityRule (unary limits inner)

/-! ### Rules by name -/

/-- The names of the rules. -/
inductive RuleName where
  | expression
  | level (l : Level)
  | unary
  | primary
  deriving DecidableEq, Repr

/-- The rule with a name, at the place outside every expression. -/
def RuleName.rule (limits : Limits) : RuleName → Rule
  | .expression => expressionBelow limits .outermost 0
  | .level l => l.rule (ExprFront.unary limits .outermost)
  | .unary => ExprFront.unary limits .outermost
  | .primary => ExprFront.primary (expressionBelow limits .outermost Nesting.parenthesisFrames)

end ExprFront
