import ExprFront.Grammar.Session
import ExprFront.Method

/-!
Recursive descent with a cursor.

Here the rules of the grammar are methods on a whole list of tokens. A method moves a cursor, counts
the levels of nesting that are open, and is broken off where it cannot go on; a level is closed on
every way out of it. Each look at a token may find none, and each node is checked when it is built,
so that what can go wrong in a parse is a result here and not excluded by the types.

A bound on the steps of a loop or a recursion that is used up is such a result, too.
-/

namespace ExprFront

/-! ### Methods with a cursor -/

/-- Why a method is broken off. -/
inductive Break where
  /-- A token breaks the grammar. -/
  | fault (f : Fault)
  /-- The stack has no room. -/
  | stackFull
  /-- There is no token at a position. -/
  | noToken
  /-- A node cannot be built. -/
  | refused (e : BuildError)
  /-- The depth limit has too many digits to be written in a fault. -/
  | unwritten
  /-- The steps of a loop or a recursion are used up. -/
  | outOfSteps

/-- What methods change: the position of the next token, the number of open levels and the faults
recorded so far. -/
structure Cursor where
  position : Nat := 0
  levels : Int := 0
  faults : List Fault := []

/-- A method that moves a cursor. -/
abbrev Parsing (α : Type) : Type := Method Break Cursor α

/-- A value that is built, if its parts fit. -/
def Parsing.build : Except BuildError Value → Parsing Value
  | .ok v => pure v
  | .error e => Method.stop (.refused e)

/-! ### Operators -/

/-- The operators of a level. -/
def Level.operators : Level → List TokenType
  | .equality => [.bangEqual, .equalEqual]
  | .comparison => [.greater, .greaterEqual, .less, .lessEqual]
  | .term => [.minus, .plus]
  | .factor => [.slash, .star]

/-- The unary operators. -/
def unaryOperators : List TokenType := [.bang, .minus]

/-! ### Tokens -/

/-- A list of tokens to be parsed under limits. -/
structure Descent where
  tokens : List Token
  limits : Limits

namespace Descent

variable (d : Descent)

/-- The next token. -/
def peek : Parsing Token := Method.need .noToken fun c => d.tokens[c.position]?

/-- The token before the next one; before the front comes the last token of all. -/
def previous : Parsing Token := Method.need .noToken fun c =>
  match c.position with
  | 0 => d.tokens.getLast?
  | n + 1 => d.tokens[n]?

def atEnd : Parsing Bool := do
  let t ← d.peek
  return t.isEof

/-- Whether the next token has a type. The end of the input has none. -/
def check (type : TokenType) : Parsing Bool := do
  if ← d.atEnd then return false
  else
    let t ← d.peek
    return t.type == type

/-- Over one token, unless it is the end of the input. -/
def advance : Parsing Token := do
  if ← d.atEnd then d.previous
  else
    Method.change fun c => { c with position := c.position + 1 }
    d.previous

/-- Over the next token if it has one of the given types. -/
def accept : List TokenType → Parsing Bool
  | [] => return false
  | type :: types => do
    if ← d.check type then
      let _ ← d.advance
      return true
    else accept types

/-- Over a token of a type that is required. -/
def require (type : TokenType) (expected context : String) : Parsing Token := do
  if ← d.check type then d.advance
  else
    let t ← d.peek
    Method.stop (.fault ⟨.missingToken expected context, t⟩)

/-! ### Rules -/

/-- Extends an expression to the right by operators of a level with their operands. -/
def extend (level : Level) (operand : Parsing Value) : (steps : Nat) → Value → Parsing Value
  | 0, _ => Method.stop .outOfSteps
  | steps + 1, left => do
    if ← d.accept level.operators then
      let operator ← d.previous
      let right ← operand
      let node ← Parsing.build (Construction.binaryNode left (.token operator) right)
      extend level operand steps node
    else return left

/-- Operands joined by operators of a level. -/
def chain (level : Level) (operand : Parsing Value) : Parsing Value := do
  let left ← operand
  d.extend level operand (d.tokens.length + 1) left

/-- Unary expressions joined by multiplication and division. -/
def factor (unary : Parsing Value) : Parsing Value := d.chain .factor unary

/-- Factors joined by addition and subtraction. -/
def term (unary : Parsing Value) : Parsing Value := d.chain .term (d.factor unary)

/-- Terms joined by comparisons. -/
def comparison (unary : Parsing Value) : Parsing Value := d.chain .comparison (d.term unary)

/-- Comparisons joined by equalities. -/
def equality (unary : Parsing Value) : Parsing Value := d.chain .equality (d.comparison unary)

/-- The rule of a level over a rule for unary expressions. -/
def level (unary : Parsing Value) : Level → Parsing Value
  | .equality => d.equality unary
  | .comparison => d.comparison unary
  | .term => d.term unary
  | .factor => d.factor unary

/-- A rule one level of nesting deeper, where the given frames are in use. A limit that is exceeded
is below a number of open levels that the stack allows, so that it can always be written. -/
def nested (frames : Nat) (rule : Parsing Value) : Parsing Value := do
  Method.change fun c => { c with levels := c.levels + 1 }
  Method.leaving (fun c => { c with levels := c.levels - 1 }) do
    let c ← Method.state
    if d.limits.depth.exceededBy c.levels then
      let t ← d.peek
      Method.stop (.fault ⟨.tooDeep d.limits.depth.value, t⟩)
    else if d.limits.stack ≤ frames then Method.stop .stackFull
    else rule

/-- A literal, or an expression in parentheses. -/
def primary (inside : Parsing Value) : Parsing Value := do
  if ← d.accept [.false] then Parsing.build (Construction.literalNode (.scalar (.truth false)))
  else if ← d.accept [.true] then Parsing.build (Construction.literalNode (.scalar (.truth true)))
  else if ← d.accept [.nil] then Parsing.build (Construction.literalNode .nil)
  else if ← d.accept [.number, .string] then
    let t ← d.previous
    Parsing.build (Construction.literalNode t.payload)
  else if ← d.accept [.leftParen] then
    let inner ← inside
    let _ ← d.require .rightParen ")" "expression"
    Parsing.build (Construction.groupingNode inner)
  else
    let t ← d.peek
    Method.stop (.fault ⟨.expectExpression, t⟩)

/-- A unary expression where the given frames are in use. -/
def unaryAt : (steps : Nat) → (frames : Nat) → Parsing Value
  | 0, _ => Method.stop .outOfSteps
  | steps + 1, frames => do
    if ← d.accept unaryOperators then
      let operator ← d.previous
      let inside := frames + Nesting.operatorFrames
      let operand ← d.nested inside (unaryAt steps inside)
      Parsing.build (Construction.unaryNode (.token operator) operand)
    else
      let inside := frames + Nesting.parenthesisFrames
      d.primary (d.nested inside (d.equality (unaryAt steps inside)))

/-- A unary expression. -/
def unary (frames : Nat) : Parsing Value := d.unaryAt (d.tokens.length + 1) frames

/-- A whole expression. -/
def expression (frames : Nat) : Parsing Value := d.nested frames (d.equality (d.unary frames))

/-- The rule with a name. -/
def rule : RuleName → Parsing Value
  | .expression => d.expression 0
  | .level l => d.level (d.unary 0) l
  | .unary => d.unary 0
  | .primary => d.primary (d.expression Nesting.parenthesisFrames)

/-- A whole expression and an optional semicolon, with nothing after them. -/
def fragment : Parsing Value := do
  let e ← d.expression 0
  let _ ← d.accept [.semicolon]
  if ← d.atEnd then return e
  else
    let t ← d.peek
    Method.stop (.fault ⟨.trailingToken, t⟩)

/-! ### Parsing -/

/-- On to the next place at which parsing may go on. -/
def recover : Parsing Unit := fun c =>
  match Recovery.resume? d.tokens c.position with
  | some k => (.ok (), { c with position := k.toNat })
  | none => (.error .noToken, c)

/-- Records a fault and recovers. -/
def giveUp (f : Fault) : Parsing Unit := do
  Method.change fun c => { c with faults := c.faults ++ [f] }
  d.recover

/-- One turn of the loop over fragments, after which the expression found so far is returned. A
fragment that fills the stack is given up with all levels closed; a depth limit that cannot be
written ends the parse here, before there is a fault to record. -/
def turn (found : Option Value) : Parsing (Option Value) := fun c =>
  match d.fragment c with
  | (.ok e, c) => (.ok (if c.faults.isEmpty && found.isNone then some e else found), c)
  | (.error (.fault f), c) =>
    (do
      d.giveUp f
      return found : Parsing (Option Value)) c
  | (.error .stackFull, c) =>
    (do
      let t ← d.peek
      if d.limits.depth.text?.isSome then
        d.giveUp ⟨.tooDeep d.limits.depth.value, t⟩
        return found
      else Method.stop .unwritten : Parsing (Option Value)) { c with levels := 0 }
  | (.error b, c) => (.error b, c)

/-- The loop over fragments. -/
def turns : (steps : Nat) → Option Value → Parsing (Option Value)
  | 0, _ => Method.stop .outOfSteps
  | steps + 1, found => do
    let found ← d.turn found
    if ← d.atEnd then return found else turns steps found

/-- What comes of a parse: an expression or faults. -/
structure Result where
  expression : Option Value
  faults : List Fault

/-- Parses the tokens from the front, whatever was done before. -/
def parse : Parsing Result := do
  Method.change fun _ => {}
  let found ← d.turns (d.tokens.length + 1) none
  let c ← Method.state
  return if c.faults.isEmpty then ⟨found, []⟩ else ⟨none, c.faults⟩

/-! ### Calls -/

/-- What a call gives. -/
inductive Reply where
  | result (r : Result)
  | node (v : Value)
  | token (t : Token)
  | truth (b : Bool)
  | done

/-- A call of one method. -/
def call : ParseSession.Step → Parsing Reply
  | .parse => .result <$> d.parse
  | .rule name => .node <$> d.rule name
  | .fragment => .node <$> d.fragment
  | .accept types => .truth <$> d.accept types
  | .check type => .truth <$> d.check type
  | .atEnd => .truth <$> d.atEnd
  | .advance => .token <$> d.advance
  | .next => .token <$> d.peek
  | .previous => .token <$> d.previous
  | .require type expected context => .token <$> d.require type expected context
  | .recover => (fun _ => .done) <$> d.recover

/-- The cursor after calls in a row. -/
def after (c : Cursor) (steps : List ParseSession.Step) : Cursor :=
  steps.foldl (fun c step => (d.call step c).2) c

end Descent

end ExprFront
