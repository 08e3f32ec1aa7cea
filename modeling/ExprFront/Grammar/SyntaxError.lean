import ExprFront.Construction
import ExprFront.DepthLimit
import ExprFront.Diagnostic

/-!
Syntax errors: tokens that break the grammar. The parser knows four causes; a syntax error states a
cause at a token in words.
-/

namespace ExprFront

/-- The kinds of syntax error. -/
inductive SyntaxErrorKind where
  | general
  | unexpectedToken
  | missingTerminator
  | recursionLimit
  deriving DecidableEq, Repr

namespace SyntaxErrorKind

/-- The code of a kind in reports. -/
def code : SyntaxErrorKind → String
  | .general => "P000"
  | .unexpectedToken => "P001"
  | .missingTerminator => "P002"
  | .recursionLimit => "P003"

/-- The name of a kind. -/
def name : SyntaxErrorKind → String
  | .general => "ParseError"
  | .unexpectedToken => "UnexpectedTokenError"
  | .missingTerminator => "MissingTerminatorError"
  | .recursionLimit => "RecursionLimitError"

end SyntaxErrorKind

/-- A syntax error in words. -/
structure SyntaxError where
  kind : SyntaxErrorKind
  message : String
  token : Token
  help : Option String := none
  suggestions : List String := []

namespace SyntaxError

/-- The report of a syntax error. -/
def diagnostic (e : SyntaxError) : Diagnostic where
  message := e.message
  line := e.token.line
  severity := "error"
  code := some e.kind.code
  place := e.token.place
  help := e.help
  suggestions := e.suggestions

/-- A syntax error in one line, with its message and its token. -/
def written? (e : SyntaxError) : Option String := do
  let token ← e.token.written?
  return e.kind.name ++ "(" ++ Text.quoted e.message ++ ", " ++ token ++ ")"

end SyntaxError

/-- Why the parser cannot go on. -/
inductive Cause where
  /-- The token starts no expression. -/
  | expectExpression
  /-- The token follows a complete expression. -/
  | trailingToken
  /-- The token stands where another one is required. -/
  | missingToken (expected context : String)
  /-- The token is nested too deeply. -/
  | tooDeep (limit : Scalar)
  deriving DecidableEq, Repr

namespace Cause

/-- The kind of a cause. -/
def kind : Cause → SyntaxErrorKind
  | .expectExpression => .unexpectedToken
  | .trailingToken => .unexpectedToken
  | .missingToken .. => .missingTerminator
  | .tooDeep _ => .recursionLimit

/-- The message of a cause. For a limit that cannot be written it has the words for this, but no
fault of a parse has such a limit. -/
def message : Cause → String
  | .expectExpression => "Expect expression."
  | .trailingToken => "Expect end of expression."
  | .missingToken expected context => "Expect '" ++ expected ++ "' after " ++ context ++ "."
  | .tooDeep limit =>
    match limit.plain? with
    | some text => "Expression nesting exceeds maximum depth of " ++ text ++ "."
    | none => Integer.tooLong

/-- The advice on a cause. -/
def help : Cause → Option String
  | .expectExpression =>
    some "Expected a number, string, true, false, nil, a unary operator or '('."
  | .trailingToken => some "Only one expression can be parsed at a time."
  | .missingToken .. => none
  | .tooDeep _ => some "Reduce the number of nested parentheses or unary operators."

/-- What may be done about a cause. -/
def suggestions : Cause → List String
  | .trailingToken => ["Remove the extra tokens", "Join the expressions with an operator"]
  | .missingToken expected _ => ["Add a closing '" ++ expected ++ "'"]
  | _ => []

end Cause

/-- A cause at a token. -/
structure Fault where
  cause : Cause
  token : Token

/-- A fault in words. -/
def Fault.toError (f : Fault) : SyntaxError where
  kind := f.cause.kind
  message := f.cause.message
  token := f.token
  help := f.cause.help
  suggestions := f.cause.suggestions

end ExprFront
