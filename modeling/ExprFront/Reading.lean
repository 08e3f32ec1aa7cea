import ExprFront.Grammar.Event
import ExprFront.Source.Scan

/-!
Reading an expression: scanning a text, or taking a list of tokens, and parsing it.
-/

namespace ExprFront

/-- What comes of reading an expression: the tokens and the report of the parser. -/
structure Reading where
  stream : TokenStream
  report : Report

namespace Reading

/-- The expression that was read, if there is one. -/
def expression? (r : Reading) : Option Expr :=
  match r.report.verdict with
  | .accepted e => some e
  | _ => none

/-- The events of the parse. -/
def events (r : Reading) : List Event := r.report.events r.stream

/-- The outcome of parsing a stream. -/
def ofStream (limit : DepthLimit) (s : TokenStream) : Reading := ⟨s, s.parse (.withDepth limit)⟩

end Reading

/-- The stream of the tokens of a scan. -/
def Scan.stream (s : Scan) : TokenStream := .close (endOfInput s.endLine) rfl s.body

/-- The tokens of a text without lexical errors, or else its first error. -/
def scanText (text : List Char) : Except LexicalError Scan :=
  let scan := Scan.ofText text
  match scan.errors with
  | [] => .ok scan
  | e :: _ => .error e

/-- Reads an expression from a text. -/
def readText (limit : DepthLimit) (text : List Char) : Except LexicalError Reading := do
  let scan ← scanText text
  return .ofStream limit scan.stream

/-- Reads an expression from a list of tokens, which needs an end of the input. -/
def readTokens (limit : DepthLimit) (ts : List Token) : Option Reading :=
  (TokenStream.ofList? ts).map (.ofStream limit)

/-- The words for a list of tokens without an end of the input. -/
def noEndMessage : String := "token sequence must be terminated by an EOF token"

end ExprFront
