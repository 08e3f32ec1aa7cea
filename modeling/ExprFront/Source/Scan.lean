import ExprFront.Source.LexicalError
import ExprFront.Source.Segment

/-!
Scanning: from source text to tokens and lexical errors. The text is cut into segments, and each
lexeme becomes a token or an error on the line on which it starts. A token of its own marks the end
of the input.
-/

namespace ExprFront

/-- The number of line breaks in a text. -/
def lineBreaks (text : List Char) : Nat := text.count '\n'

/-- The token that a lexeme on a given line is, or the error. -/
def Lexeme.toToken (line : Nat) (l : Lexeme) : Except LexicalError Token :=
  let lexeme := String.ofList l.text
  match l with
  | .number text => .ok ⟨.number, lexeme, .scalar (.double (Double.ofPlainDigits text)), line⟩
  | .word _ => .ok ⟨TokenType.ofWord lexeme, lexeme, .nil, line⟩
  | .string body => .ok ⟨.string, lexeme, .scalar (.text (String.ofList body)), line⟩
  | .operator _ type => .ok ⟨type, lexeme, .nil, line⟩
  | .stray c => .error ⟨.stray c, line⟩
  | .unclosed _ => .error ⟨.unclosedString, line⟩

/-- The token that marks the end of the input. -/
def endOfInput (line : Nat) : Token := ⟨.eof, "", .nil, line⟩

/-- The tokens of a text, the line of its end and its lexical errors. -/
structure Scan where
  body : List Token
  endLine : Nat
  errors : List LexicalError

namespace Scan

/-- The tokens of a text, the last one being the end of the input. -/
def tokens (s : Scan) : List Token := s.body ++ [endOfInput s.endLine]

/-- The scan of a text whose first line has the given number, from its segments. -/
def ofSegments (line : Nat) : List Segment → Scan
  | [] => ⟨[], line, []⟩
  | segment :: rest =>
    let scan := ofSegments (line + lineBreaks segment.text) rest
    match segment with
    | .blank _ => scan
    | .comment _ => scan
    | .lexeme l =>
      match l.toToken line with
      | .ok token => { scan with body := token :: scan.body }
      | .error e => { scan with errors := e :: scan.errors }

/-- The scan of a text. -/
def ofText (text : List Char) : Scan := ofSegments 1 (Segment.ofText text)

end Scan

end ExprFront
