import ExprFront.Source.Lexeme
import ExprFront.Text.Blank

/-!
Segments of source text. A text is cut from front to back into blank characters, comments and
lexemes; put together again, the segments are the text. A comment goes from a double slash up to the
end of its line, which is a segment of its own.
-/

namespace ExprFront

/-- A piece of source text. -/
inductive Segment where
  | blank (c : Char)
  /-- A comment, with the text after its double slash. -/
  | comment (body : List Char)
  | lexeme (l : Lexeme)
  deriving DecidableEq

namespace Segment

/-- The text of a segment. -/
def text : Segment → List Char
  | .blank c => [c]
  | .comment body => '/' :: '/' :: body
  | .lexeme l => l.text

/-- Whether a segment lies between lexemes. -/
def isTrivia : Segment → Bool
  | .blank _ => true
  | .comment _ => true
  | .lexeme _ => false

/-- The comment at the front of a text, and the text after it. -/
def comment? (c : Char) : List Char → Option (Segment × List Char)
  | d :: rest =>
    if c = '/' && d = '/' then
      some (.comment (rest.takeWhile (· ≠ '\n')), rest.dropWhile (· ≠ '\n'))
    else none
  | [] => none

/-- The first segment of a text, and the text after it. -/
def first (c : Char) (rest : List Char) : Segment × List Char :=
  if Text.isBlank c then (.blank c, rest)
  else
    match comment? c rest with
    | some cut => cut
    | none =>
      let (l, rest) := Lexeme.first c rest
      (.lexeme l, rest)

/-- The first `bound` segments of a text. -/
def cut : (bound : Nat) → List Char → List Segment
  | 0, _ => []
  | _ + 1, [] => []
  | bound + 1, c :: rest =>
    let (segment, rest) := first c rest
    segment :: cut bound rest

/-- The segments of a text. A segment holds a character at least, so there are no more segments than
characters. -/
def ofText (text : List Char) : List Segment := cut text.length text

end Segment

end ExprFront
