import ExprFront.Source.Scan

/-!
Scanning step by step. A session holds a text, a position in it with its line, and the outcome of
the last complete scan. Single steps move the position; only a complete scan replaces the outcome,
and it starts from the front of the text whatever was done before.
-/

namespace ExprFront

/-- A text in the middle of being scanned. -/
structure ScanSession where
  source : List Char
  position : Nat := 0
  line : Nat := 1
  tokens : List Token := []
  errors : List LexicalError := []

/-- A single step. -/
inductive ScanSession.Step where
  /-- A complete scan. -/
  | scan
  /-- The lexeme at the position. -/
  | next
  /-- Over blanks and comments. -/
  | skip
  /-- Over one character. -/
  | advance
  /-- A look at the character some way off. -/
  | look (offset : Int)
  | atEnd
  | hasErrors

/-- What a step gives. -/
inductive ScanSession.Answer where
  | tokens (ts : List Token)
  | token (t : Token)
  | character (c : Char)
  | truth (b : Bool)
  | done
  | lexicalError (e : LexicalError)
  /-- The step needs a character where the text has none. -/
  | outOfText

namespace ScanSession

/-- The text from the position on. -/
def rest (s : ScanSession) : List Char := s.source.drop s.position

/-- The session moved over a piece of text. -/
def pass (s : ScanSession) (text : List Char) : ScanSession :=
  { s with position := s.position + text.length, line := s.line + lineBreaks text }

/-- The character `offset` places from the position; a place before the front of the text counts
from its end, and beyond the end there is the null character. -/
def look (s : ScanSession) (offset : Int) : Option Char :=
  let place := s.position + offset
  let size : Int := s.source.length
  if size ≤ place then some '\x00'
  else if 0 ≤ place then s.source[place.toNat]?
  else if 0 ≤ size + place then s.source[(size + place).toNat]?
  else none

/-- The text of the blanks and comments at the position. -/
def trivia (s : ScanSession) : List Char :=
  ((Segment.ofText s.rest).takeWhile Segment.isTrivia).flatMap Segment.text

/-- The session after a complete scan. -/
def scanned (s : ScanSession) : ScanSession :=
  let scan := Scan.ofText s.source
  { s with
    position := s.source.length
    line := 1 + lineBreaks s.source
    tokens := scan.tokens
    errors := scan.errors }

/-- One step: its answer and the session after it. -/
def step (s : ScanSession) : Step → Answer × ScanSession
  | .scan => (.tokens s.scanned.tokens, s.scanned)
  | .next =>
    match s.rest with
    | [] => (.outOfText, s)
    | c :: rest =>
      let l := (Lexeme.first c rest).1
      match l.toToken s.line with
      | .ok token => (.token token, s.pass l.text)
      | .error e => (.lexicalError e, s.pass l.text)
  | .skip => (.done, s.pass s.trivia)
  | .advance =>
    match s.rest with
    | [] => (.outOfText, s)
    | c :: _ => (.character c, s.pass [c])
  | .look offset =>
    match s.look offset with
    | some c => (.character c, s)
    | none => (.outOfText, s)
  | .atEnd => (.truth s.rest.isEmpty, s)
  | .hasErrors => (.truth !s.errors.isEmpty, s)

end ScanSession

end ExprFront
