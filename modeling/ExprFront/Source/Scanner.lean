import ExprFront.Method
import ExprFront.Source.Session

/-!
Scanning character by character.

Here a scanner is a text with methods that move over it one character at a time and count its lines
on the way. A method sees no more of the text than the character at its position and those that it
peeks at, remembers where a lexeme starts, and is broken off by a lexical error or for want of a
character. A complete scan catches the lexical errors and goes on behind them.
-/

namespace ExprFront

/-! ### Methods of a scanner -/

/-- Why a method of a scanner is broken off. -/
inductive ScanBreak where
  /-- The text is no token. -/
  | lexical (e : LexicalError)
  /-- There is no character at a position. -/
  | outOfText
  /-- The steps of a loop are used up. -/
  | outOfSteps

/-- What the methods of a scanner change: where the lexeme starts, the position of the next
character and its line, and the tokens and errors found so far. -/
structure ScanState where
  start : Nat := 0
  position : Nat := 0
  line : Nat := 1
  tokens : List Token := []
  errors : List LexicalError := []

/-- A method that moves over a text. -/
abbrev Scanning (α : Type) : Type := Method ScanBreak ScanState α

/-- A text to be scanned. -/
structure Scanner where
  source : List Char

namespace Scanner

variable (s : Scanner)

/-! ### Characters -/

/-- The session on the text at the position of a state, which does not know where a lexeme
starts. -/
def session (h : ScanState) : ScanSession :=
  { source := s.source
    position := h.position
    line := h.line
    tokens := h.tokens
    errors := h.errors }

def atEnd : Scanning Bool := fun h => (.ok (s.source.length ≤ h.position), h)

/-- The character at the position. -/
def current : Scanning Char := Method.need .outOfText fun h => s.source[h.position]?

/-- The character some way off the position; beyond the end there is the null character. -/
def peek (offset : Int) : Scanning Char :=
  Method.need .outOfText fun h => (s.session h).look offset

/-- Over one character, and into the next line if it is a line break. -/
def advance : Scanning Char := do
  let c ← s.current
  Method.change fun h => { h with line := if c = '\n' then h.line + 1 else h.line }
  Method.change fun h => { h with position := h.position + 1 }
  return c

/-- Over characters as long as a question has the answer yes. -/
def sweep (question : Scanning Bool) : (steps : Nat) → Scanning Unit
  | 0 => Method.stop .outOfSteps
  | steps + 1 => do
    if ← question then
      let _ ← s.advance
      sweep question steps
    else return

/-- Over all characters in a row for which a question has the answer yes. -/
def sweepAll (question : Scanning Bool) : Scanning Unit := s.sweep question (s.source.length + 1)

/-- Whether the next character is in a class. -/
def nextIs (p : Char → Bool) : Scanning Bool := p <$> s.peek 0

/-- Whether the next character is another one than a given quote, and there is one. -/
def insideString : Scanning Bool := do
  if (← s.peek 0) ≠ '"' then
    let b ← s.atEnd
    return !b
  else return false

/-- Whether the line goes on. -/
def insideLine : Scanning Bool := do
  if ← s.atEnd then return false
  else
    let c ← s.current
    return c ≠ '\n'

/-! ### Lexemes -/

/-- The text from the start of the lexeme up to the position. -/
def lexeme : Scanning (List Char) := fun h => (.ok ((s.source.take h.position).drop h.start), h)

/-- The decimals of a number, if a point and a digit come next. -/
def decimals : Scanning Unit := do
  if (← s.peek 0) = '.' then
    if Text.isAsciiDigit (← s.peek 1) then
      let _ ← s.advance
      s.sweepAll (s.nextIs Text.isAsciiDigit)
    else return
  else return

/-- The rest of a number. -/
def number (line : Nat) : Scanning Token := do
  s.sweepAll (s.nextIs Text.isAsciiDigit)
  s.decimals
  let text ← s.lexeme
  return ⟨.number, String.ofList text, .scalar (.double (Double.ofPlainDigits text)), line⟩

/-- The rest of a word. -/
def word (line : Nat) : Scanning Token := do
  s.sweepAll (s.nextIs Lexeme.isWordPart)
  let text ← s.lexeme
  return ⟨TokenType.ofWord (String.ofList text), String.ofList text, .nil, line⟩

/-- The rest of a string, which may go over lines. -/
def string (line : Nat) : Scanning Token := do
  s.sweepAll s.insideString
  if ← s.atEnd then Method.stop (.lexical ⟨.unclosedString, line⟩)
  else
    let _ ← s.advance
    let text ← s.lexeme
    let body := (text.drop 1).dropLast
    return ⟨.string, String.ofList text, .scalar (.text (String.ofList body)), line⟩

/-- An operator that starts with a given character, of two characters if there is one. -/
def operator (c : Char) (line : Nat) : Scanning Token := do
  let d ← s.peek 0
  match TokenType.ofOperator? [c, d] with
  | some type =>
    let _ ← s.advance
    return ⟨type, String.ofList [c, d], .nil, line⟩
  | none =>
    match TokenType.ofOperator? [c] with
    | some type => return ⟨type, String.ofList [c], .nil, line⟩
    | none => Method.stop (.lexical ⟨.stray c, line⟩)

/-- One token at the position. Its line is that of its first character. -/
def next : Scanning Token := do
  let h ← Method.state
  let c ← s.advance
  if Text.isAsciiDigit c then s.number h.line
  else if Lexeme.isWordStart c then s.word h.line
  else if c = '"' then s.string h.line
  else s.operator c h.line

/-- Marks the position as the start of a lexeme. -/
def mark : Scanning Unit := Method.change fun h => { h with start := h.position }

/-! ### Complete scans -/

/-- Over blanks and comments. -/
def skip : (steps : Nat) → Scanning Unit
  | 0 => Method.stop .outOfSteps
  | steps + 1 => do
    if ← s.atEnd then return
    else
      let c ← s.current
      if Text.isBlank c then
        let _ ← s.advance
        skip steps
      else if c = '/' then
        if (← s.peek 1) = '/' then
          s.sweepAll s.insideLine
          skip steps
        else return
      else return

/-- Over all blanks and comments in a row. -/
def skipAll : Scanning Unit := s.skip (s.source.length + 1)

/-- One token behind blanks and comments, if there is one. The answer is whether to go on. -/
def more : Scanning Bool := do
  s.skipAll
  if ← s.atEnd then return false
  else
    mark
    let t ← s.next
    Method.change fun h => { h with tokens := h.tokens ++ [t] }
    return true

/-- One turn of the loop over tokens, which catches a lexical error. -/
def turn : Scanning Bool := fun h =>
  match s.more h with
  | (.error (.lexical e), h) => (.ok true, { h with errors := h.errors ++ [e] })
  | outcome => outcome

/-- The loop over tokens. -/
def turns : (steps : Nat) → Scanning Unit
  | 0 => Method.stop .outOfSteps
  | steps + 1 => do
    if ← s.atEnd then return
    else if ← s.turn then turns steps
    else return

/-- All tokens from the front, whatever was done before. -/
def scan : Scanning (List Token) := do
  Method.change fun _ => {}
  s.turns (s.source.length + 1)
  Method.change fun h => { h with tokens := h.tokens ++ [endOfInput h.line] }
  let h ← Method.state
  return h.tokens

/-! ### Calls -/

/-- A call of one method. -/
def call : ScanSession.Step → Scanning ScanSession.Answer
  | .scan => .tokens <$> s.scan
  | .next => do
    mark
    .token <$> s.next
  | .skip => (fun _ => .done) <$> s.skipAll
  | .advance => .character <$> s.advance
  | .look offset => .character <$> s.peek offset
  | .atEnd => .truth <$> s.atEnd
  | .hasErrors => (fun h => .truth !h.errors.isEmpty) <$> Method.state

/-- The state after calls in a row. -/
def after (h : ScanState) (steps : List ScanSession.Step) : ScanState :=
  steps.foldl (fun h step => (s.call step h).2) h

end Scanner

end ExprFront
