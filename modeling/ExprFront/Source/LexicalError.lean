import ExprFront.Diagnostic
import ExprFront.Text.Printable

/-!
Lexical errors: source text that is no token.
-/

namespace ExprFront

/-- What is wrong with a piece of source text. -/
inductive LexicalFault where
  /-- A character that starts no token. -/
  | stray (c : Char)
  /-- A string without its closing quote. -/
  | unclosedString
  deriving DecidableEq, Repr

/-- A lexical fault and the line on which it starts. -/
structure LexicalError where
  fault : LexicalFault
  line : Nat
  deriving DecidableEq, Repr

namespace LexicalFault

/-- Advice on printable text that starts no token. -/
def printableHelp (cs : List Char) : String :=
  "The character '" ++ String.ofList cs ++ "' is not valid in source code."

/-- Advice on a character that cannot be shown. -/
def codeHelp (c : Char) : String :=
  let digits := (Nat.toDigits 16 c.toNat).map Char.toUpper
  let zeros := List.replicate (4 - digits.length) '0'
  "Non-printable character (Unicode: U+" ++ String.ofList (zeros ++ digits) ++ ") is not allowed."

/-- Advice on a text that starts no token. A text that is not printable has to be one character; for
another one the number of its characters is returned. -/
def strayHelp (cs : List Char) : Except Nat String :=
  if cs.all Text.isPrintable then .ok (printableHelp cs)
  else
    match cs with
    | [c] => .ok (codeHelp c)
    | _ => .error cs.length

/-- The report of text that starts no token. -/
def strayDiagnostic (help : String) (line : Int) (filename : Option String) : Diagnostic where
  message := "Unexpected character."
  line := line
  severity := "error"
  code := some "L001"
  filename := filename
  help := some help

/-- The report of a string without its closing quote. -/
def unclosedDiagnostic (line : Int) (filename : Option String) : Diagnostic where
  message := "Unterminated string."
  line := line
  severity := "error"
  code := some "L002"
  filename := filename
  help := some "String literals must be closed with a matching '\"'."
  suggestions := ["Add a closing '\"'"]

end LexicalFault

namespace LexicalError

/-- The report of a lexical error in a text that may come from a file. -/
def diagnostic (filename : Option String) (e : LexicalError) : Diagnostic :=
  match e.fault with
  | .stray c =>
    let help :=
      if Text.isPrintable c then LexicalFault.printableHelp [c] else LexicalFault.codeHelp c
    LexicalFault.strayDiagnostic help e.line filename
  | .unclosedString => LexicalFault.unclosedDiagnostic e.line filename

end LexicalError

end ExprFront
