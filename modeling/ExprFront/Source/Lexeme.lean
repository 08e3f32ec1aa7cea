import ExprFront.Text.AlphaNumeric
import ExprFront.Text.DecimalDigit
import ExprFront.Value

/-!
Lexemes: the shortest pieces of source text with a meaning. `Lexeme.first` reads the longest lexeme
at the front of a text. Text that starts no lexeme is read as a stray character, or as a string
without its closing quote, so that every text that is not empty has a first lexeme.
-/

namespace ExprFront

/-- A piece of source text that is a token or cannot be one. -/
inductive Lexeme where
  /-- Digits, perhaps with a point and further digits. -/
  | number (text : List Char)
  /-- A name or a reserved word. -/
  | word (text : List Char)
  /-- A text between double quotes. -/
  | string (body : List Char)
  /-- An operator or a punctuation mark, with its type. -/
  | operator (text : List Char) (type : TokenType)
  /-- A character that starts no lexeme. -/
  | stray (c : Char)
  /-- A double quote without another one after it, and the text up to the end. -/
  | unclosed (body : List Char)
  deriving DecidableEq

namespace Lexeme

/-- The text of a lexeme. -/
def text : Lexeme → List Char
  | .number text => text
  | .word text => text
  | .string body => '"' :: body ++ ['"']
  | .operator text _ => text
  | .stray c => [c]
  | .unclosed body => '"' :: body

/-- Whether a character starts a word. -/
def isWordStart (c : Char) : Bool := Text.isLetter c || c = '_'

/-- Whether a character continues a word. -/
def isWordPart (c : Char) : Bool := Text.isAlphaNumeric c || c = '_'

/-- The fraction at the front of a text: a point and at least one digit, or nothing. -/
def fraction : List Char → List Char
  | '.' :: d :: rest =>
    if Text.isAsciiDigit d then '.' :: d :: rest.takeWhile Text.isAsciiDigit else []
  | _ => []

/-- The number that starts with a digit. -/
def firstNumber (c : Char) (rest : List Char) : Lexeme × List Char :=
  let digits := rest.takeWhile Text.isAsciiDigit
  let rest := rest.dropWhile Text.isAsciiDigit
  let decimals := fraction rest
  (.number (c :: digits ++ decimals), rest.drop decimals.length)

/-- The string after an opening quote. -/
def firstString (rest : List Char) : Lexeme × List Char :=
  let body := rest.takeWhile (· ≠ '"')
  match rest.dropWhile (· ≠ '"') with
  | [] => (.unclosed body, [])
  | _ :: rest => (.string body, rest)

/-- The operator that consists of one character, or that character as a stray one. -/
def firstMark (c : Char) (rest : List Char) : Lexeme × List Char :=
  match TokenType.ofOperator? [c] with
  | some type => (.operator [c] type, rest)
  | none => (.stray c, rest)

/-- The operator at the front; one of two characters wins over its first character. -/
def firstOperator (c : Char) (rest : List Char) : Lexeme × List Char :=
  match rest with
  | [] => firstMark c rest
  | d :: more =>
    match TokenType.ofOperator? [c, d] with
    | some type => (.operator [c, d] type, more)
    | none => firstMark c rest

/-- The first lexeme of a text, and the text after it. -/
def first (c : Char) (rest : List Char) : Lexeme × List Char :=
  if Text.isAsciiDigit c then firstNumber c rest
  else if isWordStart c then (.word (c :: rest.takeWhile isWordPart), rest.dropWhile isWordPart)
  else if c = '"' then firstString rest
  else firstOperator c rest

end Lexeme

end ExprFront
