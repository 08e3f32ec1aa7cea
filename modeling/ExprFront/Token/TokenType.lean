/-!
Token types, their names and their order, and the two tables that assign a type to a text: the
reserved words and the operators.
-/

namespace ExprFront

/-- The type of a token. -/
inductive TokenType where
  | leftParen | rightParen | leftBrace | rightBrace | comma | dot | minus | plus | semicolon | slash
  | star
  | bang | bangEqual | equal | equalEqual | greater | greaterEqual | less | lessEqual
  | identifier | string | number
  | and | «class» | «else» | «false» | «fun» | «for» | «if» | nil | or | print | «return» | super
  | this | «true» | var | while
  | eof
  deriving DecidableEq, Repr, Inhabited

namespace TokenType

/-- All token types, in order. -/
def all : List TokenType :=
  [.leftParen, .rightParen, .leftBrace, .rightBrace, .comma, .dot, .minus, .plus, .semicolon,
   .slash, .star,
   .bang, .bangEqual, .equal, .equalEqual, .greater, .greaterEqual, .less, .lessEqual,
   .identifier, .string, .number,
   .and, .class, .else, .false, .fun, .for, .if, .nil, .or, .print, .return, .super,
   .this, .true, .var, .while,
   .eof]

/-- Every token type is in the list of all. -/
theorem mem_all (t : TokenType) : t ∈ all := by cases t <;> decide

/-- The name of a token type. -/
def name : TokenType → String
  | .leftParen => "LEFT_PAREN"
  | .rightParen => "RIGHT_PAREN"
  | .leftBrace => "LEFT_BRACE"
  | .rightBrace => "RIGHT_BRACE"
  | .comma => "COMMA"
  | .dot => "DOT"
  | .minus => "MINUS"
  | .plus => "PLUS"
  | .semicolon => "SEMICOLON"
  | .slash => "SLASH"
  | .star => "STAR"
  | .bang => "BANG"
  | .bangEqual => "BANG_EQUAL"
  | .equal => "EQUAL"
  | .equalEqual => "EQUAL_EQUAL"
  | .greater => "GREATER"
  | .greaterEqual => "GREATER_EQUAL"
  | .less => "LESS"
  | .lessEqual => "LESS_EQUAL"
  | .identifier => "IDENTIFIER"
  | .string => "STRING"
  | .number => "NUMBER"
  | .and => "AND"
  | .class => "CLASS"
  | .else => "ELSE"
  | .false => "FALSE"
  | .fun => "FUN"
  | .for => "FOR"
  | .if => "IF"
  | .nil => "NIL"
  | .or => "OR"
  | .print => "PRINT"
  | .return => "RETURN"
  | .super => "SUPER"
  | .this => "THIS"
  | .true => "TRUE"
  | .var => "VAR"
  | .while => "WHILE"
  | .eof => "EOF"

/-- The number of a token type, counted from one. -/
def ordinal (t : TokenType) : Nat := all.idxOf t + 1

/-- The token type with a given name. -/
def ofName? (s : String) : Option TokenType := all.find? (·.name = s)

/-! ### Reserved words and operators -/

/-- The reserved words. -/
def keywords : List (String × TokenType) :=
  [("and", .and), ("class", .class), ("else", .else), ("false", .false), ("for", .for),
   ("fun", .fun), ("if", .if), ("nil", .nil), ("or", .or), ("print", .print), ("return", .return),
   ("super", .super), ("this", .this), ("true", .true), ("var", .var), ("while", .while)]

/-- The operators and the punctuation. -/
def operators : List (List Char × TokenType) :=
  [(['!', '='], .bangEqual), (['=', '='], .equalEqual), (['>', '='], .greaterEqual),
   (['<', '='], .lessEqual),
   (['('], .leftParen), ([')'], .rightParen), (['{'], .leftBrace), (['}'], .rightBrace),
   ([','], .comma), (['.'], .dot), (['-'], .minus), (['+'], .plus), ([';'], .semicolon),
   (['/'], .slash), (['*'], .star), (['!'], .bang), (['='], .equal), (['>'], .greater),
   (['<'], .less)]

/-- The type of a word: its own when it is reserved, and an identifier otherwise. -/
def ofWord (s : String) : TokenType := (keywords.lookup s).getD .identifier

/-- The type of an operator. -/
def ofOperator? (cs : List Char) : Option TokenType := operators.lookup cs

/-- A word is an identifier or has a type of the table. -/
theorem ofWord_mem (s : String) : ofWord s ∈ identifier :: keywords.map Prod.snd := by
  rw [ofWord]
  cases h : keywords.lookup s with
  | none => exact List.mem_cons_self
  | some type =>
    obtain ⟨us, vs, hsplit, -⟩ := List.lookup_eq_some_iff.mp h
    simp [hsplit]

/-- An operator stands in the table with its type. -/
theorem mem_operators {cs : List Char} {type : TokenType} (h : ofOperator? cs = some type) :
    (cs, type) ∈ operators := by
  obtain ⟨us, vs, hsplit, -⟩ := List.lookup_eq_some_iff.mp h
  simp [hsplit]

/-! ### Operators of expressions -/

/-- Whether a token type is a unary operator. -/
def isUnary : TokenType → Bool
  | .bang | .minus => Bool.true
  | _ => Bool.false

/-- Whether a token type is a binary operator. -/
def isBinary : TokenType → Bool
  | .equalEqual | .bangEqual | .less | .lessEqual | .greater | .greaterEqual
  | .plus | .minus | .star | .slash => Bool.true
  | _ => Bool.false

end TokenType

end ExprFront
