import ExprFront.Token.TokenType

/-!
Tokens. A token carries its type, its text, a payload and the line on which it starts. What payloads
there are is left open here: it is settled together with the expressions, which hold tokens
themselves.
-/

namespace ExprFront

/-- A token with a payload of type `P`. -/
structure TokenOf (P : Type) where
  type : TokenType
  lexeme : String
  payload : P
  line : Int

namespace TokenOf

variable {P : Type}

/-- Whether a token marks the end of the input. -/
def isEof (t : TokenOf P) : Bool := t.type == .eof

/-- Where a problem at a token is, in words. -/
def place (t : TokenOf P) : String :=
  if t.isEof then " at end" else " at '" ++ t.lexeme ++ "'"

end TokenOf

end ExprFront
