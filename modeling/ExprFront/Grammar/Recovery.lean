import ExprFront.Value

/-!
Recovery after a syntax error. Parsing goes on after the next semicolon, or stops at the end of the
input. The token at which the error was found is passed over in any case, unless it is the end of
the input.
-/

namespace ExprFront

namespace Recovery

/-- Whether parsing may go on at a token that comes after another one. -/
def isBoundary (previous : Option Token) (current : Token) : Bool :=
  (previous.any fun t => t.type == .semicolon) || current.isEof

/-- The number of tokens from the one after `previous` up to the next boundary, if there is one. -/
def toBoundary? (previous : Token) : List Token → Option Nat
  | [] => none
  | t :: ts =>
    if isBoundary (some previous) t then some 0 else (toBoundary? t ts).map (· + 1)

/-- The number of tokens to pass over at the front of a list, if it has a boundary. -/
def skipped? : List Token → Option Nat
  | [] => none
  | t :: ts => if t.isEof then some 0 else (toBoundary? t ts).map (· + 1)

/-- The position in a list at which parsing goes on, starting from a given one. A negative position
counts from the end, and a search that starts there goes on at the front. -/
def resume? (ts : List Token) (position : Int) : Option Int :=
  let size : Int := ts.length
  if 0 ≤ position then (skipped? (ts.drop position.toNat)).map (position + ·)
  else if 0 ≤ size + position then
    (skipped? (ts.drop (size + position).toNat ++ ts)).map (position + ·)
  else none

/-- The tokens after the next semicolon, in a list without an end of the input. -/
def afterSemicolon : List Token → List Token
  | [] => []
  | t :: ts => if t.type = .semicolon then ts else afterSemicolon ts

end Recovery

end ExprFront
