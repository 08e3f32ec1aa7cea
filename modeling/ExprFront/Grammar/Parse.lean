import ExprFront.Grammar.Recovery
import ExprFront.Grammar.Rule
import ExprFront.Grammar.TokenStream

/-!
Parsing a whole stream of tokens. A stream is read in fragments: an expression with an optional
semicolon, up to the end of the input. A fragment that breaks the grammar is given up at its first
fault, and the next one starts after the next semicolon. The stream has an expression only if its
first fragment has one; otherwise the report holds the faults of all fragments.
-/

namespace ExprFront

/-- The tokens after a semicolon, if there is one at the front. -/
def optionalSemicolon : List Token → List Token
  | [] => []
  | t :: ts => if t.type = .semicolon then ts else t :: ts

/-- An expression and an optional semicolon, with nothing after them. -/
def fragment (limits : Limits) : Rule := fun ts => do
  let (e, rest) ← RuleName.expression.rule limits ts
  match optionalSemicolon rest with
  | [] => return (e, [])
  | t :: more => throw ⟨.fault .trailingToken, t :: more⟩

/-- A fault, and the number of tokens that are passed over after it. -/
structure Mishap where
  fault : Fault
  skipped : Nat

/-- What ends a parse early. -/
inductive Ending where
  /-- A token whose payload no literal can hold. -/
  | payload (kindName : String)
  /-- A full stack, where the depth limit has too many digits to be written in a fault. -/
  | unwritten
  deriving DecidableEq, Repr

/-- How a parse ends. -/
inductive Verdict where
  /-- With an expression. -/
  | accepted (e : Expr)
  /-- With faults. -/
  | rejected
  /-- Early. -/
  | broken (ending : Ending)

/-- What comes of a parse: the faults in order, the end and the tokens not read. -/
structure Report where
  mishaps : List Mishap
  verdict : Verdict
  rest : List Token

namespace Report

/-- The faults of a parse. -/
def faults (r : Report) : List Fault := r.mishaps.map Mishap.fault

/-- A report with one more fault before it; an expression after a fault does not count. -/
def after (mishap : Mishap) (r : Report) : Report where
  mishaps := mishap :: r.mishaps
  verdict :=
    match r.verdict with
    | .accepted _ => .rejected
    | verdict => verdict
  rest := r.rest

end Report

/-- The cause that is reported for an obstacle, unless the obstacle ends the parse. A full stack is
reported like a nesting beyond the limit, for which the limit is written. -/
def Obstacle.cause (limits : Limits) : Obstacle → Except Ending Cause
  | .fault cause => .ok cause
  | .stackFull =>
    if limits.depth.text?.isSome then .ok (.tooDeep limits.depth.value) else .error .unwritten
  | .payload kindName => .error (.payload kindName)

/-- Reads at most `bound` fragments. -/
def fragments (limits : Limits) (eof : Token) : (bound : Nat) → List Token → Report
  | 0, ts => ⟨[], .rejected, ts⟩
  | bound + 1, ts =>
    match fragment limits ts with
    | .ok (e, rest) => ⟨[], .accepted e, rest⟩
    | .error failure =>
      match failure.obstacle.cause limits with
      | .error ending => ⟨[], .broken ending, failure.rest⟩
      | .ok cause =>
        let next := Recovery.afterSemicolon failure.rest
        let mishap : Mishap :=
          ⟨⟨cause, failure.rest.headD eof⟩, failure.rest.length - next.length⟩
        if next.isEmpty then ⟨[mishap], .rejected, []⟩
        else (fragments limits eof bound next).after mishap

/-- The frames of the stack that expressions may take. -/
def stackFrames : Nat := 1000

/-- The limits of a parser with a given depth limit. -/
def Limits.withDepth (limit : DepthLimit) : Limits := ⟨limit, stackFrames⟩

/-- Parses a stream. Each fragment after the first one starts after a semicolon of its own, so there
are no more of them than tokens, and one. -/
def TokenStream.parse (limits : Limits) (s : TokenStream) : Report :=
  fragments limits s.eof (s.body.length + 1) s.body

end ExprFront
