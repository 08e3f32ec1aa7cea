import ExprFront.Grammar.Parse

/-!
Parsing step by step. A session holds a stream of tokens, a position at or before its end of the
input, and the faults of the last complete parse. Single steps move the position; only a complete
parse replaces the faults, and it starts from the front whatever was done before.
-/

namespace ExprFront

/-- A stream in the middle of being parsed. -/
structure ParseSession where
  stream : TokenStream
  limits : Limits
  position : Nat := 0
  faults : List Fault := []

/-- A single step. -/
inductive ParseSession.Step where
  /-- A complete parse. -/
  | parse
  /-- One rule at the position. -/
  | rule (name : RuleName)
  /-- A fragment at the position. -/
  | fragment
  /-- Over a token of one of the given types. -/
  | accept (types : List TokenType)
  /-- Whether the next token has a type. -/
  | check (type : TokenType)
  | atEnd
  /-- Over one token. -/
  | advance
  | next
  | previous
  /-- Over a token that is required. -/
  | require (type : TokenType) (expected context : String)
  /-- On to the next place at which parsing may go on. -/
  | recover

/-- What a step gives. -/
inductive ParseSession.Answer where
  | report (r : Report)
  | expression (e : Expr)
  | token (t : Token)
  | truth (b : Bool)
  | done
  | fault (f : Fault)
  | payloadRefused (kindName : String)
  | stackFull

namespace ParseSession

/-- The tokens of the body from the position on. -/
def rest (p : ParseSession) : List Token := p.stream.body.drop p.position

/-- The session moved to the front of a rest of the body. -/
def moveTo (p : ParseSession) (rest : List Token) : ParseSession :=
  { p with position := p.stream.position rest }

/-- The next token. -/
def next (p : ParseSession) : Token := p.stream.next p.rest

/-- The token before the position. -/
def previous (p : ParseSession) : Token := p.stream.previous p.position

/-- Whether the next token has a type. The end of the input has none. -/
def check (p : ParseSession) (type : TokenType) : Bool := (p.rest.head?.any fun t => t.type == type)

/-- The session one token further, unless it is at the end of the input. -/
def advance (p : ParseSession) : ParseSession := p.moveTo (p.rest.drop 1)

/-- What a rule gives at the position. -/
def run (p : ParseSession) (rule : Rule) : Answer × ParseSession :=
  match rule p.rest with
  | .ok (e, rest) => (.expression e, p.moveTo rest)
  | .error ⟨obstacle, rest⟩ =>
    let answer :=
      match obstacle with
      | .fault cause => Answer.fault ⟨cause, p.stream.next rest⟩
      | .payload kindName => .payloadRefused kindName
      | .stackFull => .stackFull
    (answer, p.moveTo rest)

/-- A rule that reads an expression moves the session behind it. -/
theorem run_of_ok {p : ParseSession} {rule : Rule} {e : Expr} {rest : List Token}
    (h : rule p.rest = .ok (e, rest)) : p.run rule = (.expression e, p.moveTo rest) := by
  rw [run, h]

/-- A rule that finds a fault moves the session to its token. -/
theorem run_of_fault {p : ParseSession} {rule : Rule} {c : Cause} {rest : List Token}
    (h : rule p.rest = .error ⟨.fault c, rest⟩) :
    p.run rule = (.fault ⟨c, p.stream.next rest⟩, p.moveTo rest) := by
  rw [run, h]

/-- One step: its answer and the session after it. -/
def step (p : ParseSession) : Step → Answer × ParseSession
  | .parse =>
    let report := p.stream.parse p.limits
    (.report report, { p.moveTo report.rest with faults := report.faults })
  | .rule name => p.run (name.rule p.limits)
  | .fragment => p.run (ExprFront.fragment p.limits)
  | .accept types =>
    if types.any p.check then (.truth true, p.advance) else (.truth false, p)
  | .check type => (.truth (p.check type), p)
  | .atEnd => (.truth p.rest.isEmpty, p)
  | .advance => (.token p.advance.previous, p.advance)
  | .next => (.token p.next, p)
  | .previous => (.token p.previous, p)
  | .require type expected context =>
    if p.check type then (.token p.advance.previous, p.advance)
    else (.fault ⟨.missingToken expected context, p.next⟩, p)
  | .recover => (.done, p.moveTo (Recovery.afterSemicolon p.rest))

end ParseSession

end ExprFront
