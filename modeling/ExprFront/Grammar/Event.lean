import ExprFront.Grammar.Parse

/-!
The events of a parse, as they are logged: each fault, the number of tokens passed over after it,
and the end of a parse that is not broken off.
-/

namespace ExprFront

/-- Something that happens during a parse. -/
inductive Event where
  | fault (f : Fault)
  | skipped (count : Nat)
  | failed (count : Nat)
  | parsed (tokens : Nat) (kindName : String)

namespace Event

/-- The words for an event. -/
def message : Event → String
  | .fault f =>
    "line " ++ toString f.token.line ++ ": " ++ f.cause.message ++ " (" ++ f.cause.kind.code ++ ")"
  | .skipped count => "synchronized: skipped " ++ toString count ++ " token(s)"
  | .failed count => "parse failed with " ++ toString count ++ " error(s)"
  | .parsed tokens kindName => "parsed " ++ toString tokens ++ " tokens into " ++ kindName

/-- The name under which parses are logged. -/
def logName : String := "lexic.parser.parser"

/-- The line for an event in the log. -/
def logLine (e : Event) : String := "DEBUG " ++ logName ++ ": " ++ e.message

end Event

/-- The events of a parse of a stream. -/
def Report.events (s : TokenStream) (r : Report) : List Event :=
  let mishaps := r.mishaps.flatMap fun m => [.fault m.fault, .skipped m.skipped]
  let ending :=
    match r.verdict with
    | .accepted e => [.parsed (s.position r.rest + 1) e.kindName]
    | .rejected => [.failed r.mishaps.length]
    | .broken _ => []
  mishaps ++ ending

end ExprFront
