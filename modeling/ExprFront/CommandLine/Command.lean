import ExprFront.CommandLine.Arguments
import ExprFront.Files
import ExprFront.Reading
import ExprFront.Text.Blank

/-!
The command: it scans, parses and prints an expression from its arguments, from a file, or line by
line from its standard input. What it does is an outcome: an exit code and the texts on the two
output channels.
-/

namespace ExprFront

/-! ### Outcomes -/

/-- The exit codes of the command, and the one for arguments that cannot be read. -/
inductive ExitCode where
  | ok
  | badArguments
  | usage
  | dataError
  | noInput
  deriving DecidableEq, Repr

/-- The number of an exit code. -/
def ExitCode.toNat : ExitCode → Nat
  | .ok => 0
  | .badArguments => 2
  | .usage => 64
  | .dataError => 65
  | .noInput => 66

/-- An exit code and the texts on the two output channels. -/
structure Outcome where
  code : ExitCode
  out : String := ""
  err : String := ""
  deriving DecidableEq, Repr

/-- A line of complaint. -/
def complaint (text : String) : String := commandName ++ ": " ++ text ++ "\n"

/-- The outcome of stopping at the arguments. -/
def Stop.outcome : Stop → Outcome
  | .help => { code := .ok, out := helpText }
  | .version => { code := .ok, out := versionText }
  | .usage message =>
    { code := .badArguments, err := usageText ++ complaint ("error: " ++ message) }

/-- A problem that the command does not handle. -/
inductive Escape where
  | limit (e : LimitError)
  | nullByte
  | undecodable (e : Text.Utf8Error)
  /-- A token with a payload that no literal can hold. -/
  | payload (kindName : String)
  /-- A number with too many digits to be written. -/
  | unwritten
  deriving DecidableEq

/-- The words for a problem that the command does not handle. -/
def Escape.message : Escape → String
  | .limit e => e.message
  | .nullByte => SourceError.nullByte.message ""
  | .undecodable e => e.message
  | .payload kindName => BuildError.literalMessage kindName
  | .unwritten => Integer.tooLong

/-- The problem that ends a parse early. -/
def Ending.escape : Ending → Escape
  | .payload kindName => .payload kindName
  | .unwritten => .unwritten

/-! ### One source text -/

/-- How source texts are treated. -/
structure Mode where
  limit : DepthLimit
  showTokens : Bool
  verbose : Bool

/-- Texts, each on a line of its own. -/
def onLines (texts : List String) : String := String.join (texts.map (· ++ "\n"))

/-- The lines that list the tokens of a scan. -/
def Mode.listing? (mode : Mode) (scan : Scan) : Option String :=
  if mode.showTokens then (scan.tokens.mapM TokenOf.summary?).map onLines else some ""

/-- The lines that log a parse. -/
def Mode.log (mode : Mode) (reading : Reading) : String :=
  if mode.verbose then onLines (reading.events.map Event.logLine) else ""

/-- Parses the tokens of a scan without errors and prints the expression, below a listing. -/
def runScan (mode : Mode) (listing : String) (scan : Scan) : Except Escape Outcome :=
  let reading := Reading.ofStream mode.limit scan.stream
  let log := mode.log reading
  match reading.report.verdict with
  | .accepted e =>
    match e.print? with
    | .ok tree => .ok { code := .ok, out := listing ++ tree ++ "\n", err := log }
    | .error _ => .error .unwritten
  | .rejected =>
    let reports := reading.report.faults.map fun f => f.toError.diagnostic.text
    .ok { code := .dataError, out := listing, err := log ++ String.join reports }
  | .broken ending => .error ending.escape

/-- Scans, parses and prints one source text. -/
def runText (mode : Mode) (filename : Option String) (text : List Char) :
    Except Escape Outcome :=
  let scan := Scan.ofText text
  match mode.listing? scan with
  | none => .error .unwritten
  | some listing =>
    if scan.errors.isEmpty then runScan mode listing scan
    else
      let reports := scan.errors.map fun e => (e.diagnostic filename).text
      .ok { code := .dataError, out := listing, err := String.join reports }

/-! ### The prompt -/

/-- The text that asks for a line. -/
def promptText : String := "> "

/-- What a line at the prompt does; nothing when it is blank. -/
def runLine (mode : Mode) (line : List Char) : Except Escape Outcome :=
  if line.all Text.isBlank then .ok { code := .ok } else runText mode none line

/-- The session at the prompt with the given lines. -/
def runLines (mode : Mode) : List (List Char) → Except Escape Outcome
  | [] => .ok { code := .ok, out := promptText ++ "\n" }
  | line :: rest => do
    let first ← runLine mode line
    let others ← runLines mode rest
    return {
      code := others.code
      out := promptText ++ first.out ++ others.out
      err := first.err ++ others.err }

/-- The session at the prompt with the given standard input. -/
def runPrompt (mode : Mode) (input : List Char) : Except Escape Outcome :=
  runLines mode (Text.lines input)

/-! ### The whole command -/

/-- What the arguments ask for. -/
inductive Plan where
  | finished (outcome : Outcome)
  | text (mode : Mode) (source : String)
  | file (mode : Mode) (path : String)
  | prompt (mode : Mode)
  | failed (e : Escape)

/-- The depth limit in the settings as a value; where there is none it is the empty list. -/
def Settings.limitValue (s : Settings) : Value :=
  match s.maxDepth with
  | some n => .scalar (.int n)
  | none => .list []

/-- What the settings ask for. An empty file name is none. -/
def Settings.plan (s : Settings) : Plan :=
  let file := s.file.filter (· ≠ "")
  if s.expression.isSome && file.isSome then
    .finished
      { code := .usage, err := complaint "give an expression or --file, not both" }
  else
    match DepthLimit.ofValue? s.limitValue with
    | .error (.belowOne v) =>
      .finished { code := .usage, err := complaint (LimitError.belowOne v).message }
    | .error e => .failed (.limit e)
    | .ok limit =>
      let mode : Mode := ⟨limit, s.showTokens, s.verbose⟩
      match file, s.expression with
      | some path, _ => .file mode path
      | none, some source => .text mode source
      | none, none => .prompt mode

/-- What the arguments of the command line ask for. -/
def plan (args : List String) : Plan :=
  match readArguments args with
  | .error stop => .finished stop.outcome
  | .ok settings => settings.plan

/-- The name under which the command logs. -/
def commandLogName : String := "lexic.cli"

/-- The line that logs the reading of a file. -/
def Mode.fileLog (mode : Mode) (path : String) (text : List Char) : String :=
  if mode.verbose then
    "DEBUG " ++ commandLogName ++ ": read " ++ toString text.length ++ " characters from " ++ path
      ++ "\n"
  else ""

/-- Runs the command on the source text of a file, or on the reason why there is none. -/
def runFile (mode : Mode) (path : String) (source : Except SourceError (List Char)) :
    Except Escape Outcome :=
  match source with
  | .ok text => do
    let outcome ← runText mode (some path) text
    return { outcome with err := mode.fileLog path text ++ outcome.err }
  | .error (.file e) =>
    .ok { code := .noInput, err := complaint ("cannot read " ++ path ++ ": " ++ e.reason) }
  | .error .nullByte => .error .nullByte
  | .error (.undecodable e) => .error (.undecodable e)

/-- Runs the command with the given arguments, files and standard input. -/
def runCommand (args : List String) (read : String → Except FileError (List UInt8))
    (input : List Char) : Except Escape Outcome :=
  match plan args with
  | .finished outcome => .ok outcome
  | .text mode source => runText mode none source.toList
  | .file mode path => runFile mode path (readSource read path)
  | .prompt mode => runPrompt mode input
  | .failed e => .error e

end ExprFront
