import ExprFront.CommandLine.Command
import ExprFront.Grammar.Descent
import ExprFront.Source.Scanner

/-!
The prompt on a console.

Here a session reads its standard input line by line and writes piece by piece to the two output
channels. There is a new scanner and a new parser for each line, with methods that may be broken
off; a break that is no error to report would end the session before its input does.
-/

namespace ExprFront

/-- What is left of the standard input, and what is written so far on the two output channels. -/
structure Console where
  input : List Char := []
  out : String := ""
  err : String := ""

/-- Why a session ends before its input does. -/
inductive Interruption where
  | scanning (b : ScanBreak)
  /-- There are tokens without an end of the input. -/
  | noEnd
  | parsing (b : Break)
  | printing (e : PrintError)
  /-- There is a token with a number that has too many digits to be written. -/
  | listing
  /-- The steps of the loop are used up. -/
  | outOfSteps

/-- A method that reads and writes on a console. -/
abbrev Dialog (α : Type) : Type := Method Interruption Console α

namespace Dialog

/-! ### Channels -/

def write (text : String) : Dialog Unit := Method.change fun c => { c with out := c.out ++ text }

def report (text : String) : Dialog Unit := Method.change fun c => { c with err := c.err ++ text }

def reportAll : List String → Dialog Unit
  | [] => return
  | text :: texts => do
    report text
    reportAll texts

/-- The next line with its line feed. At the end of the input it is empty. -/
def readLine : Dialog (List Char) := fun c =>
  (.ok (Text.cutLine c.input).1, { c with input := (Text.cutLine c.input).2 })

/-! ### One source text -/

/-- What a method of a scanner, a parser or a printer gives. -/
def await {ε α : Type} (interruption : ε → Interruption) : Except ε α → Dialog α
  | .ok a => return a
  | .error b => Method.stop (interruption b)

/-- Lists tokens, each on a line of its own. -/
def listAll : List Token → Dialog Unit
  | [] => return
  | t :: ts => do
    let text ← Method.need .listing fun _ => t.summary?
    write (text ++ "\n")
    listAll ts

/-- Lists tokens if this is asked for. -/
def list (showTokens : Bool) (tokens : List Token) : Dialog Unit :=
  if showTokens then listAll tokens else return

/-- Prints the expression of a parse, or reports its faults. -/
def conclude (result : Descent.Result) : Dialog ExitCode := do
  if result.faults.isEmpty then
    let tree ← await .printing (result.expression.getD .nil).print?
    write (tree ++ "\n")
    return .ok
  else
    reportAll (result.faults.map fun f => f.toError.diagnostic.text)
    return .dataError

/-- Scans, parses and prints one source text, with a new scanner and a new parser. -/
def run (limits : Limits) (showTokens : Bool) (filename : Option String) (text : List Char) :
    Dialog ExitCode := do
  let (found, scan) := Scanner.scan ⟨text⟩ {}
  let tokens ← await .scanning found
  list showTokens tokens
  if scan.errors.isEmpty then
    if tokens.any TokenOf.isEof then
      let result ← await .parsing (Descent.parse ⟨tokens, limits⟩ {}).1
      conclude result
    else Method.stop .noEnd
  else
    reportAll (scan.errors.map fun e => (e.diagnostic filename).text)
    return .dataError

/-! ### The prompt -/

/-- Asks for lines and runs each that is not blank, up to the end of the input. -/
def session (limits : Limits) (showTokens : Bool) : (steps : Nat) → Dialog ExitCode
  | 0 => Method.stop .outOfSteps
  | steps + 1 => do
    write promptText
    let line ← readLine
    if line.isEmpty then
      write "\n"
      return .ok
    else if line.all Text.isBlank then session limits showTokens steps
    else
      let _ ← run limits showTokens none line
      session limits showTokens steps

/-- A session at the prompt. Each line has a character at least, so there are no more lines than
characters. -/
def prompt (limits : Limits) (showTokens : Bool) : Dialog ExitCode := do
  let c ← Method.state
  session limits showTokens (c.input.length + 1)

end Dialog

end ExprFront
