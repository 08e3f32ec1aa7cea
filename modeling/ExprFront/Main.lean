import ExprFront.CommandLine.Command

/-!
The command as a program: it reads files and the standard input, and writes what the outcome says.
-/

namespace ExprFront

/-- Why a file cannot be read, from the number of the reason, which may come with its sign
changed. -/
def FileError.ofCode (code : UInt32) : FileError :=
  match if code < 0x80000000 then code else -code with
  | 13 => .denied
  | 20 => .notDirectory
  | 21 => .isDirectory
  | 36 => .nameTooLong
  | _ => .missing

/-- Why a file cannot be read. -/
def FileError.ofIOError : IO.Error → FileError
  | .inappropriateType _ code _ => .ofCode code
  | .invalidArgument _ code _ => .ofCode code
  | .permissionDenied _ code _ => .ofCode code
  | _ => .missing

/-- The bytes of a file. -/
def readBytes (path : String) : IO (Except FileError (List UInt8)) := do
  try
    let bytes ← IO.FS.readBinFile path
    return .ok bytes.toList
  catch e => return .error (.ofIOError e)

/-- Writes the texts of an outcome and gives its exit code. -/
def Outcome.write (outcome : Outcome) : IO UInt32 := do
  IO.print outcome.out
  IO.eprint outcome.err
  return outcome.code.toNat.toUInt32

/-- Writes an outcome, or the words for a problem that is not handled. -/
def report : Except Escape Outcome → IO UInt32
  | .ok outcome => outcome.write
  | .error e => do
    IO.eprintln e.message
    return 1

/-- Reads lines and answers them until there are no more, or one meets a problem that is not
handled. -/
partial def prompt (mode : Mode) (input : IO.FS.Stream) : IO UInt32 := do
  IO.print promptText
  (← IO.getStdout).flush
  let line ← input.getLine
  if line.isEmpty then
    IO.println ""
    return ExitCode.ok.toNat.toUInt32
  else
    match runLine mode (Text.unifyLineEnds line.toList) with
    | .ok outcome => do
      let _ ← outcome.write
      prompt mode input
    | .error e => report (.error e)

/-- Does what the arguments of the command line ask for. -/
def execute (args : List String) : IO UInt32 := do
  match plan args with
  | .finished outcome => report (.ok outcome)
  | .failed e => report (.error e)
  | .text mode source => report (runText mode none source.toList)
  | .file mode path => do
    let bytes ← readBytes path
    report (runFile mode path (readSource (fun _ => bytes) path))
  | .prompt mode => do prompt mode (← IO.getStdin)

end ExprFront

/-- The command. -/
def main (args : List String) : IO UInt32 := ExprFront.execute args
