/-!
The flags of the command line, their names and the texts that explain them.
-/

namespace ExprFront

/-- The flags of the command line. -/
inductive Flag where
  | help
  | file
  | tokens
  | maxDepth
  | verbose
  | version
  deriving DecidableEq, Repr

namespace Flag

/-- The names of the flags. A name of two characters is short, the others are long. -/
def names : List (String × Flag) :=
  [("-h", .help), ("--help", .help), ("-f", .file), ("--file", .file), ("--tokens", .tokens),
   ("--max-depth", .maxDepth), ("-v", .verbose), ("--verbose", .verbose), ("--version", .version)]

/-- Whether a flag comes with a value. -/
def takesValue : Flag → Bool
  | .file | .maxDepth => true
  | _ => false

/-- A flag by all its names, for messages. -/
def title (f : Flag) : String :=
  "/".intercalate ((names.filter fun (_, g) => g = f).map Prod.fst)

/-- The flag with a given name. -/
def ofName? (name : String) : Option Flag := names.lookup name

end Flag

/-! ### Texts -/

/-- The name of the command. -/
def commandName : String := "lexic"

/-- The version of the command. -/
def versionNumber : String := "0.1.0"

/-- The version of the command, with its name. -/
def versionText : String := commandName ++ " " ++ versionNumber ++ "\n"

/-- How the command is called. -/
def usageText : String :=
  "usage: " ++ commandName ++ " [-h] [-f FILE] [--tokens] [--max-depth MAX_DEPTH] [-v]\n" ++
  "             [--version]\n" ++
  "             [expression]\n"

/-- What the command does, and what its arguments mean. -/
def helpText : String :=
  usageText ++ "\n" ++
  "Parse an expression and print its syntax tree in prefix form\n\n" ++
  "positional arguments:\n" ++
  "  expression            Expression source text\n\n" ++
  "options:\n" ++
  "  -h, --help            show this help message and exit\n" ++
  "  -f FILE, --file FILE  Read the expression from a file\n" ++
  "  --tokens              Print the scanned tokens\n" ++
  "  --max-depth MAX_DEPTH\n" ++
  "                        Maximum nesting depth (default: 64)\n" ++
  "  -v, --verbose         Enable debug logging\n" ++
  "  --version             show program's version number and exit\n\n" ++
  "Examples:\n" ++
  "    " ++ commandName ++ " \"1 + 2 * 3\"            # (+ 1 (* 2 3))\n" ++
  "    " ++ commandName ++ " \"(1 + 2) * 3\"          # (* (group (+ 1 2)) 3)\n" ++
  "    " ++ commandName ++ " -f expr.lx --tokens    # Show tokens before the tree\n" ++
  "    " ++ commandName ++ "                        # Interactive prompt\n" ++
  "        \n"

end ExprFront
