import ExprFront.CommandLine.Flag
import ExprFront.Number.Integer
import ExprFront.Text.Quoted

/-!
Reading the arguments of the command line. Each argument is first classified for itself; then the
arguments are gone through from left to right. At most one argument is taken as the expression, and
what cannot be used is refused at the end. A long flag may be shortened to a part that begins no
other one; short flags may be joined behind one hyphen, and a value may follow its flag in the same
argument. A double hyphen ends the flags.
-/

namespace ExprFront

/-! ### What a single argument is -/

/-- What an argument is. -/
inductive ArgumentClass where
  | positional
  | separator
  /-- A flag by its short or its long name, with the text after it if there is one. -/
  | flag (f : Flag) (short : Bool) (attached : Option (List Char))
  | unknown

/-- An argument and what it is. -/
structure Argument where
  text : String
  kind : ArgumentClass

/-- Cuts a text at its first equals sign, if it has one. -/
def cutAtEquals (cs : List Char) : List Char × Option (List Char) :=
  let name := cs.takeWhile (· ≠ '=')
  match cs.dropWhile (· ≠ '=') with
  | [] => (name, none)
  | _ :: value => (name, some value)

/-- Whether a text has digits only, and one at least. -/
def isDigitRun (cs : List Char) : Bool :=
  !cs.isEmpty && cs.all fun c => (Text.digitValue? c).isSome

/-- Whether a text looks like a negative number: a hyphen and digits, the last of them perhaps after
a point. A line break at the end does no harm. -/
def looksNegative (cs : List Char) : Bool :=
  match cs with
  | '-' :: rest =>
    let rest := if rest.getLast? = some '\n' then rest.dropLast else rest
    let whole := rest.takeWhile (· ≠ '.')
    match rest.dropWhile (· ≠ '.') with
    | [] => isDigitRun whole
    | _ :: decimals => (whole.isEmpty || isDigitRun whole) && isDigitRun decimals
  | _ => false

/-- The flags that an argument with a hyphen may mean, when it is no full name. A long name may be
shortened; a short one stands at the front. -/
def candidates (cs : List Char) : List (String × ArgumentClass) :=
  match cs with
  | '-' :: '-' :: _ =>
    let (name, attached) := cutAtEquals cs
    Flag.names.filterMap fun (long, f) =>
      if name.isPrefixOf long.toList then some (long, .flag f false attached) else none
  | '-' :: c :: rest =>
    Flag.names.filterMap fun (short, f) =>
      if short.toList = ['-', c] then some (short, .flag f true (some rest)) else none
  | _ => []

/-- Whether a name is short. -/
def isShortName (cs : List Char) : Bool := cs.length = 2

/-- What an argument is, or the names that it may stand for if there are several. -/
def classify (arg : String) : Except (List String) ArgumentClass :=
  let cs := arg.toList
  if arg = "--" then .ok .separator
  else if !"-".isPrefixOf arg || arg = "-" then .ok .positional
  else
    match Flag.ofName? arg with
    | some f => .ok (.flag f (isShortName cs) none)
    | none =>
      let (name, attached) := cutAtEquals cs
      match Flag.ofName? (String.ofList name) with
      | some f => .ok (.flag f (isShortName name) attached)
      | none =>
        match candidates cs with
        | [(_, kind)] => .ok kind
        | [] => .ok (if looksNegative cs || cs.contains ' ' then .positional else .unknown)
        | several => .error (several.map Prod.fst)

/-! ### Going through the arguments -/

/-- What the command is asked to do. A depth limit that is not there is none at all, and not the
standard one. -/
structure Settings where
  expression : Option String := none
  file : Option String := none
  showTokens : Bool := false
  maxDepth : Option Int := some 64
  verbose : Bool := false
  deriving DecidableEq, Repr

/-- Why the command does nothing. -/
inductive Stop where
  | help
  | version
  | usage (message : String)
  deriving DecidableEq, Repr

/-- The settings so far, and the arguments that cannot be used. -/
structure Progress where
  settings : Settings := {}
  unused : List String := []

namespace Progress

/-- One more argument that cannot be used. -/
def refuse (p : Progress) (arg : String) : Progress := { p with unused := p.unused ++ [arg] }

/-- The expression. -/
def take (p : Progress) (arg : String) : Progress :=
  { p with settings := { p.settings with expression := some arg } }

/-- Whether the expression is still to come. -/
def isOpen (p : Progress) : Bool := p.settings.expression.isNone

end Progress

/-- A problem with a flag. -/
def flagProblem (f : Flag) (text : String) : Stop := .usage ("argument " ++ f.title ++ ": " ++ text)

/-- Uses a flag with its value. A double hyphen is no value. -/
def useFlag (s : Settings) : Flag × String → Except Stop Settings
  | (.help, _) => .error .help
  | (.version, _) => .error .version
  | (.file, path) => .ok { s with file := if path = "--" then none else some path }
  | (.tokens, _) => .ok { s with showTokens := true }
  | (.verbose, _) => .ok { s with verbose := true }
  | (.maxDepth, value) =>
    if value = "--" then .ok { s with maxDepth := none }
    else
      match Integer.ofText? value with
      | some n => .ok { s with maxDepth := some n }
      | none => .error (flagProblem .maxDepth ("invalid int value: " ++ Text.quoted value))

/-- Uses flags one after the other. -/
def useFlags (p : Progress) (uses : List (Flag × String)) : Except Stop Progress := do
  let settings ← uses.foldlM useFlag p.settings
  return { p with settings }

/-- The flags in one argument. -/
inductive FlagGroup where
  /-- All flags have what they need. -/
  | complete (uses : List (Flag × String))
  /-- The last flag needs the next argument. -/
  | awaiting (uses : List (Flag × String)) (f : Flag)

namespace FlagGroup

/-- The group that is a flag with nothing after it. -/
def single (f : Flag) : FlagGroup :=
  if f.takesValue then .awaiting [] f else .complete [(f, "")]

/-- One more flag in front of a group. -/
def after (f : Flag) : FlagGroup → FlagGroup
  | .complete uses => .complete ((f, "") :: uses)
  | .awaiting uses g => .awaiting ((f, "") :: uses) g

/-- A flag with a text that it does not take. -/
def ignored (f : Flag) (cs : List Char) : Except Stop FlagGroup :=
  .error (flagProblem f ("ignored explicit argument " ++ Text.quoted (String.ofList cs)))

/-- A flag with a text of its own. -/
def assigned (f : Flag) (cs : List Char) : Except Stop FlagGroup :=
  if f.takesValue then .ok (.complete [(f, String.ofList cs)]) else ignored f cs

/-- A short flag with the text after it: the value of the flag, or more short flags. -/
def joined (f : Flag) : List Char → Except Stop FlagGroup
  | [] => .ok (single f)
  | c :: cs =>
    if f.takesValue then assigned f (c :: cs)
    else
      match Flag.ofName? (String.ofList ['-', c]) with
      | none => ignored f (c :: cs)
      | some g => (joined g cs).map (after f)

/-- The flags in an argument that starts with a flag. -/
def ofArgument (f : Flag) (short : Bool) : Option (List Char) → Except Stop FlagGroup
  | none => .ok (single f)
  | some [] => assigned f []
  | some cs => if short then joined f cs else assigned f cs

end FlagGroup

/-- Goes through classified arguments. -/
def interpret (p : Progress) : List Argument → Except Stop Progress
  | [] => .ok p
  | ⟨arg, .positional⟩ :: ⟨mark, .separator⟩ :: rest =>
    if p.isOpen then interpret (p.take arg) rest
    else interpret ((p.refuse arg).refuse mark) rest
  | ⟨arg, .positional⟩ :: rest =>
    if p.isOpen then interpret (p.take arg) rest else interpret (p.refuse arg) rest
  | ⟨arg, .separator⟩ :: rest =>
    if p.isOpen then interpret p rest else interpret (p.refuse arg) rest
  | ⟨arg, .unknown⟩ :: rest => interpret (p.refuse arg) rest
  | ⟨_, .flag f short attached⟩ :: rest => do
    match ← FlagGroup.ofArgument f short attached with
    | .complete uses => interpret (← useFlags p uses) rest
    | .awaiting uses g =>
      match rest with
      | ⟨value, .positional⟩ :: more => interpret (← useFlags p (uses ++ [(g, value)])) more
      | _ => throw (flagProblem g "expected one argument")

/-- Classifies arguments; after a separator all of them are positional. -/
def classifyAll : List String → Except Stop (List Argument)
  | [] => .ok []
  | arg :: rest =>
    match classify arg with
    | .error names =>
      .error (.usage
        ("ambiguous option: " ++ arg ++ " could match " ++ ", ".intercalate names))
    | .ok .separator => .ok (⟨arg, .separator⟩ :: rest.map fun a => ⟨a, .positional⟩)
    | .ok kind => (classifyAll rest).map (⟨arg, kind⟩ :: ·)

/-- Reads the arguments of the command line. -/
def readArguments (args : List String) : Except Stop Settings := do
  let p ← interpret {} (← classifyAll args)
  if p.unused.isEmpty then return p.settings
  else throw (.usage ("unrecognized arguments: " ++ " ".intercalate p.unused))

end ExprFront
