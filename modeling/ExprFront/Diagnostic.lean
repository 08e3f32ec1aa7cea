import ExprFront.Text.UpperCase

/-!
Diagnostics: problems as they are reported to a reader. A report has one line with the severity, the
code and the message, one with the place, and optional lines with advice; what is empty is left out.
The numbers of lines are taken to have few enough digits to be written.
-/

namespace ExprFront

/-- A problem to report. -/
structure Diagnostic where
  message : String
  line : Int
  severity : String
  code : Option String := none
  place : String := ""
  filename : Option String := none
  help : Option String := none
  suggestions : List String := []

namespace Diagnostic

/-- A text that is there and not empty. -/
def given (s : Option String) : Option String := s.filter (· ≠ "")

/-- The line with the severity, the code and the message. -/
def headline (d : Diagnostic) : String :=
  let code :=
    match given d.code with
    | some code => "[" ++ code ++ "]"
    | none => ""
  Text.upper d.severity ++ code ++ ": " ++ d.message ++ "\n"

/-- The line with the place: a line of a named file, or a line of an unnamed text. -/
def location (d : Diagnostic) : String :=
  let source :=
    match given d.filename with
    | some name => name ++ ":"
    | none => "line "
  "  --> " ++ source ++ toString d.line ++ d.place ++ "\n"

/-- The lines with advice. -/
def advice (d : Diagnostic) : String :=
  let help :=
    match given d.help with
    | some help => "  help: " ++ help ++ "\n"
    | none => ""
  let suggestions :=
    match d.suggestions with
    | [] => ""
    | list => "  suggestions:\n" ++ String.join (list.map fun s => "    - " ++ s ++ "\n")
  help ++ suggestions

/-- The report of a problem. -/
def text (d : Diagnostic) : String := d.headline ++ d.location ++ d.advice

end Diagnostic

end ExprFront
