import ExprFront.Expr.Tree

/-!
Values: everything that a token may carry and that an expression may be built from. Beside the
scalars these are lists and tables of values, tokens and expressions. Only a scalar can become a
literal; the other values are known by the names of their kinds, by their written form and by their
equality.

What is nested in a value takes levels of the stack when the value is written or printed. How many
there are is left open: `Value.writtenIn` and `Value.printIn` take their number, and
`Value.written?` and `Value.print?` have as much room as it takes.
-/

namespace ExprFront

/-- A value that a caller may hand over. -/
inductive Value where
  | scalar (s : Scalar)
  | list (items : List Value)
  /-- A table of values for scalars, which are all different. -/
  | table (entries : List (Scalar × Value))
  | token (t : TokenOf Value)
  | expression (e : Tree Value Unit)

/-- A token with any payload. -/
abbrev Token := TokenOf Value

/-- An expression tree without bare expressions. -/
abbrev Expr := Tree Value Empty

/-- An expression tree in which bare expressions may stand. -/
abbrev OpenExpr := Tree Value Unit

/-- No payload. -/
def Value.nil : Value := .scalar .nil

/-- The name of the kind of a value in messages. -/
def Value.kindName : Value → String
  | .scalar s => s.kindName
  | .list _ => "list"
  | .table _ => "dict"
  | .token _ => "Token"
  | .expression e => e.kindName

/-! ### Written form -/

/-- Why a value is not written. -/
inductive Unwritten where
  /-- A number has too many digits. -/
  | tooManyDigits
  /-- The stack has no room for a level of nesting. -/
  | stackFull
  deriving DecidableEq

/-- A text that is there unless a number in it has too many digits. -/
def Unwritten.given : Option String → Except Unwritten String
  | some text => .ok text
  | none => .error .tooManyDigits

mutual

/-- A value written so that its kind can be seen. There is room on the stack for a number of levels,
or for all that it takes. -/
def Value.writtenIn : (room : Option Nat) → Value → Except Unwritten String
  | _, .scalar s => Unwritten.given s.written?
  | room, .list items => do
    let room ← roomBelow .stackFull room
    let texts ← Value.writtenItemsIn room items
    return "[" ++ ", ".intercalate texts ++ "]"
  | room, .table entries => do
    let room ← roomBelow .stackFull room
    let texts ← Value.writtenEntriesIn room entries
    return "\x7b" ++ ", ".intercalate texts ++ "\x7d"
  | room, .token t => TokenOf.writtenIn room t
  | room, .expression e => Tree.writtenIn room e

/-- Values, each written for itself. -/
def Value.writtenItemsIn : (room : Option Nat) → List Value → Except Unwritten (List String)
  | _, [] => .ok []
  | room, v :: items => do
    let text ← Value.writtenIn room v
    let texts ← Value.writtenItemsIn room items
    return text :: texts

/-- The entries of a table, each written for itself. -/
def Value.writtenEntriesIn :
    (room : Option Nat) → List (Scalar × Value) → Except Unwritten (List String)
  | _, [] => .ok []
  | room, (key, v) :: entries => do
    let keyText ← Unwritten.given key.written?
    let text ← Value.writtenIn room v
    let texts ← Value.writtenEntriesIn room entries
    return (keyText ++ ": " ++ text) :: texts

/-- A token with all that it carries. -/
def TokenOf.writtenIn : (room : Option Nat) → TokenOf Value → Except Unwritten String
  | room, ⟨type, lexeme, payload, line⟩ => do
    let room ← roomBelow .stackFull room
    let payload ← Value.writtenIn room payload
    let line ← Unwritten.given (Integer.text? line)
    return "Token(" ++ type.name ++ ", " ++ Text.quoted lexeme ++ ", " ++ payload ++ ", " ++ line
      ++ ")"

/-- A node with the names and the written forms of all that it holds. For a bare expression, the
place where it is kept is left out. -/
def Tree.writtenIn : (room : Option Nat) → Tree Value Unit → Except Unwritten String
  | _, .literal value => do
    let value ← Unwritten.given value.written?
    return "Literal(value=" ++ value ++ ")"
  | room, .grouping inner => do
    let room ← roomBelow .stackFull room
    let inner ← Tree.writtenIn room inner
    return "Grouping(inner=" ++ inner ++ ")"
  | room, .unary operator operand => do
    let room ← roomBelow .stackFull room
    let operator ← TokenOf.writtenIn room operator
    let operand ← Tree.writtenIn room operand
    return "Unary(operator=" ++ operator ++ ", operand=" ++ operand ++ ")"
  | room, .binary left operator right => do
    let room ← roomBelow .stackFull room
    let left ← Tree.writtenIn room left
    let operator ← TokenOf.writtenIn room operator
    let right ← Tree.writtenIn room right
    return "Binary(left=" ++ left ++ ", operator=" ++ operator ++ ", right=" ++ right ++ ")"
  | _, .bare _ => .ok "<lexic.parser.ast_nodes.Expression object>"

end

/-- A value written with all the room that it takes, unless a number in it has too many digits. -/
def Value.written? (v : Value) : Option String := (v.writtenIn none).toOption

/-- A token written with all the room that it takes, unless a number in it has too many digits. -/
def TokenOf.written? (t : Token) : Option String := (t.writtenIn none).toOption

/-- A token for a listing: its type and text, and its payload unless that is nil. -/
def TokenOf.summary? (t : Token) : Option String :=
  match t.payload with
  | .scalar .nil => some (t.type.name ++ "(" ++ Text.quoted t.lexeme ++ ")")
  | v => do
    let payload ← v.written?
    return t.type.name ++ "(" ++ Text.quoted t.lexeme ++ " -> " ++ payload ++ ")"

/-- A value as plain text. -/
def Value.plain? : Value → Option String
  | .scalar s => s.plain?
  | .token t => t.summary?
  | v => v.written?

/-- The text of a value where a literal is printed. -/
def Value.canonical? : Value → Option String
  | .scalar s => s.canonical?
  | v => v.plain?

/-! ### Printing -/

/-- Why a value is not printed. -/
inductive PrintError where
  /-- The value, or one in it, is of a kind that has no prefix form. -/
  | noNode (kindName : String)
  /-- A number has too many digits. -/
  | tooManyDigits
  /-- The stack is full. -/
  | stackFull
  deriving DecidableEq

/-- The words for a value that is not printed. For a full stack they are only how these begin. -/
def PrintError.message : PrintError → String
  | .noNode kindName => "Cannot print " ++ kindName ++ ": not an expression node"
  | .tooManyDigits => Integer.tooLong
  | .stackFull => "maximum recursion depth exceeded"

/-- Why a tree is not printed, as for any value. -/
def Tree.Unprinted.error : Unprinted Unit → PrintError
  | .bare mark => .noNode (Tree.bare mark : OpenExpr).kindName
  | .tooManyDigits => .tooManyDigits
  | .stackFull => .stackFull

/-- The prefix form of a value, which has to be an expression without bare expressions. There is
room on the stack for a number of levels, or for all that it takes. -/
def Value.printIn (room : Option Nat) : Value → Except PrintError String
  | .expression e => (e.printIn room).mapError Tree.Unprinted.error
  | v => .error (.noNode v.kindName)

/-- The prefix form of a value, with all the room that it takes. -/
def Value.print? (v : Value) : Except PrintError String := v.printIn none

/-! ### Equality -/

mutual

/-- Whether two values are equal: scalars by `Scalar.same`, lists item by item, tables by what their
keys are given, tokens in all four parts, nodes in kind and parts. -/
def Value.same : Value → Value → Bool
  | .scalar s, .scalar t => s.same t
  | .list items, .list items' => Value.sameItems items items'
  | .table entries, .table entries' =>
    entries.length == entries'.length && Value.sameEntries entries entries'
  | .token t, .token u => TokenOf.same t u
  | .expression e, .expression f => Tree.same e f
  | _, _ => false
termination_by structural v => v

/-- Whether two lists have equal items. -/
def Value.sameItems : List Value → List Value → Bool
  | [], [] => true
  | v :: items, w :: items' => Value.same v w && Value.sameItems items items'
  | _, _ => false
termination_by structural items => items

/-- Whether each entry of a table has an equal one in another table. -/
def Value.sameEntries : List (Scalar × Value) → List (Scalar × Value) → Bool
  | [], _ => true
  | (key, v) :: entries, entries' =>
    entries'.any (fun entry => key.same entry.1 && Value.same v entry.2)
      && Value.sameEntries entries entries'
termination_by structural entries => entries

/-- Whether two tokens have the same type, text, payload and line. -/
def TokenOf.same : TokenOf Value → TokenOf Value → Bool
  | ⟨type, lexeme, payload, line⟩, ⟨type', lexeme', payload', line'⟩ =>
    type == type' && lexeme == lexeme' && Value.same payload payload' && line == line'
termination_by structural t => t

/-- Whether two trees have the same shape, with equal operators and literals. A bare expression is
equal to none, since nothing is known of it. -/
def Tree.same : Tree Value Unit → Tree Value Unit → Bool
  | .literal v, .literal w => v.same w
  | .grouping e, .grouping f => Tree.same e f
  | .unary o e, .unary p f => TokenOf.same o p && Tree.same e f
  | .binary l o r, .binary l' o' r' => Tree.same l l' && TokenOf.same o o' && Tree.same r r'
  | _, _ => false
termination_by structural e => e

end

end ExprFront
