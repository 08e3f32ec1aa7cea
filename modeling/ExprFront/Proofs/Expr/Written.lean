import ExprFront.Construction
import ExprFront.Proofs.Expr.Walk
import ExprFront.Proofs.Number.Integer

/-!
What is written.

A value is written unless there is a reason not to (`Unwritten.Prevents`): one of the whole numbers
in it (`Value.numbers`) has too many digits, or it is nested more deeply (`Value.levels`) than there
is room for on the stack. `Value.writtenIn_failsBy` goes through values, lists, tables, tokens and
trees as they are nested in each other.
-/

namespace ExprFront

/-! ### Numbers and levels -/

/-- The whole number that a scalar may be. -/
def Scalar.numbers : Scalar → List Int
  | .int n => [n]
  | _ => []

mutual

/-- The whole numbers that are written with a value. -/
def Value.numbers : Value → List Int
  | .scalar s => s.numbers
  | .list items => Value.numbersOfItems items
  | .table entries => Value.numbersOfEntries entries
  | .token t => TokenOf.numbers t
  | .expression e => Tree.numbers e

/-- The whole numbers in the items of a list. -/
def Value.numbersOfItems : List Value → List Int
  | [] => []
  | v :: items => Value.numbers v ++ Value.numbersOfItems items

/-- The whole numbers in the entries of a table. -/
def Value.numbersOfEntries : List (Scalar × Value) → List Int
  | [] => []
  | (key, v) :: entries => key.numbers ++ (Value.numbers v ++ Value.numbersOfEntries entries)

/-- The whole numbers in a token, of which one is its line. -/
def TokenOf.numbers : TokenOf Value → List Int
  | ⟨_, _, payload, line⟩ => Value.numbers payload ++ [line]

/-- The whole numbers in a tree, be they literals or parts of operators. -/
def Tree.numbers : Tree Value Unit → List Int
  | .literal value => value.numbers
  | .grouping inner => Tree.numbers inner
  | .unary operator operand => TokenOf.numbers operator ++ Tree.numbers operand
  | .binary left operator right =>
    Tree.numbers left ++ (TokenOf.numbers operator ++ Tree.numbers right)
  | .bare _ => []

end

mutual

/-- The levels of nesting in a value. -/
def Value.levels : Value → Nat
  | .scalar _ => 0
  | .list items => Value.levelsOfItems items + 1
  | .table entries => Value.levelsOfEntries entries + 1
  | .token t => TokenOf.levels t
  | .expression e => Tree.levels e

/-- The levels of nesting in the items of a list. -/
def Value.levelsOfItems : List Value → Nat
  | [] => 0
  | v :: items => max (Value.levels v) (Value.levelsOfItems items)

/-- The levels of nesting in the entries of a table. -/
def Value.levelsOfEntries : List (Scalar × Value) → Nat
  | [] => 0
  | (_, v) :: entries => max (Value.levels v) (Value.levelsOfEntries entries)

/-- The levels of nesting in a token, which holds a payload. -/
def TokenOf.levels : TokenOf Value → Nat
  | ⟨_, _, payload, _⟩ => Value.levels payload + 1

/-- The levels of nesting in a tree, with those in its operators. -/
def Tree.levels : Tree Value Unit → Nat
  | .literal _ => 0
  | .grouping inner => Tree.levels inner + 1
  | .unary operator operand => max (TokenOf.levels operator) (Tree.levels operand) + 1
  | .binary left operator right =>
    max (Tree.levels left) (max (TokenOf.levels operator) (Tree.levels right)) + 1
  | .bare _ => 0

end

/-! ### Reasons -/

namespace Unwritten

/-- The reasons not to write what has some whole numbers in it and some levels of nesting. -/
def Prevents (room : Option Nat) (numbers : List Int) (levels : Nat) : Unwritten → Prop
  | .tooManyDigits => ∃ n ∈ numbers, 10 ^ Integer.maxDigits ≤ n.natAbs
  | .stackFull => ∃ limit, room = some limit ∧ limit < levels

variable {α β : Type} {room : Option Nat} {ns ms : List Int} {k l : Nat}

/-- There is no reason not to write nothing. -/
lemma not_prevents_nil (reason : Unwritten) : ¬reason.Prevents room [] 0 := by
  cases reason <;> simp [Prevents]

lemma prevents_append {reason : Unwritten} :
    reason.Prevents room (ns ++ ms) (max k l) ↔
      reason.Prevents room ns k ∨ reason.Prevents room ms l := by
  cases reason with
  | tooManyDigits => simp [Prevents, or_and_right, exists_or]
  | stackFull => cases room <;> simp [Prevents]

/-- What is written in two steps fails for the reasons of both. -/
lemma failsBy_append {x : Except Unwritten α} {f : α → Except Unwritten β}
    (hx : FailsBy (Prevents room ns k) x) (hf : ∀ a, FailsBy (Prevents room ms l) (f a)) :
    FailsBy (Prevents room (ns ++ ms) (max k l)) (x >>= f) :=
  (hx.bind hf).congr fun _ => prevents_append.symm

/-- One level further down there is less room, but less is nested, too. -/
lemma failsBy_nested {f : Option Nat → Except Unwritten α}
    (h : ∀ below, FailsBy (Prevents below ns k) (f below)) :
    FailsBy (Prevents room ns (k + 1)) (roomBelow .stackFull room >>= f) := by
  rcases room with _ | _ | limit
  · refine (h none).congr fun reason => ?_
    cases reason <;> simp [Prevents]
  · exact ⟨0, rfl, Nat.succ_pos k⟩
  · refine (h (some limit)).congr fun reason => ?_
    cases reason <;> simp [Prevents]

/-- A number is written unless it has too many digits. -/
lemma given_text?_failsBy (n : Int) :
    FailsBy (Prevents room [n] 0) (given (Integer.text? n)) := by
  cases h : Integer.text? n with
  | none =>
      refine ⟨n, List.mem_singleton_self n, ?_⟩
      rwa [← Integer.textBound_eq, ← Integer.text?_eq_none_iff]
  | some text =>
      have hlt := (Integer.text?_eq_some_iff.mp h).1
      rintro (_ | _)
      · simpa [Prevents, ← Integer.textBound_eq] using hlt
      · simp [Prevents]

/-- A scalar is written unless it is a number with too many digits. -/
lemma given_written?_failsBy (s : Scalar) :
    FailsBy (Prevents room s.numbers 0) (given s.written?) := by
  cases s with
  | int n => exact given_text?_failsBy n
  | _ => exact not_prevents_nil

end Unwritten

/-! ### Values -/

open Unwritten

mutual

/-- A value is written unless there is a reason not to, with any room. -/
lemma Value.writtenIn_failsBy : (room : Option Nat) → (v : Value) →
    FailsBy (Prevents room v.numbers v.levels) (v.writtenIn room)
  | room, .scalar s => given_written?_failsBy s
  | room, .list items => by
      rw [Value.writtenIn, Value.numbers, Value.levels]
      refine failsBy_nested fun below => ?_
      rw [bind_pure_comp]
      exact (Value.writtenItemsIn_failsBy below items).map _
  | room, .table entries => by
      rw [Value.writtenIn, Value.numbers, Value.levels]
      refine failsBy_nested fun below => ?_
      rw [bind_pure_comp]
      exact (Value.writtenEntriesIn_failsBy below entries).map _
  | room, .token t => TokenOf.writtenIn_failsBy room t
  | room, .expression e => Tree.writtenIn_failsBy room e

/-- The same for the items of a list. -/
lemma Value.writtenItemsIn_failsBy : (room : Option Nat) → (items : List Value) →
    FailsBy (Prevents room (Value.numbersOfItems items) (Value.levelsOfItems items))
      (Value.writtenItemsIn room items)
  | room, [] => not_prevents_nil
  | room, v :: items => by
      rw [Value.writtenItemsIn, Value.numbersOfItems, Value.levelsOfItems]
      simp only [bind_pure_comp]
      exact failsBy_append (v.writtenIn_failsBy room) fun _ =>
        (Value.writtenItemsIn_failsBy room items).map _

/-- The same for the entries of a table. -/
lemma Value.writtenEntriesIn_failsBy : (room : Option Nat) → (entries : List (Scalar × Value)) →
    FailsBy (Prevents room (Value.numbersOfEntries entries) (Value.levelsOfEntries entries))
      (Value.writtenEntriesIn room entries)
  | room, [] => not_prevents_nil
  | room, (key, v) :: entries => by
      rw [Value.writtenEntriesIn, Value.numbersOfEntries, Value.levelsOfEntries,
        ← Nat.zero_max (max _ _)]
      simp only [bind_pure_comp]
      exact failsBy_append (given_written?_failsBy key) fun _ =>
        failsBy_append (v.writtenIn_failsBy room) fun _ =>
          (Value.writtenEntriesIn_failsBy room entries).map _

/-- The same for a token. -/
lemma TokenOf.writtenIn_failsBy : (room : Option Nat) → (t : Token) →
    FailsBy (Prevents room (TokenOf.numbers t) (TokenOf.levels t)) (TokenOf.writtenIn room t)
  | room, ⟨type, lexeme, payload, line⟩ => by
      rw [TokenOf.writtenIn, TokenOf.numbers, TokenOf.levels, ← Nat.max_zero payload.levels]
      refine failsBy_nested fun below => ?_
      simp only [bind_pure_comp]
      exact failsBy_append (payload.writtenIn_failsBy below) fun _ =>
        (given_text?_failsBy line).map _

/-- The same for a tree. -/
lemma Tree.writtenIn_failsBy : (room : Option Nat) → (e : OpenExpr) →
    FailsBy (Prevents room (Tree.numbers e) (Tree.levels e)) (Tree.writtenIn room e)
  | room, .literal value => by
      rw [Tree.writtenIn, bind_pure_comp]
      exact (given_written?_failsBy value).map _
  | room, .grouping inner => by
      rw [Tree.writtenIn, Tree.numbers, Tree.levels]
      refine failsBy_nested fun below => ?_
      rw [bind_pure_comp]
      exact (Tree.writtenIn_failsBy below inner).map _
  | room, .unary operator operand => by
      rw [Tree.writtenIn, Tree.numbers, Tree.levels]
      refine failsBy_nested fun below => ?_
      simp only [bind_pure_comp]
      exact failsBy_append (TokenOf.writtenIn_failsBy below operator) fun _ =>
        (Tree.writtenIn_failsBy below operand).map _
  | room, .binary left operator right => by
      rw [Tree.writtenIn, Tree.numbers, Tree.levels]
      refine failsBy_nested fun below => ?_
      simp only [bind_pure_comp]
      exact failsBy_append (Tree.writtenIn_failsBy below left) fun _ =>
        failsBy_append (TokenOf.writtenIn_failsBy below operator) fun _ =>
          (Tree.writtenIn_failsBy below right).map _
  | room, .bare _ => not_prevents_nil

end

end ExprFront
