import Mathlib.Tactic.Lemma
import ExprFront.Value

/-!
Printed trees.

What a tree is printed as is known from what its operands are printed as, by one equivalence for
each kind of node (`print?_literal_eq_ok` to `print?_binary_eq_ok`). A tree without bare expressions
is printed in the same way as a value (`Value.print?_expression_eq_ok`).
-/

namespace ExprFront

/-- A result in two steps comes from results of both. -/
lemma bind_eq_ok_iff {ε α β : Type} {x : Except ε α} {f : α → Except ε β} {b : β} :
    x >>= f = .ok b ↔ ∃ a, x = .ok a ∧ f a = .ok b := by
  cases x with
  | error e => simp [bind, Except.bind]
  | ok a => simp [bind, Except.bind]

namespace Tree

variable {P H : Type} {text : String}

/-! ### Nodes -/

lemma print?_literal_eq_ok {value : Scalar} :
    (literal value : Tree P H).print? = .ok text ↔ value.canonical? = some text := by
  rw [print?, printIn]
  cases value.canonical? with
  | none => simp
  | some canonical => simp

lemma print?_grouping_eq_ok {inner : Tree P H} :
    (grouping inner).print? = .ok text ↔
      ∃ innerText, inner.print? = .ok innerText ∧ parenthesized "group" [innerText] = text := by
  simp [print?, printIn, roomBelow, bind_eq_ok_iff, pure, Except.pure]

lemma print?_unary_eq_ok {operator : TokenOf P} {operand : Tree P H} :
    (unary operator operand).print? = .ok text ↔
      ∃ operandText, operand.print? = .ok operandText ∧
        parenthesized operator.lexeme [operandText] = text := by
  simp [print?, printIn, roomBelow, bind_eq_ok_iff, pure, Except.pure]

lemma print?_binary_eq_ok {left right : Tree P H} {operator : TokenOf P} :
    (binary left operator right).print? = .ok text ↔
      ∃ leftText, left.print? = .ok leftText ∧ ∃ rightText, right.print? = .ok rightText ∧
        parenthesized operator.lexeme [leftText, rightText] = text := by
  simp [print?, printIn, roomBelow, bind_eq_ok_iff, pure, Except.pure]

/-! ### Trees as values -/

/-- Where bare expressions are allowed, a tree without them is printed alike. -/
lemma print?_weaken_eq_ok {e : Tree P Empty} :
    (e.weaken : Tree P H).print? = .ok text ↔ e.print? = .ok text := by
  induction e generalizing text with
  | literal value => rw [weaken, print?_literal_eq_ok, print?_literal_eq_ok]
  | grouping inner ih => simp only [weaken, print?_grouping_eq_ok, ih]
  | unary operator operand ih => simp only [weaken, print?_unary_eq_ok, ih]
  | binary left operator right ihl ihr => simp only [weaken, print?_binary_eq_ok, ihl, ihr]
  | bare mark => exact mark.elim

/-- A tree is known by what it is where bare expressions are allowed. -/
lemma weaken_injective : Function.Injective (weaken : Tree P Empty → Tree P H) := by
  intro e f h
  induction e generalizing f with
  | literal value =>
      cases f with
      | literal value' => exact congrArg literal (Tree.literal.inj h)
      | bare mark => exact mark.elim
      | _ => cases h
  | grouping inner ih =>
      cases f with
      | grouping inner' => exact congrArg grouping (ih (Tree.grouping.inj h))
      | bare mark => exact mark.elim
      | _ => cases h
  | unary operator operand ih =>
      cases f with
      | unary operator' operand' =>
          obtain ⟨ho, he⟩ := Tree.unary.inj h
          rw [ho, ih he]
      | bare mark => exact mark.elim
      | _ => cases h
  | binary left operator right ihl ihr =>
      cases f with
      | binary left' operator' right' =>
          obtain ⟨hl, ho, hr⟩ := Tree.binary.inj h
          rw [ihl hl, ho, ihr hr]
      | bare mark => exact mark.elim
      | _ => cases h
  | bare mark => exact mark.elim

end Tree

/-- As a value, an expression without bare expressions is printed alike. -/
lemma Value.print?_expression_eq_ok {e : Expr} {text : String} :
    (Value.expression e.weaken).print? = .ok text ↔ e.print? = .ok text := by
  rw [print?, printIn, ← Tree.print?_weaken_eq_ok, Tree.print?]
  cases (e.weaken : OpenExpr).printIn none with
  | ok printed => constructor <;> (rintro ⟨⟩; rfl)
  | error reason => exact iff_of_false (by rintro ⟨⟩) (by rintro ⟨⟩)

end ExprFront
