import Mathlib.Order.MinMax
import Mathlib.Tactic.Lemma
import ExprFront.Value

/-!
Walking a tree by the operands of its nodes.

The operands that a node tells of lead from a tree to all its nodes (`Tree.Contains`), and the
listing in preorder is the walk along them (`preorder?_eq_walk`). Printing takes the kinds of nodes
apart by itself, without asking for operands. Both may fail, for reasons that can be found in the
tree (`FailsBy`): for the listing it is a bare expression (`preorder?_failsBy`), for printing a bare
expression, a literal without a text, or more nesting than there is room for (`printIn_failsBy`).
-/

namespace ExprFront

/-! ### Computations that fail for a reason -/

section FailsBy

variable {ε α β : Type} {p q : ε → Prop}

/-- A computation fails exactly if there is a reason to, and then for one of the reasons. -/
def FailsBy (p : ε → Prop) : Except ε α → Prop
  | .ok _ => ∀ reason, ¬p reason
  | .error reason => p reason

lemma FailsBy.congr {x : Except ε α} (hx : FailsBy p x) (h : ∀ reason, p reason ↔ q reason) :
    FailsBy q x := by
  obtain rfl : p = q := funext fun reason => propext (h reason)
  exact hx

/-- Two steps fail for the reasons of both. -/
lemma FailsBy.bind {x : Except ε α} {f : α → Except ε β} (hx : FailsBy p x)
    (hf : ∀ a, FailsBy q (f a)) : FailsBy (fun reason => p reason ∨ q reason) (x >>= f) := by
  cases x with
  | error reason => exact Or.inl hx
  | ok a =>
      have hcongr (reason : ε) : q reason ↔ p reason ∨ q reason := by simp [hx reason]
      exact (hf a).congr hcongr

lemma FailsBy.map {x : Except ε α} (hx : FailsBy p x) (g : α → β) : FailsBy p (g <$> x) := by
  cases x with
  | error reason => exact hx
  | ok a => exact hx

lemma FailsBy.error_iff {x : Except Unit α} {p : Prop} (hx : FailsBy (fun _ => p) x) :
    x = .error () ↔ p := by
  cases x with
  | error reason => exact iff_of_true rfl hx
  | ok a => exact iff_of_false nofun (hx ())

end FailsBy

namespace Tree

variable {P H : Type}

/-! ### The nodes of a tree -/

/-- The nodes of a tree are the tree itself and those of its operands. -/
inductive Contains : Tree P H → Tree P H → Prop
  | self (e : Tree P H) : Contains e e
  | operand {e c d : Tree P H} {cs : List (Tree P H)} (hcs : e.children = .ok cs) (hc : c ∈ cs)
      (h : Contains c d) : Contains e d

lemma contains_iff {e d : Tree P H} :
    e.Contains d ↔ d = e ∨ ∃ cs, e.children = .ok cs ∧ ∃ c ∈ cs, c.Contains d := by
  constructor
  · rintro (_ | ⟨hcs, hc, h⟩)
    · exact Or.inl rfl
    · exact Or.inr ⟨_, hcs, _, hc, h⟩
  · rintro (rfl | ⟨cs, hcs, c, hc, h⟩)
    · exact .self _
    · exact .operand hcs hc h

@[simp]
lemma contains_literal {value : Scalar} {d : Tree P H} :
    (literal value).Contains d ↔ d = literal value := by
  rw [contains_iff]
  simp [children]

@[simp]
lemma contains_grouping {inner d : Tree P H} :
    (grouping inner).Contains d ↔ d = grouping inner ∨ inner.Contains d := by
  rw [contains_iff]
  simp [children]

@[simp]
lemma contains_unary {operator : TokenOf P} {operand d : Tree P H} :
    (unary operator operand).Contains d ↔ d = unary operator operand ∨ operand.Contains d := by
  rw [contains_iff]
  simp [children]

@[simp]
lemma contains_binary {left right d : Tree P H} {operator : TokenOf P} :
    (binary left operator right).Contains d ↔
      d = binary left operator right ∨ left.Contains d ∨ right.Contains d := by
  rw [contains_iff]
  simp [children]

@[simp]
lemma contains_bare {mark : H} {d : Tree P H} : (bare mark).Contains d ↔ d = bare mark := by
  rw [contains_iff]
  simp [children]

/-! ### The walk -/

/-- A node without its operands; of a bare expression nothing is known. -/
def label : Tree P H → List (Label P)
  | literal value => [.literal value]
  | grouping _ => [.grouping]
  | unary operator _ => [.unary operator]
  | binary _ operator _ => [.binary operator]
  | bare _ => []

/-- Listing a tree in preorder is the walk along the operands. -/
lemma preorder?_eq_walk (e : Tree P H) :
    e.preorder? = (do
      let operands ← e.children
      let lists ← operands.mapM preorder?
      return e.label ++ lists.flatten) := by
  have hstep (operands : List (Tree P H)) (f : List (Tree P H) → Except H (List (Label P))) :
      Except.ok operands >>= f = f operands := rfl
  cases e with
  | literal value => rfl
  | grouping inner => simp [preorder?, children, label, hstep]
  | unary operator operand => simp [preorder?, children, label, hstep]
  | binary left operator right => simp [preorder?, children, label, hstep]
  | bare mark => rfl

/-- A tree can be listed unless there is a node whose operands are not known. -/
lemma preorder?_failsBy (e : Tree P H) :
    FailsBy (fun mark => e.Contains (bare mark)) e.preorder? := by
  induction e with
  | literal value => simp [preorder?, FailsBy]
  | grouping inner ih =>
      simp only [preorder?, bind_pure_comp]
      exact (ih.map _).congr fun mark => by simp
  | unary operator operand ih =>
      simp only [preorder?, bind_pure_comp]
      exact (ih.map _).congr fun mark => by simp
  | binary left operator right ihl ihr =>
      simp only [preorder?, bind_pure_comp]
      exact (ihl.bind fun _ => ihr.map _).congr fun mark => by simp
  | bare mark => simp [preorder?, FailsBy]

/-! ### Printing -/

/-- The levels of nesting in a tree. -/
def height : Tree P H → Nat
  | literal _ => 0
  | grouping inner => inner.height + 1
  | unary _ operand => operand.height + 1
  | binary left _ right => max left.height right.height + 1
  | bare _ => 0

/-- The reasons not to print a tree where there is room for a number of levels. -/
def Prevents (room : Option Nat) (e : Tree P H) : Unprinted H → Prop
  | .bare mark => e.Contains (bare mark)
  | .tooManyDigits => ∃ value, e.Contains (literal value) ∧ value.canonical? = none
  | .stackFull => ∃ levels, room = some levels ∧ levels < e.height

section Room

variable {room below : Option Nat} {reason : Unprinted H}

lemma prevents_grouping (h : roomBelow (.stackFull : Unprinted H) room = .ok below)
    {inner : Tree P H} : (grouping inner).Prevents room reason ↔ inner.Prevents below reason := by
  cases reason <;> rcases room with _ | _ | levels <;> cases h <;> simp [Prevents, height]

lemma prevents_unary (h : roomBelow (.stackFull : Unprinted H) room = .ok below)
    {operator : TokenOf P} {operand : Tree P H} :
    (unary operator operand).Prevents room reason ↔ operand.Prevents below reason := by
  cases reason <;> rcases room with _ | _ | levels <;> cases h <;> simp [Prevents, height]

lemma prevents_binary (h : roomBelow (.stackFull : Unprinted H) room = .ok below)
    {left right : Tree P H} {operator : TokenOf P} :
    (binary left operator right).Prevents room reason ↔
      left.Prevents below reason ∨ right.Prevents below reason := by
  cases reason <;> rcases room with _ | _ | levels <;> cases h <;>
    simp [Prevents, height, or_and_right, exists_or]

/-- Below a node with operands there is no room if it is used up. -/
lemma failsBy_below {e : Tree P H} (he : 0 < e.height)
    {f : Option Nat → Except (Unprinted H) String}
    (h : ∀ below, roomBelow (.stackFull : Unprinted H) room = .ok below →
      FailsBy (e.Prevents room) (f below)) :
    FailsBy (e.Prevents room) (roomBelow .stackFull room >>= f) := by
  rcases room with _ | _ | levels
  · exact h none rfl
  · exact ⟨0, rfl, he⟩
  · exact h (some levels) rfl

end Room

/-- A tree is printed unless there is a reason not to, with any room. -/
lemma printIn_failsBy (room : Option Nat) (e : Tree P H) :
    FailsBy (e.Prevents room) (e.printIn room) := by
  induction e generalizing room with
  | literal value =>
      rw [printIn]
      cases h : value.canonical? with
      | none => exact ⟨value, .self _, h⟩
      | some text => rintro (mark | _ | _) <;> simp [Prevents, height, h]
  | grouping inner ih =>
      rw [printIn]
      refine failsBy_below (e := grouping inner) (Nat.succ_pos _) fun below hbelow => ?_
      rw [bind_pure_comp]
      exact ((ih below).map _).congr fun reason => (prevents_grouping hbelow).symm
  | unary operator operand ih =>
      rw [printIn]
      refine failsBy_below (e := unary operator operand) (Nat.succ_pos _) fun below hbelow => ?_
      rw [bind_pure_comp]
      exact ((ih below).map _).congr fun reason => (prevents_unary hbelow).symm
  | binary left operator right ihl ihr =>
      rw [printIn]
      refine failsBy_below (e := binary left operator right) (Nat.succ_pos _) fun below hbelow => ?_
      simp only [bind_pure_comp]
      exact ((ihl below).bind fun _ => (ihr below).map _).congr fun reason =>
        (prevents_binary hbelow).symm
  | bare mark => exact .self _

end Tree

end ExprFront
