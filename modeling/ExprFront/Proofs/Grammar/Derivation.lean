import Mathlib.Order.Bounds.Basic
import ExprFront.Grammar.Rule

/-!
The grammar as a relation, with no limit on the nesting and no order of reading.

* `Level.contains_iff`, `TokenType.isUnary_iff`: the operators that join and that nest.
* `TokenOf.Denotes`: the scalar that a token stands for where an operand is read.
* `Derives`: the phrases of the grammar with their trees. A level joins operands of the next
  stronger one; what follows the first operand is a phrase of its own (`Phrase.extension`), whose
  tree grows to the right around the tree on its left, so that operators of one level fold to the
  left. Unary operators nest to the right, and a pair of parentheses is one grouping.
* `Sentence`: an expression with at most one semicolon after it.
* `Tree.nest`: the largest number of groupings and unary operators on a path from the root.
* `RuleName.StopsAt`: the look-ahead of a rule, which reads on as long as an operator of its own
  level or of a stronger one follows.
-/

namespace ExprFront

/-! ### Operators -/

/-- The operators of each level. -/
lemma Level.contains_iff {l : Level} {ty : TokenType} :
    l.contains ty = true ↔
      match l with
      | .equality => ty = .bangEqual ∨ ty = .equalEqual
      | .comparison => ty = .greater ∨ ty = .greaterEqual ∨ ty = .less ∨ ty = .lessEqual
      | .term => ty = .minus ∨ ty = .plus
      | .factor => ty = .slash ∨ ty = .star := by
  cases l <;> cases ty <;> simp [contains]

/-- The unary operators, one of which is an operator of a level, too. -/
lemma TokenType.isUnary_iff {ty : TokenType} :
    ty.isUnary = Bool.true ↔ ty = .bang ∨ ty = .minus := by
  cases ty <;> simp [isUnary]

/-! ### Literals and nesting -/

/-- The scalar that a token stands for as an operand. -/
inductive TokenOf.Denotes : Token → Scalar → Prop where
  | falsity {t : Token} (h : t.type = .false) : Denotes t (.truth false)
  | truth {t : Token} (h : t.type = .true) : Denotes t (.truth true)
  | nothing {t : Token} (h : t.type = .nil) : Denotes t .nil
  | number {t : Token} {v : Scalar} (h : t.type = .number) (hv : t.payload = .scalar v) :
      Denotes t v
  | text {t : Token} {v : Scalar} (h : t.type = .string) (hv : t.payload = .scalar v) :
      Denotes t v

/-- The literals that the parser reads are the tokens that denote a scalar. -/
lemma literal?_eq_ok_iff {t : Token} {v : Scalar} :
    literal? t = some (.ok v) ↔ t.Denotes v := by
  constructor
  · intro h
    rw [literal?] at h
    split at h
    · next ht =>
        obtain rfl : Scalar.truth false = v := by simpa using h
        exact .falsity ht
    · next ht =>
        obtain rfl : Scalar.truth true = v := by simpa using h
        exact .truth ht
    · next ht =>
        obtain rfl : Scalar.nil = v := by simpa using h
        exact .nothing ht
    · next ht =>
        split at h
        · next hp => exact .number ht (by simpa [hp] using h)
        · simp at h
    · next ht =>
        split at h
        · next hp => exact .text ht (by simpa [hp] using h)
        · simp at h
    · simp at h
  · intro h
    cases h with
    | falsity ht => simp [literal?, ht]
    | truth ht => simp [literal?, ht]
    | nothing ht => simp [literal?, ht]
    | number ht hv => simp [literal?, ht, hv]
    | text ht hv => simp [literal?, ht, hv]

/-- The largest number of groupings and unary operators on a path from the root to a leaf. -/
def Tree.nest {P H : Type} : Tree P H → Nat
  | .literal _ => 0
  | .grouping inner => inner.nest + 1
  | .unary _ operand => operand.nest + 1
  | .binary left _ right => max left.nest right.nest
  | .bare _ => 0

/-! ### Phrases -/

/-- What a level joins: expressions of the next stronger level, and unary expressions at last. -/
def Level.operand : Level → RuleName
  | .equality => .level .comparison
  | .comparison => .level .term
  | .term => .level .factor
  | .factor => .unary

/-- What the grammar describes. -/
inductive Phrase where
  /-- The expressions of a rule. -/
  | rule (name : RuleName)
  /-- Operators of a level with their operands, after an expression on their left. -/
  | extension (level : Level) (left : Expr)

/-- A list of tokens is a phrase with a given tree. -/
inductive Derives : Phrase → List Token → Expr → Prop where
  | expression {us e} (h : Derives (.rule (.level .equality)) us e) :
      Derives (.rule .expression) us e
  | chain {l us vs left e} (hl : Derives (.rule l.operand) us left)
      (he : Derives (.extension l left) vs e) : Derives (.rule (.level l)) (us ++ vs) e
  | done {l left} : Derives (.extension l left) [] left
  | more {l left t us vs right e} (ht : l.contains t.type = true)
      (hr : Derives (.rule l.operand) us right)
      (he : Derives (.extension l (.binary left t right)) vs e) :
      Derives (.extension l left) (t :: (us ++ vs)) e
  | operator {t us e} (ht : t.type.isUnary = true) (h : Derives (.rule .unary) us e) :
      Derives (.rule .unary) (t :: us) (.unary t e)
  | operand {us e} (h : Derives (.rule .primary) us e) : Derives (.rule .unary) us e
  | literal {t v} (h : t.Denotes v) : Derives (.rule .primary) [t] (.literal v)
  | group {opening us closing e} (ho : opening.type = .leftParen)
      (h : Derives (.rule .expression) us e) (hc : closing.type = .rightParen) :
      Derives (.rule .primary) (opening :: (us ++ [closing])) (.grouping e)

/-- A sentence is an expression with at most one semicolon after it. -/
def Sentence (ts : List Token) (e : Expr) : Prop :=
  ∃ us, Derives (.rule .expression) us e ∧
    (ts = us ∨ ∃ t : Token, t.type = .semicolon ∧ ts = us ++ [t])

/-- An expression takes a token at least. -/
lemma Derives.ne_nil {name : RuleName} {us : List Token} {e : Expr}
    (h : Derives (.rule name) us e) : us ≠ [] := by
  generalize hp : Phrase.rule name = p at h
  induction h generalizing name with
  | expression h ih => exact ih rfl
  | chain hl he ih _ => exact fun h => ih rfl (List.append_eq_nil_iff.mp h).1
  | operand h ih => exact ih rfl
  | done => cases hp
  | more => cases hp
  | operator => simp
  | literal => simp
  | group => simp

/-- What a level joins is an expression of the level. -/
lemma Derives.level {l : Level} {us : List Token} {e : Expr} (h : Derives (.rule l.operand) us e) :
    Derives (.rule (.level l)) us e := by
  have hc : Derives (.rule (.level l)) (us ++ []) e := .chain h .done
  rwa [List.append_nil] at hc

/-- A unary expression is an expression. -/
lemma Derives.expression_of_unary {us : List Token} {e : Expr} (h : Derives (.rule .unary) us e) :
    Derives (.rule .expression) us e := by
  have hf : Derives (.rule (.level .factor)) us e := Derives.level h
  have ht : Derives (.rule (.level .term)) us e := Derives.level hf
  have hc : Derives (.rule (.level .comparison)) us e := Derives.level ht
  exact .expression (Derives.level hc)

/-- The tree on the left of an extension nests no deeper than the whole. -/
lemma Derives.nest_le {l : Level} {left e : Expr} {vs : List Token}
    (h : Derives (.extension l left) vs e) : left.nest ≤ e.nest := by
  generalize hp : Phrase.extension l left = p at h
  induction h generalizing left with
  | done => cases hp; exact le_rfl
  | more ht hr he _ ih =>
      cases hp
      exact le_trans (by simp [Tree.nest]) (ih rfl)
  | expression => cases hp
  | chain => cases hp
  | operator => cases hp
  | operand => cases hp
  | literal => cases hp
  | group => cases hp

/-! ### Look-ahead -/

/-- A level and those that bind more strongly. -/
def Level.upward : Level → List Level
  | .equality => [.equality, .comparison, .term, .factor]
  | .comparison => [.comparison, .term, .factor]
  | .term => [.term, .factor]
  | .factor => [.factor]

namespace RuleName

/-- The levels whose operators a rule reads. -/
def levels : RuleName → List Level
  | .expression => Level.equality.upward
  | .level l => l.upward
  | .unary => []
  | .primary => []

/-- A rule stops where no operator of its levels follows. -/
def StopsAt (name : RuleName) (rest : List Token) : Prop :=
  ∀ t ∈ rest.head?, ∀ l ∈ name.levels, l.contains t.type = false

/-- The number of levels of nesting that a rule needs for an expression; the rule for whole
expressions takes one for itself. -/
def depthOf : RuleName → Expr → Nat
  | .expression, e => e.nest + 1
  | .level _, e => e.nest
  | .unary, e => e.nest
  | .primary, e => e.nest

lemma levels_level (l : Level) : (RuleName.level l).levels = l :: l.operand.levels := by
  cases l <;> rfl

lemma depthOf_operand (l : Level) (e : Expr) : l.operand.depthOf e = e.nest := by
  cases l <;> rfl

lemma stopsAt_nil (name : RuleName) : name.StopsAt [] := by simp [StopsAt]

lemma stopsAt_of_levels_eq_nil {name : RuleName} (h : name.levels = []) (rest : List Token) :
    name.StopsAt rest := by simp [StopsAt, h]

/-- A level stops where its operands stop and no operator of its own follows. -/
lemma stopsAt_level {l : Level} {rest : List Token} :
    (RuleName.level l).StopsAt rest ↔
      l.operand.StopsAt rest ∧ ∀ t ∈ rest.head?, l.contains t.type = false := by
  rw [StopsAt, StopsAt, levels_level]
  constructor
  · intro h
    exact ⟨fun t ht m hm => h t ht m (List.mem_cons_of_mem l hm),
      fun t ht => h t ht l List.mem_cons_self⟩
  · rintro ⟨ho, hl⟩ t ht m hm
    rcases List.mem_cons.mp hm with rfl | hm
    · exact hl t ht
    · exact ho t ht m hm

/-- An operator belongs to one level only, so the operands of its level stop before it. -/
lemma stopsAt_operand_of_contains {l : Level} {t : Token} (h : l.contains t.type = true)
    (ts : List Token) : l.operand.StopsAt (t :: ts) := by
  have key : ∀ m : Level, ∀ ty ∈ TokenType.all, m.contains ty = true →
      ∀ m' ∈ m.operand.levels, m'.contains ty = false := by
    intro m
    cases m <;> decide
  intro u hu
  obtain rfl : t = u := by simpa using hu
  exact key l t.type (TokenType.mem_all t.type) h

end RuleName

/-- The operators of the levels are the binary operators. -/
lemma isBinary_iff_contains (t : TokenType) :
    t.isBinary = true ↔ ∃ l : Level, l.contains t = true := by
  have hbinary : ∀ ty ∈ TokenType.all, ty.isBinary = true →
      ∃ l ∈ Level.equality.upward, l.contains ty = true := by decide
  have hlevel : ∀ l : Level, ∀ ty ∈ TokenType.all, l.contains ty = true →
      ty.isBinary = true := by
    intro l
    cases l <;> decide
  constructor
  · intro h
    obtain ⟨l, -, hl⟩ := hbinary t (TokenType.mem_all t) h
    exact ⟨l, hl⟩
  · rintro ⟨l, hl⟩
    exact hlevel l t (TokenType.mem_all t) hl

/-- A whole expression stops where no binary operator follows. -/
lemma RuleName.stopsAt_expression {rest : List Token} :
    RuleName.expression.StopsAt rest ↔ ∀ t ∈ rest.head?, t.type.isBinary = false := by
  have hall : ∀ l : Level, l ∈ RuleName.expression.levels := by intro l; cases l <;> decide
  constructor
  · intro h t ht
    by_contra hb
    obtain ⟨l, hl⟩ := (isBinary_iff_contains t.type).mp (by simpa using hb)
    simp [h t ht l (hall l)] at hl
  · intro h t ht l _
    by_contra hl
    have hb := (isBinary_iff_contains t.type).mpr ⟨l, by simpa using hl⟩
    simp [h t ht] at hb

end ExprFront
