import ExprFront.Proofs.Expr.Printing
import ExprFront.Proofs.Grammar.Derivation
import ExprFront.Proofs.Grammar.Nesting

/-!
Soundness of the rules: what a rule reads is derived from it.

`Rule.SoundAt` says of a rule that whatever it reads is a phrase of the given name with the tree
that it returns, that the depth limit covers the nesting of the tree, and that the rule stops where
no operator of its levels follows. The combinators keep this: `extend_sound` is the invariant of
the loop over the operators of a level, `chain_sound` the level, `primary_sound` the parentheses.
`unaryAt_sound` closes the recursion by induction on the bound, and `ruleAt_sound` says it of every
rule at every place. Since an expression takes a token, a rule consumes (`Rule.SoundAt.consumes`).
-/

namespace ExprFront

/-- The rule with a name at a place; entering a whole expression takes the given frames. -/
def RuleName.ruleAt (limits : Limits) (n : Nesting) (frames : Nat) : RuleName → Rule
  | .expression => expressionBelow limits n frames
  | .level l => l.rule (ExprFront.unary limits n)
  | .unary => ExprFront.unary limits n
  | .primary => ExprFront.primary (expressionBelow limits n Nesting.parenthesisFrames)

lemma RuleName.rule_eq_ruleAt (limits : Limits) (name : RuleName) :
    name.rule limits = name.ruleAt limits .outermost 0 := by
  cases name <;> rfl

namespace Rule

/-- Whatever the rule reads at a depth is a phrase of the given name, within the limit, up to a
token that does not continue it. -/
def SoundAt (limit : DepthLimit) (depth : Nat) (name : RuleName) (rule : Rule) : Prop :=
  ∀ ts e rest, rule ts = .ok (e, rest) →
    ∃ us, ts = us ++ rest ∧ Derives (.rule name) us e ∧
      limit.Covers depth (name.depthOf e) ∧ name.StopsAt rest

/-- A rule that leaves fewer tokens than it is given. -/
def Consumes (rule : Rule) : Prop :=
  ∀ ts e rest, rule ts = .ok (e, rest) → rest.length < ts.length

lemma SoundAt.consumes {limit : DepthLimit} {depth : Nat} {name : RuleName} {rule : Rule}
    (h : rule.SoundAt limit depth name) : rule.Consumes := by
  intro ts e rest hr
  obtain ⟨us, rfl, hd, -, -⟩ := h ts e rest hr
  have hpos : 0 < us.length := List.length_pos_iff.mpr hd.ne_nil
  rw [List.length_append]
  omega

end Rule

/-! ### The combinators -/

section Combinators

variable {limit : DepthLimit} {depth : Nat}

/-- The invariant of the loop over the operators of a level: what is read so far, extended to the
right, stays derived and within the limit. -/
lemma extend_sound {l : Level} {operand : Rule} (h : operand.SoundAt limit depth l.operand) :
    ∀ (bound : Nat) (left : Expr) (ts : List Token) (e : Expr) (rest : List Token),
      ts.length ≤ bound → l.operand.StopsAt ts → limit.Covers depth left.nest →
      extend l operand bound left ts = .ok (e, rest) →
      ∃ vs, ts = vs ++ rest ∧ Derives (.extension l left) vs e ∧
        limit.Covers depth e.nest ∧ (RuleName.level l).StopsAt rest := by
  intro bound
  induction bound with
  | zero =>
      intro left ts e rest hlen hstop hc hr
      obtain rfl : ts = [] := List.length_eq_zero_iff.mp (by omega)
      obtain ⟨rfl, rfl⟩ : left = e ∧ [] = rest := by simpa [extend] using hr
      exact ⟨[], rfl, .done, hc, RuleName.stopsAt_nil _⟩
  | succ bound ih =>
      intro left ts e rest hlen hstop hc hr
      cases ts with
      | nil =>
          obtain ⟨rfl, rfl⟩ : left = e ∧ [] = rest := by simpa [extend] using hr
          exact ⟨[], rfl, .done, hc, RuleName.stopsAt_nil _⟩
      | cons t ts =>
          rw [extend] at hr
          split at hr
          · next ht =>
              -- an operator of the level: its operand, and then the rest of the loop
              obtain ⟨⟨right, more⟩, hop, hloop⟩ := bind_eq_ok_iff.mp hr
              obtain ⟨us, rfl, hd, hcr, hs⟩ := h ts right more hop
              rw [RuleName.depthOf_operand] at hcr
              have hshort : more.length < (us ++ more).length := h.consumes _ _ _ hop
              have hcb : limit.Covers depth (Tree.binary left t right : Expr).nest :=
                DepthLimit.covers_max.mpr ⟨hc, hcr⟩
              obtain ⟨vs, rfl, hde, hce, hst⟩ :=
                ih (.binary left t right) more e rest
                  (by simp only [List.length_cons] at hlen; omega) hs hcb hloop
              exact ⟨t :: (us ++ vs), by simp, .more ht hd hde, hce, hst⟩
          · next ht =>
              obtain ⟨rfl, rfl⟩ : left = e ∧ t :: ts = rest := by simpa using hr
              exact ⟨[], rfl, .done, hc, RuleName.stopsAt_level.mpr ⟨hstop, by simpa using ht⟩⟩

lemma chain_sound {l : Level} {operand : Rule} (h : operand.SoundAt limit depth l.operand) :
    (chain l operand).SoundAt limit depth (.level l) := by
  intro ts e rest hr
  obtain ⟨⟨left, more⟩, hop, hloop⟩ := bind_eq_ok_iff.mp hr
  obtain ⟨us, rfl, hd, hcl, hs⟩ := h ts left more hop
  rw [RuleName.depthOf_operand] at hcl
  obtain ⟨vs, rfl, hde, hce, hst⟩ := extend_sound h _ left more e rest le_rfl hs hcl hloop
  exact ⟨us ++ vs, by simp, .chain hd hde, hce, hst⟩

lemma levelRule_sound {unary : Rule} (h : unary.SoundAt limit depth .unary) (l : Level) :
    (l.rule unary).SoundAt limit depth (.level l) := by
  have hf : (factorRule unary).SoundAt limit depth (.level .factor) := chain_sound h
  have ht : (termRule unary).SoundAt limit depth (.level .term) := chain_sound hf
  have hc : (comparisonRule unary).SoundAt limit depth (.level .comparison) := chain_sound ht
  cases l with
  | equality => exact chain_sound hc
  | comparison => exact hc
  | term => exact ht
  | factor => exact hf

/-- A closing parenthesis makes the expression before it a grouping. -/
lemma closeGroup_eq_ok {inner e : Expr} {ts rest : List Token}
    (h : closeGroup inner ts = .ok (e, rest)) :
    ∃ t : Token, t.type = .rightParen ∧ ts = t :: rest ∧ e = .grouping inner := by
  cases ts with
  | nil => simp [closeGroup] at h
  | cons t ts =>
      rw [closeGroup] at h
      split at h
      · next ht =>
          obtain ⟨rfl, rfl⟩ : Tree.grouping inner = e ∧ ts = rest := by simpa using h
          exact ⟨t, ht, rfl, rfl⟩
      · simp at h

lemma primary_sound {inside : Rule} (h : inside.SoundAt limit depth .expression) :
    (primary inside).SoundAt limit depth .primary := by
  intro ts e rest hr
  cases ts with
  | nil => simp [primary] at hr
  | cons t ts =>
      have hstop : RuleName.primary.StopsAt rest := RuleName.stopsAt_of_levels_eq_nil rfl rest
      rw [primary] at hr
      split at hr
      · next v hv =>
          obtain ⟨rfl, rfl⟩ : Tree.literal v = e ∧ ts = rest := by simpa using hr
          exact ⟨[t], rfl, .literal (literal?_eq_ok_iff.mp hv), DepthLimit.covers_zero _ _, hstop⟩
      · simp at hr
      · split at hr
        · next ht =>
            obtain ⟨⟨inner, more⟩, hin, hend⟩ := bind_eq_ok_iff.mp hr
            obtain ⟨us, rfl, hd, hc, -⟩ := h ts inner more hin
            obtain ⟨closing, hclose, rfl, rfl⟩ := closeGroup_eq_ok hend
            exact ⟨t :: (us ++ [closing]), by simp, .group ht hd hclose, hc, hstop⟩
        · simp at hr

end Combinators

/-- An expression one level down is sound if the rule there is. -/
lemma nested_sound {limits : Limits} {n : Nesting} {frames : Nat} {rule : Nesting → Rule}
    (h : (rule (n.inner frames)).SoundAt limits.depth (n.depth + 1) (.level .equality)) :
    (nested limits n frames rule).SoundAt limits.depth n.depth .expression := by
  intro ts e rest hr
  obtain ⟨m, hm, hin⟩ := bind_eq_ok_iff.mp hr
  obtain ⟨hallow, rfl⟩ := Nesting.deeper_eq_ok hm
  obtain ⟨us, rfl, hd, hc, hs⟩ := h ts e rest hin
  exact ⟨us, rfl, .expression hd, DepthLimit.covers_succ.mpr ⟨hallow, hc⟩, hs⟩

/-! ### The rules -/

lemma unaryAt_sound (limits : Limits) :
    ∀ (bound : Nat) (n : Nesting),
      (unaryAt limits bound n).SoundAt limits.depth n.depth .unary := by
  intro bound
  induction bound with
  | zero => intro n ts e rest hr; simp [unaryAt] at hr
  | succ bound ih =>
      intro n ts e rest hr
      have hinside : (nested limits n Nesting.parenthesisFrames fun inner =>
          equalityRule (unaryAt limits bound inner)).SoundAt limits.depth n.depth .expression :=
        nested_sound (levelRule_sound (ih (n.inner Nesting.parenthesisFrames)) .equality)
      cases ts with
      | nil => simp [unaryAt, primary] at hr
      | cons t ts =>
          rw [unaryAt] at hr
          split at hr
          · next ht =>
              -- a prefix operator, and its operand one level down
              obtain ⟨⟨operand, more⟩, hnest, hend⟩ := bind_eq_ok_iff.mp hr
              obtain ⟨rfl, rfl⟩ : Tree.unary t operand = e ∧ more = rest := by
                simpa [pure, Except.pure] using hend
              obtain ⟨m, hm, hop⟩ := bind_eq_ok_iff.mp hnest
              obtain ⟨hallow, rfl⟩ := Nesting.deeper_eq_ok hm
              obtain ⟨us, rfl, hd, hc, hs⟩ := ih _ ts operand more hop
              exact ⟨t :: us, rfl, .operator ht hd, DepthLimit.covers_succ.mpr ⟨hallow, hc⟩, hs⟩
          · obtain ⟨us, hus, hd, hc, -⟩ := primary_sound hinside (t :: ts) e rest hr
            exact ⟨us, hus, .operand hd, hc, RuleName.stopsAt_of_levels_eq_nil rfl rest⟩

lemma unary_sound (limits : Limits) (n : Nesting) :
    (unary limits n).SoundAt limits.depth n.depth .unary :=
  fun ts e rest hr => unaryAt_sound limits _ n ts e rest hr

lemma expressionBelow_sound (limits : Limits) (n : Nesting) (frames : Nat) :
    (expressionBelow limits n frames).SoundAt limits.depth n.depth .expression :=
  nested_sound (levelRule_sound (unary_sound limits _) .equality)

/-- **Soundness**: what a rule reads at a place is a phrase of its name within the depth limit, up
to a token that does not continue it. -/
theorem ruleAt_sound (limits : Limits) (n : Nesting) (frames : Nat) (name : RuleName) :
    (name.ruleAt limits n frames).SoundAt limits.depth n.depth name := by
  cases name with
  | expression => exact expressionBelow_sound limits n frames
  | level l => exact levelRule_sound (unary_sound limits n) l
  | unary => exact unary_sound limits n
  | primary => exact primary_sound (expressionBelow_sound limits n _)

end ExprFront
