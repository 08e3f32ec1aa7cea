import ExprFront.Proofs.Grammar.Recursion

/-!
Completeness of the rules: what is derived is read.

A rule at a place reads a phrase of its name and returns its tree (`Derives.readsAt`), if the depth
limit covers the nesting of the tree and the tokens after the phrase do not continue it; only a
full stack can prevent this (`Yields`). The induction is on the derivation, with the place and the
tokens after the phrase left open.
-/

namespace ExprFront

/-- A result is the given expression with the given rest, unless the stack is full. -/
def Yields (r : Parsed) (e : Expr) (rest : List Token) : Prop :=
  r = .ok (e, rest) ∨ ∃ more, r = .error ⟨.stackFull, more⟩

lemma yields_ok (e : Expr) (rest : List Token) : Yields (.ok (e, rest)) e rest := Or.inl rfl

/-- The first of two steps may find the stack full, and so may the second. -/
lemma Yields.bind {r : Parsed} {left e : Expr} {more rest : List Token}
    {f : Expr × List Token → Parsed} (h : Yields r left more)
    (hf : Yields (f (left, more)) e rest) : Yields (r >>= f) e rest := by
  rcases h with rfl | ⟨us, rfl⟩
  · exact hf
  · exact Or.inr ⟨us, rfl⟩

/-- Below a place that the depth limit allows to leave only the stack can be in the way. -/
lemma nested_yields {limits : Limits} {n : Nesting} {frames : Nat} {rule : Nesting → Rule}
    {ts rest : List Token} {e : Expr} (hallow : limits.depth.allows (n.depth + 1) = true)
    (h : Yields (rule (n.inner frames) ts) e rest) :
    Yields (nested limits n frames rule ts) e rest := by
  rw [nested, Nesting.deeper_eq, Limits.obstacle?, Nesting.inner, if_pos hallow]
  split
  · next o ho =>
      split at ho
      · obtain rfl : Obstacle.stackFull = o := by simpa using ho
        exact Or.inr ⟨ts, rfl⟩
      · simp at ho
  · exact h

lemma ruleAt_level (limits : Limits) (n : Nesting) (frames : Nat) (l : Level) :
    (RuleName.level l).ruleAt limits n frames = chain l (l.operand.ruleAt limits n frames) := by
  cases l <;> rfl

/-- A primary expression does not begin with a unary operator. -/
lemma Derives.exists_cons_of_primary {us : List Token} {e : Expr}
    (h : Derives (.rule .primary) us e) :
    ∃ t ts, us = t :: ts ∧ t.type.isUnary = false := by
  cases h with
  | literal hv =>
      refine ⟨_, [], rfl, ?_⟩
      cases hv with
      | falsity h => rw [h]; rfl
      | truth h => rw [h]; rfl
      | nothing h => rw [h]; rfl
      | number h _ => rw [h]; rfl
      | text h _ => rw [h]; rfl
  | group ho _ _ => exact ⟨_, _, rfl, by rw [ho]; rfl⟩

/-- What it means that the rules read a phrase at a place. -/
def Phrase.ReadsAt (limits : Limits) (n : Nesting) (frames : Nat) :
    Phrase → List Token → Expr → Prop
  | .rule name, us, e =>
    limits.depth.Covers n.depth (name.depthOf e) → ∀ rest, name.StopsAt rest →
      Yields (name.ruleAt limits n frames (us ++ rest)) e rest
  | .extension l left, us, e =>
    limits.depth.Covers n.depth e.nest → ∀ rest, (RuleName.level l).StopsAt rest →
      Yields (extendFully l (l.operand.ruleAt limits n frames) left (us ++ rest)) e rest

/-- **Completeness**: the rules read every phrase at every place that leaves enough depth, up to
tokens that do not continue it, unless the stack is full. -/
theorem Derives.readsAt (limits : Limits) {p : Phrase} {us : List Token} {e : Expr}
    (h : Derives p us e) : ∀ (n : Nesting) (frames : Nat), p.ReadsAt limits n frames us e := by
  induction h with
  | expression h ih =>
      intro n frames hc rest hstop
      obtain ⟨hallow, hinner⟩ := DepthLimit.covers_succ.mp hc
      exact nested_yields hallow (ih (n.inner frames) 0 hinner rest hstop)
  | @chain l us vs left e hl he ihl ihe =>
      intro n frames hc rest hstop
      have hcl : limits.depth.Covers n.depth (l.operand.depthOf left) := by
        rw [RuleName.depthOf_operand]
        exact hc.mono he.nest_le
      have hmid : l.operand.StopsAt (vs ++ rest) := by
        cases he with
        | done => exact (RuleName.stopsAt_level.mp hstop).1
        | more ht _ _ => exact RuleName.stopsAt_operand_of_contains ht _
      rw [ruleAt_level, chain_eq, List.append_assoc]
      exact (ihl n frames hcl (vs ++ rest) hmid).bind (ihe n frames hc rest hstop)
  | @done l left =>
      intro n frames hc rest hstop
      cases rest with
      | nil => exact yields_ok left []
      | cons t ts =>
          have ht := (RuleName.stopsAt_level.mp hstop).2 t rfl
          rw [List.nil_append, extendFully_cons (ruleAt_sound limits n frames _).consumes, ht]
          exact yields_ok left (t :: ts)
  | @more l left t us vs right e ht hr he ihr ihe =>
      intro n frames hc rest hstop
      have hcr : limits.depth.Covers n.depth (l.operand.depthOf right) := by
        rw [RuleName.depthOf_operand]
        exact hc.mono (le_trans (le_max_right _ _) he.nest_le)
      have hmid : l.operand.StopsAt (vs ++ rest) := by
        cases he with
        | done => exact (RuleName.stopsAt_level.mp hstop).1
        | more ht _ _ => exact RuleName.stopsAt_operand_of_contains ht _
      rw [List.cons_append, List.append_assoc,
        extendFully_cons (ruleAt_sound limits n frames _).consumes, if_pos ht]
      exact (ihr n frames hcr (vs ++ rest) hmid).bind (ihe n frames hc rest hstop)
  | @operator t us e ht h ih =>
      intro n frames hc rest hstop
      obtain ⟨hallow, hinner⟩ := DepthLimit.covers_succ.mp hc
      rw [RuleName.ruleAt, List.cons_append, unary_cons, if_pos ht]
      have hop : Yields (nested limits n Nesting.operatorFrames (unary limits) (us ++ rest)) e
          rest :=
        nested_yields hallow (ih (n.inner Nesting.operatorFrames) 0 hinner rest hstop)
      exact hop.bind (yields_ok _ rest)
  | operand h ih =>
      intro n frames hc rest hstop
      obtain ⟨t, ts, rfl, ht⟩ := h.exists_cons_of_primary
      rw [RuleName.ruleAt, List.cons_append, unary_cons, if_neg (by simp [ht])]
      exact ih n frames hc rest hstop
  | literal hv =>
      intro n frames hc rest hstop
      rw [RuleName.ruleAt, List.singleton_append, primary, literal?_eq_ok_iff.mpr hv]
      exact yields_ok _ rest
  | @group opening us closing e ho h hclose ih =>
      intro n frames hc rest hstop
      have hmid : RuleName.expression.StopsAt (closing :: rest) :=
        RuleName.stopsAt_expression.mpr (by simp [hclose, TokenType.isBinary])
      have hin := ih n Nesting.parenthesisFrames hc (closing :: rest) hmid
      have hlit : literal? opening = none := by simp [literal?, ho]
      have hend : closeGroup e (closing :: rest) = .ok (.grouping e, rest) := by
        rw [closeGroup, if_pos hclose]
      rw [RuleName.ruleAt, List.cons_append, List.append_assoc, primary, hlit, if_pos ho]
      exact hin.bind (Or.inl hend)

end ExprFront
