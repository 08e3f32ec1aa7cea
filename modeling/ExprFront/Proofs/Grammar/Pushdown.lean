import ExprFront.Proofs.Grammar.Recursion

/-!
A fragment as a scan from left to right.

The scan (`Pushdown.scan`) knows nothing of precedence: it alternates between a place where an
operand is due and one where an operand is complete, and keeps the places of the expressions around
the open parentheses on a stack. A token is refused itself, or it is taken and what follows it is
refused, because no place below it may be entered (`Refusal`).

`scanFragment_eq` says that a fragment and its scan succeed together and fail at the same token with
the same obstacle. The proof follows the rules: while a rule reads, the scan goes from a due operand
to a complete one (`Rule.TracedAt`). A level is traced because each of its operators leads from a
complete operand to a due one (`extendFully_traced`), and parentheses are because the expression in
them ends where no binary operator follows.
-/

namespace ExprFront

/-! ### The scan -/

/-- Where the scan stands between two tokens. -/
inductive Pushdown where
  /-- An operand is due at a place, below the unary operators that wait for it. The expression
  around it is at `base`, and `outer` has the places of those around the open parentheses. -/
  | operand (place base : Nesting) (outer : List Nesting)
  /-- An operand is complete. -/
  | after (base : Nesting) (outer : List Nesting)
  /-- The expression is complete, with a semicolon. -/
  | closed

/-- Why the scan does not go on. -/
inductive Refusal where
  /-- The token is not taken. -/
  | here (o : Obstacle)
  /-- The token is taken, and nothing can follow it. -/
  | next (o : Obstacle)

/-- What a token does to the scan, whatever the limits are. -/
inductive Effect where
  | go (s : Pushdown)
  /-- The scan goes on below a place, if the place may be entered. -/
  | enter (place : Nesting) (s : Pushdown)
  | refuse (r : Refusal)

/-- The outcome of an effect under limits. -/
def Effect.under (limits : Limits) : Effect → Except Refusal Pushdown
  | .go s => .ok s
  | .enter place s =>
    match limits.obstacle? place with
    | some o => .error (.next o)
    | none => .ok s
  | .refuse r => .error r

namespace Pushdown

/-- What a token does where an operand is due. -/
def operandEffect (place base : Nesting) (outer : List Nesting) (t : Token) : Effect :=
  match literal? t with
  | some (.ok _) => .go (.after base outer)
  | some (.error kindName) => .refuse (.next (.payload kindName))
  | none =>
    if t.type = .leftParen then
      let inside := place.inner Nesting.parenthesisFrames
      .enter inside (.operand inside inside (base :: outer))
    else if t.type.isUnary then
      let inside := place.inner Nesting.operatorFrames
      .enter inside (.operand inside base outer)
    else .refuse (.here (.fault .expectExpression))

/-- What a token that is no binary operator does where an operand is complete. -/
def closingEffect : List Nesting → Token → Effect
  | around :: outer, t =>
    if t.type = .rightParen then .go (.after around outer)
    else .refuse (.here (.fault (.missingToken ")" "expression")))
  | [], t =>
    if t.type = .semicolon then .go .closed else .refuse (.here (.fault .trailingToken))

/-- What a token does. -/
def effect : Pushdown → Token → Effect
  | .operand place base outer, t => operandEffect place base outer t
  | .after base outer, t =>
    if t.type.isBinary then .go (.operand base base outer) else closingEffect outer t
  | .closed, _ => .refuse (.here (.fault .trailingToken))

/-- The scan over one token. -/
def step (limits : Limits) (s : Pushdown) (t : Token) : Except Refusal Pushdown :=
  (s.effect t).under limits

/-- What is missing at the end of the input, if anything is. -/
def missing? : Pushdown → Option Obstacle
  | .operand .. => some (.fault .expectExpression)
  | .after _ [] => none
  | .after _ (_ :: _) => some (.fault (.missingToken ")" "expression"))
  | .closed => none

/-- The scan to the end of the input. -/
def scan (limits : Limits) : Pushdown → List Token → Except Failure Unit
  | s, [] =>
    match s.missing? with
    | some o => .error ⟨o, []⟩
    | none => .ok ()
  | s, t :: ts =>
    match s.step limits t with
    | .ok s' => s'.scan limits ts
    | .error (.here o) => .error ⟨o, t :: ts⟩
    | .error (.next o) => .error ⟨o, ts⟩

/-- The place of a whole expression. -/
def outset : Nesting := Nesting.outermost.inner 0

/-- The state before the first token. -/
def start : Pushdown := .operand outset outset []

/-- The scan of a fragment. -/
def scanFragment (limits : Limits) (ts : List Token) : Except Failure Unit :=
  match limits.obstacle? outset with
  | some o => .error ⟨o, ts⟩
  | none => start.scan limits ts

end Pushdown

/-! ### The rules along the scan -/

lemma literal?_of_isUnary {t : Token} (h : t.type.isUnary = true) : literal? t = none := by
  rw [literal?]
  cases ht : t.type <;> simp [ht, TokenType.isUnary] at h ⊢

lemma literal?_of_leftParen {t : Token} (h : t.type = .leftParen) : literal? t = none := by
  simp [literal?, h]

open Pushdown

/-- While the rule reads at a place, the scan goes from a due operand to a complete one. -/
def Rule.TracedAt (limits : Limits) (place base : Nesting) (outer : List Nesting) (rule : Rule)
    (ts : List Token) : Prop :=
  (operand place base outer).scan limits ts =
    rule ts >>= fun p => (after base outer).scan limits p.2

section Trace

variable {limits : Limits} {base : Nesting} {outer : List Nesting} {l : Level} {k : Nat}

/-- Each operator of a level leads from a complete operand to a due one. -/
lemma extendFully_traced {operand : Rule} (h : operand.Consumes)
    (htr : ∀ us : List Token, us.length ≤ k → operand.TracedAt limits base base outer us) :
    ∀ (m : Nat) (left : Expr) (ts : List Token), ts.length ≤ m → m ≤ k →
      (after base outer).scan limits ts =
        extendFully l operand left ts >>= fun p => (after base outer).scan limits p.2 := by
  intro m
  induction m with
  | zero =>
      intro left ts hm _
      obtain rfl : ts = [] := List.length_eq_zero_iff.mp (by omega)
      rfl
  | succ m ih =>
      intro left ts hm hk
      cases ts with
      | nil => rfl
      | cons t ts =>
          simp only [List.length_cons] at hm
          rw [extendFully_cons h]
          split
          · next ht =>
              have hb : t.type.isBinary = true := (isBinary_iff_contains _).mpr ⟨l, ht⟩
              rw [scan, step, effect, if_pos hb]
              refine (htr ts (by omega)).trans ?_
              cases hr : operand ts with
              | error f => rfl
              | ok p =>
                  have hshort : p.2.length < ts.length := h ts p.1 p.2 hr
                  exact ih (.binary left t p.1) p.2 (by omega) (by omega)
          · rfl

lemma chain_traced {operand : Rule} (h : operand.Consumes)
    (htr : ∀ us : List Token, us.length ≤ k → operand.TracedAt limits base base outer us) :
    ∀ ts : List Token, ts.length ≤ k → (chain l operand).TracedAt limits base base outer ts := by
  intro ts hts
  rw [Rule.TracedAt, htr ts hts, chain_eq]
  cases hr : operand ts with
  | error f => rfl
  | ok p =>
      have hshort : p.2.length < ts.length := h ts p.1 p.2 hr
      exact extendFully_traced h htr k p.1 p.2 (by omega) le_rfl

lemma levelRule_traced {limit : DepthLimit} {depth : Nat} {unary : Rule}
    (h : unary.SoundAt limit depth .unary)
    (htr : ∀ us : List Token, us.length ≤ k → unary.TracedAt limits base base outer us)
    (l : Level) :
    ∀ ts : List Token, ts.length ≤ k → (l.rule unary).TracedAt limits base base outer ts := by
  have hs := levelRule_sound h
  have hf := chain_traced (l := .factor) h.consumes htr
  have ht := chain_traced (l := .term) (hs .factor).consumes hf
  have hc := chain_traced (l := .comparison) (hs .term).consumes ht
  cases l with
  | equality => exact chain_traced (hs .comparison).consumes hc
  | comparison => exact hc
  | term => exact ht
  | factor => exact hf

/-- After an expression in parentheses, where no binary operator follows, the scan does what the
closing parenthesis does. -/
lemma scan_after_inside (inside around : Nesting) (outer : List Nesting) (e : Expr)
    {rest : List Token} (hstop : RuleName.expression.StopsAt rest) :
    (after inside (around :: outer)).scan limits rest =
      closeGroup e rest >>= fun p => (after around outer).scan limits p.2 := by
  cases rest with
  | nil => rfl
  | cons t ts =>
      have hb : t.type.isBinary = false := RuleName.stopsAt_expression.mp hstop t rfl
      rw [scan, step, effect, if_neg (by simp [hb]), closingEffect, closeGroup]
      by_cases ht : t.type = .rightParen
      · rw [if_pos ht, if_pos ht]
        rfl
      · rw [if_neg ht, if_neg ht]
        rfl

/-- The scan goes through parentheses as their inside does. -/
lemma group_traced {n : Nesting} {t : Token} {ts : List Token} (ht : t.type = .leftParen)
    (hin : (equalityRule (unary limits (n.inner Nesting.parenthesisFrames))).TracedAt limits
      (n.inner Nesting.parenthesisFrames) (n.inner Nesting.parenthesisFrames) (base :: outer) ts) :
    (primary (expressionBelow limits n Nesting.parenthesisFrames)).TracedAt limits n base outer
      (t :: ts) := by
  rw [Rule.TracedAt, primary, literal?_of_leftParen ht, if_pos ht, scan, step, effect,
    operandEffect, literal?_of_leftParen ht, if_pos ht, Effect.under, expressionBelow, nested,
    Nesting.deeper_eq]
  cases limits.obstacle? (n.inner Nesting.parenthesisFrames) with
  | some o => rfl
  | none =>
      refine Eq.trans hin ?_
      have hsound := levelRule_sound (unary_sound limits (n.inner Nesting.parenthesisFrames))
        .equality
      change equalityRule _ ts >>= _ = (equalityRule _ ts >>= _) >>= _
      cases hr : equalityRule (unary limits (n.inner Nesting.parenthesisFrames)) ts with
      | error f => rfl
      | ok p =>
          obtain ⟨us, -, -, -, hstop⟩ := hsound ts p.1 p.2 hr
          exact scan_after_inside _ base outer p.1 hstop

/-- The scan goes through an expression without a prefix operator as the rule does. -/
lemma primary_traced {n : Nesting} {t : Token} {ts : List Token} (hu : t.type.isUnary = false)
    (hin : (equalityRule (unary limits (n.inner Nesting.parenthesisFrames))).TracedAt limits
      (n.inner Nesting.parenthesisFrames) (n.inner Nesting.parenthesisFrames) (base :: outer) ts) :
    (primary (expressionBelow limits n Nesting.parenthesisFrames)).TracedAt limits n base outer
      (t :: ts) := by
  by_cases ht : t.type = .leftParen
  · exact group_traced ht hin
  · rw [Rule.TracedAt, primary, scan, step, effect, operandEffect]
    cases literal? t with
    | some r => cases r <;> rfl
    | none =>
        simp only [if_neg ht, hu]
        rfl

end Trace

/-- The scan goes through a unary expression as the rule does. -/
lemma unary_traced (limits : Limits) :
    ∀ (k : Nat) (n base : Nesting) (outer : List Nesting) (ts : List Token), ts.length ≤ k →
      (unary limits n).TracedAt limits n base outer ts := by
  intro k
  induction k with
  | zero =>
      intro n base outer ts hk
      obtain rfl : ts = [] := List.length_eq_zero_iff.mp (by omega)
      rw [Rule.TracedAt, unary_nil]
      rfl
  | succ k ih =>
      intro n base outer ts hk
      cases ts with
      | nil =>
          rw [Rule.TracedAt, unary_nil]
          rfl
      | cons t ts =>
          simp only [List.length_cons] at hk
          rw [Rule.TracedAt, unary_cons]
          split
          · next ht =>
              have hp : t.type ≠ .leftParen := by
                intro h
                simp [h, TokenType.isUnary] at ht
              rw [scan, step, effect, operandEffect, literal?_of_isUnary ht, if_neg hp, if_pos ht,
                Effect.under, nested, Nesting.deeper_eq]
              cases limits.obstacle? (n.inner Nesting.operatorFrames) with
              | some o => rfl
              | none =>
                  have hop := ih (n.inner Nesting.operatorFrames) base outer ts (by omega)
                  refine Eq.trans hop ?_
                  change unary _ _ ts >>= _ = (unary _ _ ts >>= _) >>= _
                  cases unary limits (n.inner Nesting.operatorFrames) ts <;> rfl
          · next ht =>
              refine primary_traced (by simpa using ht) ?_
              exact levelRule_traced (unary_sound limits _)
                (fun us hus => ih _ _ _ us (by omega)) .equality ts le_rfl

/-- At the end of a whole expression, where no binary operator follows, the scan does what the
fragment does: it takes a semicolon and requires the end of the input. -/
lemma scan_after_expression (limits : Limits) (base : Nesting) (e : Expr) {rest : List Token}
    (hstop : RuleName.expression.StopsAt rest) :
    (after base []).scan limits rest = closeFragment e rest >>= fun _ => .ok () := by
  cases rest with
  | nil => rfl
  | cons t ts =>
      have hb : t.type.isBinary = false := RuleName.stopsAt_expression.mp hstop t rfl
      rw [scan, step, effect, if_neg (by simp [hb]), closingEffect, closeFragment,
        optionalSemicolon]
      by_cases ht : t.type = .semicolon
      · rw [if_pos ht, if_pos ht]
        cases ts <;> rfl
      · rw [if_neg ht, if_neg ht]
        rfl

/-- **The scan decides a fragment**: both succeed, or both fail with the same obstacle at the same
token. -/
theorem scanFragment_eq (limits : Limits) (ts : List Token) :
    scanFragment limits ts = fragment limits ts >>= fun _ => .ok () := by
  rw [scanFragment, fragment_eq, RuleName.rule, expressionBelow, nested, Nesting.deeper_eq]
  cases ho : limits.obstacle? outset with
  | some o => rw [show Nesting.outermost.inner 0 = outset from rfl, ho]; rfl
  | none =>
      have htr := levelRule_traced (unary_sound limits outset)
        (fun us _ => unary_traced limits us.length outset outset [] us le_rfl) .equality ts
        (le_refl ts.length)
      rw [show Nesting.outermost.inner 0 = outset from rfl, ho]
      refine Eq.trans htr ?_
      change equalityRule _ ts >>= _ = ((equalityRule _ ts >>= _) >>= _)
      cases hr : equalityRule (unary limits outset) ts with
      | error f => rfl
      | ok p =>
          obtain ⟨us, -, -, -, hstop⟩ :=
            levelRule_sound (unary_sound limits outset) .equality ts p.1 p.2 hr
          exact scan_after_expression limits outset p.1 hstop

end ExprFront
