import ExprFront.Proofs.Grammar.Soundness

/-!
The rules without their bounds. `unaryAt` and `extend` carry numbers that bound how far they
recurse. Since a rule consumes, a bound above the number of tokens is never used up
(`unaryAt_bound`, `extend_bound`), which leaves the equations of the grammar: `unary_cons` for
unary expressions and `extendFully_cons` for the operators of a level. A fragment is an expression
and its end (`fragment_eq`).
-/

namespace ExprFront

/-! ### The operators of a level -/

/-- Extends an expression to the right by operators of a level with their operands. -/
def extendFully (level : Level) (operand : Rule) (left : Expr) : Rule :=
  fun ts => extend level operand ts.length left ts

section Extension

variable {l : Level} {operand operand' : Rule}

lemma extend_bound (h : operand.Consumes) :
    ∀ (bound bound' : Nat) (left : Expr) (ts : List Token), ts.length ≤ bound →
      ts.length ≤ bound' → extend l operand bound left ts = extend l operand bound' left ts := by
  intro bound
  induction bound with
  | zero =>
      intro bound' left ts hb hb'
      obtain rfl : ts = [] := List.length_eq_zero_iff.mp (by omega)
      cases bound' <;> rfl
  | succ bound ih =>
      intro bound' left ts hb hb'
      cases ts with
      | nil => cases bound' <;> rfl
      | cons t ts =>
          obtain ⟨bound', rfl⟩ := Nat.exists_eq_succ_of_ne_zero (n := bound') (by
            simp only [List.length_cons] at hb'
            omega)
          simp only [List.length_cons] at hb hb'
          rw [extend, extend]
          cases hr : operand ts with
          | error f => rfl
          | ok p =>
              have hshort : p.2.length < ts.length := h ts p.1 p.2 hr
              have hrec := ih bound' (.binary left t p.1) p.2 (by omega) (by omega)
              split
              · exact hrec
              · rfl

/-- The loop over the operators of a level, one operator at a time. -/
lemma extendFully_cons (h : operand.Consumes) (left : Expr) (t : Token) (ts : List Token) :
    extendFully l operand left (t :: ts) =
      if l.contains t.type then do
        let (right, rest) ← operand ts
        extendFully l operand (.binary left t right) rest
      else .ok (left, t :: ts) := by
  rw [extendFully, List.length_cons, extend]
  cases hr : operand ts with
  | error f => rfl
  | ok p =>
      have hshort : p.2.length < ts.length := h ts p.1 p.2 hr
      have hrec := extend_bound (l := l) h ts.length p.2.length (.binary left t p.1) p.2
        (by omega) le_rfl
      split
      · exact hrec
      · rfl

lemma chain_eq (ts : List Token) :
    chain l operand ts = operand ts >>= fun p => extendFully l operand p.1 p.2 := rfl

/-- Operands that agree on short lists make extensions that agree on short lists. -/
lemma extendFully_congr {k : Nat} (h : operand.Consumes) (h' : operand'.Consumes)
    (heq : ∀ us : List Token, us.length ≤ k → operand us = operand' us) :
    ∀ (m : Nat) (left : Expr) (ts : List Token), ts.length ≤ m → m ≤ k →
      extendFully l operand left ts = extendFully l operand' left ts := by
  intro m
  induction m with
  | zero =>
      intro left ts hm _
      obtain rfl : ts = [] := List.length_eq_zero_iff.mp (by omega)
      rfl
  | succ m ih =>
      intro left ts hm hk
      cases ts with
      | nil => rfl
      | cons t ts =>
          simp only [List.length_cons] at hm
          rw [extendFully_cons h, extendFully_cons h', ← heq ts (by omega)]
          cases hr : operand ts with
          | error f => rfl
          | ok p =>
              have hshort : p.2.length < ts.length := h ts p.1 p.2 hr
              have hrec := ih (.binary left t p.1) p.2 (by omega) (by omega)
              split
              · exact hrec
              · rfl

lemma chain_congr {k : Nat} (h : operand.Consumes) (h' : operand'.Consumes)
    (heq : ∀ us : List Token, us.length ≤ k → operand us = operand' us) (ts : List Token)
    (hts : ts.length ≤ k) : chain l operand ts = chain l operand' ts := by
  rw [chain_eq, chain_eq, ← heq ts hts]
  cases hr : operand ts with
  | error f => rfl
  | ok p =>
      have hshort : p.2.length < ts.length := h ts p.1 p.2 hr
      exact extendFully_congr h h' heq k p.1 p.2 (by omega) le_rfl

end Extension

/-- Rules for unary expressions that agree on short lists make levels that do. -/
lemma levelRule_congr {limit : DepthLimit} {depth k : Nat} {unary unary' : Rule}
    (h : unary.SoundAt limit depth .unary) (h' : unary'.SoundAt limit depth .unary)
    (heq : ∀ us : List Token, us.length ≤ k → unary us = unary' us) (l : Level) :
    ∀ ts : List Token, ts.length ≤ k → l.rule unary ts = l.rule unary' ts := by
  have hs := levelRule_sound h
  have hs' := levelRule_sound h'
  have hf := chain_congr (l := .factor) h.consumes h'.consumes heq
  have ht := chain_congr (l := .term) (hs .factor).consumes (hs' .factor).consumes hf
  have hc := chain_congr (l := .comparison) (hs .term).consumes (hs' .term).consumes ht
  cases l with
  | equality => exact chain_congr (hs .comparison).consumes (hs' .comparison).consumes hc
  | comparison => exact hc
  | term => exact ht
  | factor => exact hf

/-! ### Unary expressions -/

/-- A primary expression looks inside parentheses only after the first token. -/
lemma primary_congr {inside inside' : Rule} {t : Token} {ts : List Token}
    (h : inside ts = inside' ts) : primary inside (t :: ts) = primary inside' (t :: ts) := by
  rw [primary, primary, h]

/-- One level down only the rule there counts. -/
lemma nested_congr {limits : Limits} {n : Nesting} {frames : Nat} {rule rule' : Nesting → Rule}
    {ts : List Token} (h : ∀ m, rule m ts = rule' m ts) :
    nested limits n frames rule ts = nested limits n frames rule' ts := by
  rw [nested, nested]
  cases n.deeper limits frames ts with
  | error f => rfl
  | ok m => exact h m

/-- A bound above the number of tokens is never used up. -/
lemma unaryAt_bound (limits : Limits) :
    ∀ (bound bound' : Nat) (n : Nesting) (ts : List Token), ts.length < bound →
      ts.length < bound' → unaryAt limits bound n ts = unaryAt limits bound' n ts := by
  intro bound
  induction bound with
  | zero => intro bound' n ts hb; omega
  | succ bound ih =>
      intro bound' n ts hb hb'
      obtain ⟨bound', rfl⟩ := Nat.exists_eq_succ_of_ne_zero (n := bound') (by omega)
      cases ts with
      | nil => rw [unaryAt, unaryAt, primary, primary]
      | cons t ts =>
          simp only [List.length_cons] at hb hb'
          rw [unaryAt, unaryAt]
          split
          · -- the operand of a prefix operator
            rw [nested_congr fun m => ih bound' m ts (by omega) (by omega)]
          · -- the inside of parentheses
            refine primary_congr (nested_congr fun m => ?_)
            exact levelRule_congr (unaryAt_sound limits bound m) (unaryAt_sound limits bound' m)
              (fun us hus => ih bound' m us (by omega) (by omega)) .equality ts le_rfl

@[simp] lemma unary_nil (limits : Limits) (n : Nesting) :
    unary limits n [] = .error ⟨.fault .expectExpression, []⟩ := by
  rw [unary, List.length_nil, unaryAt, primary]

/-- A unary expression is a prefix operator with its operand one level down, or primary. -/
lemma unary_cons (limits : Limits) (n : Nesting) (t : Token) (ts : List Token) :
    unary limits n (t :: ts) =
      if t.type.isUnary then do
        let (operand, rest) ← nested limits n Nesting.operatorFrames (unary limits) ts
        return (.unary t operand, rest)
      else primary (expressionBelow limits n Nesting.parenthesisFrames) (t :: ts) := by
  rw [unary, List.length_cons, unaryAt]
  split
  · rw [nested_congr fun m => ?_]
    rw [unary]
  · refine primary_congr (nested_congr fun m => ?_)
    refine levelRule_congr (unaryAt_sound limits _ m) (unary_sound limits m) ?_ .equality ts le_rfl
    intro us hus
    rw [unary]
    exact unaryAt_bound limits _ _ m us (by omega) (by omega)

/-! ### Fragments -/

/-- The end of a fragment after its expression: at most one semicolon, and nothing after it. -/
def closeFragment (e : Expr) : Rule := fun ts =>
  match optionalSemicolon ts with
  | [] => .ok (e, [])
  | t :: more => .error ⟨.fault .trailingToken, t :: more⟩

lemma fragment_eq (limits : Limits) (ts : List Token) :
    fragment limits ts =
      RuleName.expression.rule limits ts >>= fun p => closeFragment p.1 p.2 := rfl

lemma closeFragment_eq_ok {e e' : Expr} {ts rest : List Token}
    (h : closeFragment e ts = .ok (e', rest)) : e = e' ∧ rest = [] ∧ optionalSemicolon ts = [] := by
  rw [closeFragment] at h
  split at h
  · next hs =>
      obtain ⟨rfl, rfl⟩ : e = e' ∧ [] = rest := by simpa using h
      exact ⟨rfl, rfl, hs⟩
  · simp at h

end ExprFront
