import ExprFront.Proofs.Grammar.Completeness
import ExprFront.Proofs.Grammar.CursorParse

/-!
Acceptance: the parser accepts exactly the sentences of the grammar that its depth limit covers, and
returns their trees.

* A fragment that is read is a sentence (`sentence_of_fragment_eq_ok`), and a sentence is read
  unless the stack is full (`Sentence.fragment_yields`).
* A full stack needs depth (`fragment_stackFull`): with the frames of a parenthesis for each level,
  the stack never stops a fragment. So low depth limits never meet it (`stackHolds_of_le`), and
  of one sentence there cannot be two trees, since a parser with room for both would read both
  (`Sentence.unique`).
* `accepts_iff` reduces acceptance to the first fragment, for any list of tokens.
-/

namespace ExprFront

/-- The parser has an expression for a list of tokens, and no fault. -/
def Accepts (limit : DepthLimit) (ts : List Token) (e : Expr) : Prop :=
  ∃ r, readTokens limit ts = some r ∧ r.expression? = some e ∧ r.report.faults = []

/-- The parser has faults for a list of tokens, and no expression. -/
def Rejects (limit : DepthLimit) (ts : List Token) : Prop :=
  ∃ r, readTokens limit ts = some r ∧ r.report.verdict = .rejected ∧ r.expression? = none ∧
    r.report.faults ≠ []

/-- The stack has room for the first fragment of a list of tokens. -/
def StackHolds (limits : Limits) (ts : List Token) : Prop :=
  ∀ rest, fragment limits ts ≠ .error ⟨.stackFull, rest⟩

/-! ### The stack -/

/-- A fragment that fills the stack goes to a depth that takes all its frames. -/
lemma fragment_stackFull {limits : Limits} {ts rest : List Token}
    (h : fragment limits ts = .error ⟨.stackFull, rest⟩) :
    ∃ n : Nesting, limits.depth.allows n.depth = true ∧
      limits.stack + Nesting.parenthesisFrames ≤ Nesting.parenthesisFrames * n.depth := by
  have hs := fragment_eq_error_iff.mp h
  rw [Pushdown.scanFragment] at hs
  split at hs
  · next o ho =>
      obtain ⟨rfl, -⟩ : o = .stackFull ∧ ts = rest := by simpa using hs
      rcases Limits.obstacle?_eq_some ho with ⟨h, -⟩ | ⟨-, hallow, hfull⟩
      · cases h
      · exact ⟨Pushdown.outset, hallow, by
          simp only [Pushdown.outset, Nesting.inner, Nesting.outermost] at hfull ⊢
          omega⟩
  · exact Pushdown.scan_stackFull Pushdown.start_bounded hs

/-- With the frames of a parenthesis for each level that the limit allows, the stack has room. -/
lemma stackHolds_of_frames {d : Int} {stack : Nat} {ts : List Token}
    (h : (Nesting.parenthesisFrames : Int) * d < stack + Nesting.parenthesisFrames) :
    StackHolds ⟨.ofInt d, stack⟩ ts := by
  intro rest hf
  obtain ⟨n, hallow, hfull⟩ := fragment_stackFull hf
  have hn : (n.depth : Int) ≤ d := DepthLimit.allows_ofInt.mp hallow
  simp only [Nesting.parenthesisFrames] at h hfull
  omega

/-- Depth limits up to 84, and so the standard one, never meet the end of the stack. -/
lemma stackHolds_of_le {d : Int} (hd : d ≤ 84) (ts : List Token) :
    StackHolds (.withDepth (.ofInt d)) ts := by
  refine stackHolds_of_frames ?_
  simp only [Nesting.parenthesisFrames, stackFrames]
  omega

/-- A whole number of at least one as depth limit allows to start. -/
lemma obstacle?_outset {d : Int} (hd : 1 ≤ d) :
    (Limits.withDepth (.ofInt d)).obstacle? Pushdown.outset = none :=
  Limits.obstacle?_eq_none.mpr ⟨DepthLimit.allows_ofInt.mpr hd, Nat.succ_pos _⟩

/-! ### Sentences and fragments -/

section Sentences

variable {limits : Limits} {ts rest : List Token} {e : Expr}

/-- A fragment that is read is a sentence, and the limit covers its tree. -/
lemma sentence_of_fragment_eq_ok (h : fragment limits ts = .ok (e, rest)) :
    Sentence ts e ∧ limits.depth.Covers 0 (e.nest + 1) := by
  obtain ⟨-, more, hr, hend⟩ := fragment_eq_ok h
  rw [RuleName.rule_eq_ruleAt] at hr
  obtain ⟨us, rfl, hd, hc, -⟩ := ruleAt_sound limits .outermost 0 .expression ts e more hr
  refine ⟨⟨us, hd, ?_⟩, hc⟩
  cases more with
  | nil => exact Or.inl (List.append_nil us)
  | cons t more =>
      rw [optionalSemicolon] at hend
      split at hend
      · next ht =>
          rw [hend]
          exact Or.inr ⟨t, ht, rfl⟩
      · simp at hend

/-- A sentence whose tree the limit covers is read, unless the stack is full. -/
lemma Sentence.fragment_yields (h : Sentence ts e) (hc : limits.depth.Covers 0 (e.nest + 1)) :
    Yields (fragment limits ts) e [] := by
  obtain ⟨us, hd, hts⟩ := h
  have hread := hd.readsAt limits .outermost 0 hc
  rw [fragment_eq]
  rcases hts with rfl | ⟨t, ht, rfl⟩
  · have hr := hread [] (RuleName.stopsAt_nil _)
    rw [List.append_nil, ← RuleName.rule_eq_ruleAt] at hr
    exact hr.bind (yields_ok e [])
  · have hstop : RuleName.expression.StopsAt [t] :=
      RuleName.stopsAt_expression.mpr (by simp [ht, TokenType.isBinary])
    have hr := hread [t] hstop
    rw [← RuleName.rule_eq_ruleAt] at hr
    refine hr.bind ?_
    rw [closeFragment, optionalSemicolon, if_pos ht]
    exact yields_ok e []

lemma Sentence.fragment_eq_ok (h : Sentence ts e) (hc : limits.depth.Covers 0 (e.nest + 1))
    (hs : StackHolds limits ts) : fragment limits ts = .ok (e, []) := by
  rcases h.fragment_yields hc with hok | ⟨rest, hfull⟩
  · exact hok
  · exact absurd hfull (hs rest)

/-- Limits with room for a given number of levels, each of a parenthesis. -/
def Limits.roomy (levels : Nat) : Limits :=
  ⟨.ofInt levels, Nesting.parenthesisFrames * levels⟩

/-- A sentence is read where there is room for it. -/
lemma Sentence.fragment_roomy {levels : Nat} (h : Sentence ts e) (hl : e.nest + 1 ≤ levels) :
    fragment (.roomy levels) ts = .ok (e, []) := by
  refine h.fragment_eq_ok (DepthLimit.covers_ofInt.mpr (Or.inr (by omega))) ?_
  refine stackHolds_of_frames ?_
  simp only [Nesting.parenthesisFrames]
  omega

/-- A sentence has one tree: where there is room for two, both are read. -/
lemma Sentence.unique {e' : Expr} (h : Sentence ts e) (h' : Sentence ts e') : e = e' := by
  have hr := h.fragment_roomy (le_max_left (e.nest + 1) (e'.nest + 1))
  have hr' := h'.fragment_roomy (le_max_right (e.nest + 1) (e'.nest + 1))
  simpa using hr.symm.trans hr'

end Sentences

/-! ### Acceptance -/

lemma expression?_eq_some_iff {r : Reading} {e : Expr} :
    r.expression? = some e ↔ r.report.verdict = .accepted e := by
  rw [Reading.expression?]
  cases r.report.verdict <;> simp

/-- A list of tokens with an end of the input is read, by fragments of what is before it. -/
lemma exists_readTokens_eq (limit : DepthLimit) {ts : List Token} (h : ∃ t ∈ ts, t.isEof = true) :
    ∃ r eof, readTokens limit ts = some r ∧ r.report = fragments (.withDepth limit) eof
      ((TokenStream.bodyOf ts).length + 1) (TokenStream.bodyOf ts) := by
  obtain ⟨s, hs, hb⟩ := TokenStream.exists_ofList?_eq h
  refine ⟨.ofStream limit s, s.eof, by rw [readTokens, hs]; rfl, ?_⟩
  rw [← hb]
  rfl

/-- A list of tokens is accepted if and only if its first fragment is all there is before the end of
the input. -/
lemma accepts_iff {limit : DepthLimit} {ts : List Token} {e : Expr} :
    Accepts limit ts e ↔ (∃ t ∈ ts, t.isEof = true) ∧
      fragment (.withDepth limit) (TokenStream.bodyOf ts) = .ok (e, []) := by
  constructor
  · rintro ⟨r, hr, he, hf⟩
    obtain ⟨s, hs, rfl⟩ := Option.map_eq_some_iff.mp hr
    have heof : ∃ t ∈ ts, t.isEof = true := by
      refine ⟨s.eof, ?_, s.eof_isEof⟩
      rw [← TokenStream.toList_ofList? hs]
      simp [TokenStream.toList]
    refine ⟨heof, ?_⟩
    rw [← TokenStream.body_eq_bodyOf hs]
    have hv : (s.parse (.withDepth limit)).verdict = .accepted e := expression?_eq_some_iff.mp he
    have hm : (s.parse (.withDepth limit)).mishaps = [] := List.map_eq_nil_iff.mp hf
    rw [TokenStream.parse] at hv hm
    cases hfr : fragment (.withDepth limit) s.body with
    | ok p =>
        obtain ⟨e', rest⟩ := p
        obtain ⟨rfl, -⟩ := fragment_eq_ok hfr
        rw [fragments_succ_of_ok hfr] at hv
        rw [Verdict.accepted.inj hv]
    | error f =>
        cases hc : f.obstacle.cause (.withDepth limit) with
        | ok c =>
            rw [fragments_succ_of_error hfr hc] at hm
            split at hm <;> simp [Report.after] at hm
        | error ending => simp [fragments_succ_of_ending hfr hc] at hv
  · rintro ⟨heof, hfr⟩
    obtain ⟨r, eof, hr, hrep⟩ := exists_readTokens_eq limit heof
    rw [fragments_succ_of_ok hfr] at hrep
    exact ⟨r, hr, expression?_eq_some_iff.mpr (by rw [hrep]), by rw [hrep]; rfl⟩

/-- Depth limits up to 84 never meet the end of the stack in any fragment. -/
lemma not_overflows_of_le {d : Int} (hd : d ≤ 84) (ts : List Token) :
    ¬Overflows (.withDepth (.ofInt d)) ts := by
  intro h
  induction h with
  | here h => exact stackHolds_of_le hd _ _ h
  | later _ _ _ ih => exact ih

/-- **Acceptance**: under a whole number as depth limit, on tokens with an end of the input, the
parser returns exactly the tree of the sentence before it, provided that one level for the whole and
those of the tree are within the limit. There is at most one such tree. The parser rejects
everything else with at least one fault, if no later fragment finds the stack full under a limit
that has too many digits for a fault. All this is what a parse with a cursor comes to, wherever the
cursor is before. -/
theorem accepts_iff_sentence {d : Int} {ts : List Token} (heof : ∃ t ∈ ts, t.isEof = true)
    (hadm : ∀ t ∈ TokenStream.bodyOf ts, t.Admissible)
    (hstack : d ≤ 64 ∨ StackHolds (.withDepth (.ofInt d)) (TokenStream.bodyOf ts)) :
    (∀ e, Accepts (.ofInt d) ts e ↔
        Sentence (TokenStream.bodyOf ts) e ∧ 1 + (e.nest : Int) ≤ d) ∧
      (∀ e e', Sentence (TokenStream.bodyOf ts) e → Sentence (TokenStream.bodyOf ts) e' → e = e') ∧
      ((¬∃ e, Sentence (TokenStream.bodyOf ts) e ∧ 1 + (e.nest : Int) ≤ d) →
        (d ≤ 64 ∨ ¬Overflows (.withDepth (.ofInt d)) (TokenStream.bodyOf ts) ∨
          Integer.text? d ≠ none) → Rejects (.ofInt d) ts) ∧
      ∃ r, readTokens (.ofInt d) ts = some r ∧
        ∀ c, Descent.parse ⟨ts, .withDepth (.ofInt d)⟩ c = r.stream.parseOutcome r.report := by
  have hs : StackHolds (.withDepth (.ofInt d)) (TokenStream.bodyOf ts) :=
    hstack.elim (fun hd => stackHolds_of_le (by omega) _) id
  have hread : ∀ e, fragment (.withDepth (.ofInt d)) (TokenStream.bodyOf ts) = .ok (e, []) ↔
      Sentence (TokenStream.bodyOf ts) e ∧ 1 + (e.nest : Int) ≤ d := by
    intro e
    have hc : (DepthLimit.ofInt d).Covers 0 (e.nest + 1) ↔ 1 + (e.nest : Int) ≤ d := by
      rw [DepthLimit.covers_ofInt]
      omega
    constructor
    · intro h
      obtain ⟨hsent, hcov⟩ := sentence_of_fragment_eq_ok h
      exact ⟨hsent, hc.mp hcov⟩
    · rintro ⟨hsent, hle⟩
      exact hsent.fragment_eq_ok (hc.mpr hle) hs
  obtain ⟨r, eof, hr, hrep⟩ := exists_readTokens_eq (.ofInt d) heof
  refine ⟨fun e => ?_, fun e e' h h' => h.unique h', fun hnone hroom => ?_,
    r, hr, parse_of_readTokens hr⟩
  · rw [accepts_iff, hread]
    exact ⟨fun h => h.2, fun h => ⟨heof, h⟩⟩
  · rcases fragments_verdict (.withDepth (.ofInt d)) eof _ _ (Nat.lt_succ_self _) hadm with
      ⟨e, he, -⟩ | ⟨f, -, ⟨hv, hm⟩ | hv⟩
    · exact absurd ⟨e, (hread e).mp he⟩ hnone
    · rw [← hrep] at hv hm
      exact ⟨r, hr, hv, by rw [Reading.expression?, hv], by simpa [Report.faults] using hm⟩
    · obtain ⟨htext, ho⟩ := (fragments_unwritten_iff _ eof _ _ (Nat.lt_succ_self _)).mp hv
      rcases hroom with hd | hno | hsome
      · exact absurd ho (not_overflows_of_le (by omega) _)
      · exact absurd ho hno
      · exact absurd htext hsome

/-- The limit 2 has room for one negation, and its operand below it. -/
theorem accepts_negation :
    Accepts (.ofInt 2)
      [⟨.bang, "!", .nil, 1⟩, Pushdown.operandToken, ⟨.semicolon, ";", .nil, 1⟩,
        ⟨.eof, "", .nil, 1⟩]
      (.unary ⟨.bang, "!", .nil, 1⟩ (.literal .nil)) := by
  refine ((accepts_iff_sentence ⟨⟨.eof, "", .nil, 1⟩, by simp, rfl⟩ ?_
    (Or.inl (by decide))).1 _).mpr
    ⟨⟨[⟨.bang, "!", .nil, 1⟩, Pushdown.operandToken], ?_, Or.inr ⟨_, rfl, rfl⟩⟩, by decide⟩
  · simp [TokenStream.bodyOf, TokenOf.Admissible, TokenOf.isEof, Pushdown.operandToken]
  · have hnil : Derives (.rule .unary) [Pushdown.operandToken] (.literal .nil) :=
      .operand (.literal (.nothing rfl))
    exact Derives.expression_of_unary (.operator rfl hnil)

end ExprFront
