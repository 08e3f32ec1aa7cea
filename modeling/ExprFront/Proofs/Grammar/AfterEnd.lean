import ExprFront.Proofs.Grammar.Containment
import ExprFront.Proofs.Grammar.SteadyCursor

/-!
Nothing after the first end of the input is read.

Two lists of tokens may differ after the first end of the input (`Descent.Shares`). Methods on them
do the same from a position on (`Descent.SameFrom`) if they look at no token beyond the end, and not
back from the front, where the token before is the last one of all. A rule looks back only behind a
token that it has moved over, and this raises the position from which on the rest of it has to do
the same (`same_choice`). The bounds on the steps of loops and recursions are not the same, but both
are more than there are positions up to the end.

So the rules, a fragment and the recovery do the same wherever they start (`same_rule`,
`same_fragment`, `same_recover`). So does a parse, since it comes to the report on the body
(`parse_withAfter`). `after_end_ignored` puts this together.
-/

namespace ExprFront

open TokenStream

/-- A stream with other tokens after its end. -/
def TokenStream.withAfter (s : TokenStream) (after : List Token) : TokenStream :=
  { s with after := after }

namespace Descent

open Method

variable {d d' : Descent} {lo : Nat} {α β : Type}

/-! ### Lists that are the same up to the end -/

/-- Two lists of tokens under the same limits that differ at most after the first end of the
input. -/
inductive Shares : Descent → Descent → Prop where
  | intro (s : TokenStream) (limits : Limits) (after : List Token) :
    Shares (s.descent limits) ((s.withAfter after).descent limits)

/-- Where the position is a given one or further on, but not past the end of the input, two methods
do the same. -/
def SameFrom (d : Descent) (lo : Nat) (m m' : Parsing α) : Prop :=
  ∀ c, lo ≤ c.position → c.position ≤ d.last → m c = m' c

namespace SameFrom

lemma refl (m : Parsing α) : d.SameFrom lo m m := fun _ _ _ => rfl

lemma mono {m m' : Parsing α} (h : d.SameFrom lo m m') {hi : Nat} (hle : lo ≤ hi) :
    d.SameFrom hi m m' := fun c hc => h c (hle.trans hc)

lemma bind {m m' : Parsing α} {f f' : α → Parsing β} (hm : d.SameFrom lo m m')
    (hsteady : m.Moves d.Onward) (hf : ∀ a, d.SameFrom lo (f a) (f' a)) :
    d.SameFrom lo (m >>= f) (m' >>= f') := by
  intro c hlo hle
  have honward := hsteady c
  have heq := hm c hlo hle
  cases hr : m c with
  | mk r c' =>
      rw [hr] at honward heq
      cases r with
      | ok a =>
          rw [bind_of_ok hr, bind_of_ok heq.symm]
          exact hf a c' (hlo.trans honward.forward) (honward.within hle)
      | error b => rw [bind_of_error hr, bind_of_error heq.symm]

lemma ite {m m' n n' : Parsing α} (hm : d.SameFrom lo m m') (hn : d.SameFrom lo n n') (p : Prop)
    [Decidable p] : d.SameFrom lo (if p then m else n) (if p then m' else n') := by
  split
  · exact hm
  · exact hn

end SameFrom

/-! ### Looking and moving -/

section Stream

variable {s : TokenStream} {limits : Limits}

lemma last_descent (s : TokenStream) (limits : Limits) :
    (s.descent limits).last = s.body.length := by
  have hbody : s.body.findIdx (fun t => t.isEof) = s.body.length :=
    List.findIdx_eq_length_of_false s.body_not_eof
  change (s.body ++ s.eof :: s.after).findIdx (fun t => t.isEof) = s.body.length
  rw [List.findIdx_append, hbody, if_neg (lt_irrefl _), List.findIdx_cons, s.eof_isEof, cond_true,
    Nat.zero_add]

/-- A cursor that is not past the end of the input stands before a rest of the body. -/
lemma exists_cursor {c : Cursor} (h : c.position ≤ (s.descent limits).last) :
    ∃ ts levels faults, ts <:+ s.body ∧ c = s.cursor ts levels faults := by
  rw [last_descent] at h
  exact ⟨s.body.drop c.position, c.levels, c.faults, List.drop_suffix _ _,
    (TokenStream.cursor_drop h).symm⟩

end Stream

section Shared

variable (h : d.Shares d')

include h

lemma Shares.limits_eq : d'.limits = d.limits := by
  obtain ⟨s, limits, after⟩ := h
  rfl

/-- The steps of a method are more than there are positions up to the end. -/
lemma Shares.last_lt : d.last < d.tokens.length + 1 ∧ d.last < d'.tokens.length + 1 := by
  obtain ⟨s, limits, after⟩ := h
  have hlt (after : List Token) : s.body.length < (s.body ++ s.eof :: after).length + 1 := by
    rw [List.length_append]
    omega
  rw [last_descent]
  exact ⟨hlt s.after, hlt after⟩

lemma same_peek : d.SameFrom lo d.peek d'.peek := by
  obtain ⟨s, limits, after⟩ := h
  intro c _ hle
  obtain ⟨ts, levels, faults, hts, rfl⟩ := exists_cursor hle
  exact (peek_cursor hts).trans (peek_cursor (s := s.withAfter after) hts).symm

/-- Behind the front the token before the position is the same one. -/
lemma same_previous : d.SameFrom (lo + 1) d.previous d'.previous := by
  obtain ⟨s, limits, after⟩ := h
  intro c hlo hle
  rw [last_descent] at hle
  obtain ⟨n, hn⟩ := Nat.exists_eq_add_one_of_ne_zero (n := c.position) (by omega)
  rw [previous_apply limits hle, previous_apply (s := s.withAfter after) limits hle, hn]
  rfl

lemma same_atEnd : d.SameFrom lo d.atEnd d'.atEnd :=
  (same_peek h).bind (need_moves _ _) fun _ => .refl _

lemma same_accept (types : List TokenType) :
    d.SameFrom lo (d.accept types) (d'.accept types) := by
  obtain ⟨s, limits, after⟩ := h
  intro c _ hle
  obtain ⟨ts, levels, faults, hts, rfl⟩ := exists_cursor hle
  exact (accept_cursor hts types).trans (accept_cursor (s := s.withAfter after) hts types).symm

/-- Over a token of some types, or on. Behind the token the methods have to do the same only from
the next position on. -/
lemma same_choice (types : List TokenType) {m m' n n' : Parsing α}
    (hm : d.SameFrom (lo + 1) m m') (hn : d.SameFrom lo n n') :
    d.SameFrom lo (do if ← d.accept types then m else n)
      (do if ← d'.accept types then m' else n') := by
  obtain ⟨s, limits, after⟩ := h
  intro c hlo hle
  obtain ⟨ts, levels, faults, hts, rfl⟩ := exists_cursor hle
  have haccept : (s.descent limits).accept types (s.cursor ts levels faults) = _ :=
    accept_cursor hts types
  have haccept' : ((s.withAfter after).descent limits).accept types (s.cursor ts levels faults) =
      _ := accept_cursor (s := s.withAfter after) hts types
  split at haccept
  · next hany =>
      rw [if_pos hany] at haccept'
      rw [bind_of_ok haccept, bind_of_ok haccept']
      cases ts with
      | nil => simp at hany
      | cons t ts =>
          have hposition : s.position ts = s.position (t :: ts) + 1 := position_of_cons hts
          refine hm (s.cursor ts levels faults) ?_ ?_
          · exact (Nat.add_le_add_right hlo 1).trans hposition.ge
          · rw [last_descent]
            exact position_le ts
  · next hany =>
      rw [if_neg hany] at haccept'
      rw [bind_of_ok haccept, bind_of_ok haccept']
      exact hn _ hlo hle

lemma same_require (type : TokenType) (expected context : String) :
    d.SameFrom lo (d.require type expected context) (d'.require type expected context) := by
  obtain ⟨s, limits, after⟩ := h
  intro c _ hle
  obtain ⟨ts, levels, faults, hts, rfl⟩ := exists_cursor hle
  exact (require_cursor hts type expected context).trans
    (require_cursor (s := s.withAfter after) hts type expected context).symm

/-- The next boundary is the same one, since the end of the input is a boundary. -/
lemma same_recover : d.SameFrom lo d.recover d'.recover := by
  obtain ⟨s, limits, after⟩ := h
  intro c _ hle
  obtain ⟨ts, levels, faults, hts, rfl⟩ := exists_cursor hle
  exact (recover_cursor hts).trans (recover_cursor (s := s.withAfter after) hts).symm

/-! ### Rules -/

/-- The induction is on the steps. Each of them needs an operator, so that the position from which
on they do the same goes up as the steps go down. -/
lemma same_extend (level : Level) {operand operand' : Parsing Value} {steps steps' : Nat}
    (hsame : d.SameFrom lo operand operand') (hsteady : operand.Moves d.Onward)
    (hsteps : d.last < lo + steps) (hsteps' : d.last < lo + steps') (left : Value) :
    d.SameFrom lo (d.extend level operand steps left) (d'.extend level operand' steps' left) := by
  induction steps generalizing lo steps' left with
  | zero => intro c hlo hle; omega
  | succ steps ih =>
      obtain _ | steps' := steps'
      · intro c hlo hle; omega
      refine same_choice h _ ?_ (.refl _)
      refine (same_previous h).bind (need_moves _ _) fun operator => ?_
      refine (hsame.mono (Nat.le_succ lo)).bind hsteady fun right => ?_
      refine SameFrom.bind (.refl _) (build_steady _) fun node => ?_
      exact ih (hsame.mono (Nat.le_succ lo)) (by omega) (by omega) node

lemma same_chain (level : Level) {operand operand' : Parsing Value}
    (hsame : d.SameFrom lo operand operand') (hsteady : operand.Moves d.Onward) :
    d.SameFrom lo (d.chain level operand) (d'.chain level operand') := by
  obtain ⟨hlt, hlt'⟩ := h.last_lt
  exact hsame.bind hsteady fun left =>
    same_extend h level hsame hsteady (by omega) (by omega) left

lemma same_level {unary unary' : Parsing Value} (hsame : d.SameFrom lo unary unary')
    (hsteady : unary.Moves d.Onward) (l : Level) :
    d.SameFrom lo (d.level unary l) (d'.level unary' l) := by
  have hf : d.SameFrom lo (d.factor unary) (d'.factor unary') := same_chain h _ hsame hsteady
  have ht : d.SameFrom lo (d.term unary) (d'.term unary') :=
    same_chain h _ hf (level_steady hsteady .factor)
  have hc : d.SameFrom lo (d.comparison unary) (d'.comparison unary') :=
    same_chain h _ ht (level_steady hsteady .term)
  cases l with
  | equality => exact same_chain h _ hc (level_steady hsteady .comparison)
  | comparison => exact hc
  | term => exact ht
  | factor => exact hf

lemma same_nested (frames : Nat) {rule rule' : Parsing Value} (hsame : d.SameFrom lo rule rule') :
    d.SameFrom lo (d.nested frames rule) (d'.nested frames rule') := by
  have hinside : d.SameFrom lo
      (do
        let c ← Method.state
        if d.limits.depth.exceededBy c.levels then
          let t ← d.peek
          Method.stop (.fault ⟨.tooDeep d.limits.depth.value, t⟩)
        else if d.limits.stack ≤ frames then Method.stop .stackFull
        else rule : Parsing Value)
      (do
        let c ← Method.state
        if d'.limits.depth.exceededBy c.levels then
          let t ← d'.peek
          Method.stop (.fault ⟨.tooDeep d'.limits.depth.value, t⟩)
        else if d'.limits.stack ≤ frames then Method.stop .stackFull
        else rule') := by
    rw [h.limits_eq]
    refine SameFrom.bind (.refl _) state_moves fun c => ?_
    refine SameFrom.ite ?_ (SameFrom.ite (.refl _) hsame _) _
    exact (same_peek h).bind (need_moves _ _) fun t => .refl _
  intro c hlo hle
  have heq := hinside { c with levels := c.levels + 1 } hlo hle
  exact congrArg (fun p => (p.1, { p.2 with levels := p.2.levels - 1 })) heq

lemma same_primary {inside inside' : Parsing Value} (hsame : d.SameFrom (lo + 1) inside inside')
    (hsteady : inside.Moves d.Onward) :
    d.SameFrom lo (d.primary inside) (d'.primary inside') := by
  refine same_choice h _ (.refl _) (same_choice h _ (.refl _) (same_choice h _ (.refl _) ?_))
  refine same_choice h _ ?_ (same_choice h _ ?_ ?_)
  · exact (same_previous h).bind (need_moves _ _) fun t => .refl _
  · exact hsame.bind hsteady fun inner =>
      (same_require h _ _ _).bind (require_steady _ _ _) fun _ => .refl _
  · exact (same_peek h).bind (need_moves _ _) fun t => .refl _

/-- As in `same_extend`, each step is behind a token. -/
lemma same_unaryAt {steps steps' : Nat} (hsteps : d.last < lo + steps)
    (hsteps' : d.last < lo + steps') (frames : Nat) :
    d.SameFrom lo (d.unaryAt steps frames) (d'.unaryAt steps' frames) := by
  induction steps generalizing lo steps' frames with
  | zero => intro c hlo hle; omega
  | succ steps ih =>
      obtain _ | steps' := steps'
      · intro c hlo hle; omega
      have hdeeper (frames : Nat) :
          d.SameFrom (lo + 1) (d.unaryAt steps frames) (d'.unaryAt steps' frames) :=
        ih (by omega) (by omega) frames
      refine same_choice h _ ?_ ?_
      · refine (same_previous h).bind (need_moves _ _) fun operator => ?_
        exact (same_nested h _ (hdeeper _)).bind (nested_steady (unaryAt_steady _ _) _)
          fun operand => .refl _
      · have hequality := same_level h (hdeeper (frames + Nesting.parenthesisFrames))
          (unaryAt_steady _ _) .equality
        exact same_primary h (same_nested h _ hequality)
          (nested_steady (level_steady (unaryAt_steady _ _) .equality) _)

lemma same_unary (frames : Nat) : d.SameFrom lo (d.unary frames) (d'.unary frames) := by
  obtain ⟨hlt, hlt'⟩ := h.last_lt
  exact same_unaryAt h (by omega) (by omega) frames

lemma same_expression (frames : Nat) :
    d.SameFrom lo (d.expression frames) (d'.expression frames) :=
  same_nested h frames (same_level h (same_unary h frames) (unary_steady frames) .equality)

lemma same_rule (name : RuleName) : d.SameFrom lo (d.rule name) (d'.rule name) := by
  cases name with
  | expression => exact same_expression h 0
  | level l => exact same_level h (same_unary h 0) (unary_steady 0) l
  | unary => exact same_unary h 0
  | primary => exact same_primary h (same_expression h _) (expression_steady _)

lemma same_fragment : d.SameFrom lo d.fragment d'.fragment := by
  refine (same_expression h 0).bind (expression_steady 0) fun e => ?_
  refine (same_accept h _).bind (accept_steady _) fun _ => ?_
  refine (same_atEnd h).bind atEnd_steady fun b => SameFrom.ite (.refl _) ?_ _
  exact (same_peek h).bind (need_moves _ _) fun t => .refl _

end Shared

/-! ### A parse -/

section Stream

variable {s : TokenStream} {limits : Limits}

/-- A report that ends at a payload ends behind a token of the body, and the payload is the one of
that token, whatever comes after the end. -/
lemma exists_refused {kindName : String}
    (hv : (s.parse limits).verdict = .broken (.payload kindName)) :
    ∃ t ∈ s.body, ∀ after, (s.withAfter after).breakAt (s.parse limits).rest (.payload kindName) =
      .refused (.literalHolds t.payload) := by
  rcases passed_admissible s limits (s.body.length + 1) s.body [] List.suffix_rfl
    (Nat.lt_succ_self _) with ⟨-, hverdict⟩ | ⟨us, t, -, -, -, -, -, hsuffix⟩
  · exact absurd hv (hverdict kindName)
  · refine ⟨t, hsuffix.subset List.mem_cons_self, fun after => ?_⟩
    exact congrArg (fun u : Token => Break.refused (.literalHolds u.payload))
      (previous_of_cons (s := s.withAfter after) hsuffix)

lemma parse_withAfter (s : TokenStream) (limits : Limits) (after : List Token) (c : Cursor) :
    ((s.withAfter after).descent limits).parse c = (s.descent limits).parse c := by
  rw [parse_follows, parse_follows]
  change (s.withAfter after).parseOutcome (s.parse limits) = s.parseOutcome (s.parse limits)
  rw [parseOutcome, parseOutcome]
  cases hv : (s.parse limits).verdict with
  | accepted e => rfl
  | rejected => rfl
  | broken ending =>
      cases ending with
      | payload kindName =>
          obtain ⟨t, -, ht⟩ := exists_refused hv
          exact congrArg (fun b => (Except.error b, s.cursor _ _ _))
            ((ht after).trans (ht s.after).symm)
      | unwritten => rfl

/-- A parse breaks off at the payload of a token of the body only, or because the depth limit cannot
be written where some fragment of the body finds the stack full. -/
lemma parse_eq_error {c : Cursor} {b : Break} (h : ((s.descent limits).parse c).1 = .error b) :
    (∃ t ∈ s.body, b = .refused (.literalHolds t.payload)) ∨
      b = .unwritten ∧ limits.depth.text? = none ∧ Overflows limits s.body := by
  have hunwritten := parse_eq_unwritten_iff s limits c
  rw [h] at hunwritten
  rw [parse_follows, parseOutcome] at h
  cases hv : (s.parse limits).verdict with
  | accepted e => simp [hv] at h
  | rejected => simp [hv] at h
  | broken ending =>
      rw [hv] at h
      cases ending with
      | payload kindName =>
          obtain ⟨t, hmem, ht⟩ := exists_refused hv
          exact Or.inl ⟨t, hmem, (Except.error.inj h).symm.trans (ht s.after)⟩
      | unwritten =>
          obtain rfl : Break.unwritten = b := Except.error.inj h
          exact Or.inr ⟨rfl, hunwritten.mp rfl⟩

end Stream

end Descent

/-- **What comes after the end**: a list of tokens with one end of the input and the same list with
any tokens after its end, further ends among them, come to the same. A parse gives the same result,
or is broken off by the payload of the same token before the end or because the depth limit cannot
be written, and it leaves the same cursor. So do the rules, a fragment and the recovery from any
cursor at or before the end, with any levels open and any faults recorded. -/
theorem after_end_ignored {pre : List Token} {eof : Token} (hpre : ∀ t ∈ pre, t.isEof = false)
    (heof : eof.isEof = true) (rest : List Token) (limits : Limits) :
    let d : Descent := ⟨pre ++ eof :: rest, limits⟩
    let d' : Descent := ⟨pre ++ [eof], limits⟩
    (∀ c, d.parse c = d'.parse c) ∧
      (∀ c b, (d.parse c).1 = .error b →
        (∃ t ∈ pre, b = .refused (.literalHolds t.payload)) ∨
          b = .unwritten ∧ limits.depth.text? = none ∧ Overflows limits pre) ∧
      ∀ c, c.position ≤ pre.length →
        (∀ name, d.rule name c = d'.rule name c) ∧ d.fragment c = d'.fragment c ∧
          d.recover c = d'.recover c := by
  intro d d'
  let s : TokenStream := ⟨pre, eof, rest, hpre, heof⟩
  have hshares : d.Shares d' := .intro s limits []
  refine ⟨fun c => (Descent.parse_withAfter s limits [] c).symm,
    fun c b hb => Descent.parse_eq_error (s := s) hb, fun c hc => ?_⟩
  have hlast : c.position ≤ d.last := hc.trans (Descent.last_descent s limits).ge
  exact ⟨fun name => Descent.same_rule hshares name c (Nat.zero_le _) hlast,
    Descent.same_fragment hshares c (Nat.zero_le _) hlast,
    Descent.same_recover hshares c (Nat.zero_le _) hlast⟩

/-- An instance of the theorem: the parenthesis that would close the group, and a number that would
break off the parse, come after the end. A rule may start at the end with levels open. -/
theorem after_end_ignored_group :
    let pre : List Token := [⟨.leftParen, "(", .nil, 1⟩, ⟨.number, "1", .scalar (.int 1), 1⟩]
    let eof : Token := endOfInput 1
    let rest : List Token := [⟨.rightParen, ")", .nil, 1⟩, ⟨.number, "2", .list [], 1⟩, eof]
    let d : Descent := ⟨pre ++ eof :: rest, .withDepth .standard⟩
    let d' : Descent := ⟨pre ++ [eof], .withDepth .standard⟩
    (∀ t ∈ pre, t.isEof = false) ∧ eof.isEof = true ∧ d.parse {} = d'.parse {} ∧
      d.rule .expression ⟨2, -3, []⟩ = d'.rule .expression ⟨2, -3, []⟩ := by
  intro pre eof rest d d'
  have hpre : ∀ t ∈ pre, t.isEof = false := by simp [pre, TokenOf.isEof]
  have heof : eof.isEof = true := rfl
  obtain ⟨hparse, -, hcalls⟩ := after_end_ignored hpre heof rest (.withDepth .standard)
  exact ⟨hpre, heof, hparse {}, (hcalls ⟨2, -3, []⟩ le_rfl).1 .expression⟩

end ExprFront
