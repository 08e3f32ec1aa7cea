import Mathlib.Order.Nat
import ExprFront.Grammar.Descent
import ExprFront.Proofs.Grammar.ResumePoint
import ExprFront.Proofs.Method

/-!
What calls do to a cursor.

Every method but a whole parse is steady (`Descent.Onward`): it closes the levels that it opens,
records no fault, never goes back, and does not pass the first end of the input. This holds of
looking and moving (`advance_steady` is where the end of the input stops the cursor), is kept by
steps in a row and by loops, and is kept by a deeper level because a level is closed on every way
out of it (`nested_steady`), also where the rule inside is broken off.

A whole parse starts from the front and closes all levels, so after any calls in a row all levels
are closed and the cursor is at or before the end of the input (`after_steady`).
-/

namespace ExprFront

namespace Descent

variable {d : Descent}

open Method

/-! ### Steady methods -/

/-- The position of the first end of the input, or the end of a list without one. -/
def last (d : Descent) : Nat := d.tokens.findIdx fun t => t.isEof

/-- From one cursor to another: with the same levels open and the same faults, not back, and not
past the first end of the input. -/
structure Onward (d : Descent) (c c' : Cursor) : Prop where
  levels : c'.levels = c.levels
  faults : c'.faults = c.faults
  forward : c.position ≤ c'.position
  within : c.position ≤ d.last → c'.position ≤ d.last

instance (d : Descent) : IsPreorder Cursor d.Onward where
  refl _ := ⟨rfl, rfl, le_rfl, id⟩
  trans _ _ _ h h' := {
    levels := h'.levels.trans h.levels
    faults := h'.faults.trans h.faults
    forward := h.forward.trans h'.forward
    within := h'.within ∘ h.within }

lemma build_steady (r : Except BuildError Value) : (Parsing.build r).Moves d.Onward := by
  cases r with
  | ok v => exact pure_moves v
  | error e => exact stop_moves (Break.refused e)

/-! ### Looking and moving -/

lemma atEnd_steady : d.atEnd.Moves d.Onward := (need_moves _ _).bind fun _ => pure_moves _

lemma check_steady (type : TokenType) : (d.check type).Moves d.Onward := by
  refine atEnd_steady.bind fun b => ?_
  exact (pure_moves _).ite ((need_moves _ _).bind fun _ => pure_moves _) _

/-- Before a token that is not the end of the input, there is room. -/
lemma position_lt_last {c : Cursor} {t : Token} (ht : d.tokens[c.position]? = some t)
    (heof : t.isEof = false) (h : c.position ≤ d.last) : c.position < d.last := by
  refine lt_of_le_of_ne h fun heq => ?_
  obtain ⟨hlt, hget⟩ := List.getElem?_eq_some_iff.mp ht
  have hlast : d.last < d.tokens.length := heq ▸ hlt
  have hend : d.tokens[d.last].isEof = true :=
    List.findIdx_getElem (p := fun t : Token => t.isEof) (w := hlast)
  simp only [← heq, hget, heof, Bool.false_eq_true] at hend

/-- The cursor moves over a token only if it is not the end of the input. -/
lemma advance_steady : d.advance.Moves d.Onward := by
  intro c
  cases ht : d.tokens[c.position]? with
  | none =>
      have hend : d.atEnd c = (.error .noToken, c) := bind_of_error (need_of_none ht)
      rw [advance, bind_of_error hend]
      exact refl_of d.Onward c
  | some t =>
      have hend : d.atEnd c = (.ok t.isEof, c) := bind_of_ok (need_of_some ht)
      rw [advance, bind_of_ok hend]
      cases heof : t.isEof with
      | true => exact need_moves _ _ c
      | false =>
          have hmove : d.Onward c { c with position := c.position + 1 } :=
            ⟨rfl, rfl, Nat.le_succ _, fun h => position_lt_last ht heof h⟩
          exact trans_of d.Onward hmove (need_moves _ _ _)

lemma accept_steady (types : List TokenType) : (d.accept types).Moves d.Onward := by
  induction types with
  | nil => exact pure_moves false
  | cons type types ih =>
      refine (check_steady type).bind fun b => ?_
      exact (advance_steady.bind fun _ => pure_moves true).ite ih _

lemma require_steady (type : TokenType) (expected context : String) :
    (d.require type expected context).Moves d.Onward := by
  refine (check_steady type).bind fun b => ?_
  exact advance_steady.ite ((need_moves _ _).bind fun _ => stop_moves _) _

/-! ### Rules -/

lemma extend_steady {level : Level} {operand : Parsing Value} (h : operand.Moves d.Onward) :
    ∀ (steps : Nat) (left : Value), (d.extend level operand steps left).Moves d.Onward := by
  intro steps
  induction steps with
  | zero => exact fun _ => stop_moves Break.outOfSteps
  | succ steps ih =>
      intro left
      refine (accept_steady level.operators).bind fun b => ?_
      refine Moves.ite ?_ (pure_moves left) _
      refine (need_moves _ _).bind fun operator => h.bind fun right => ?_
      exact (build_steady _).bind ih

lemma chain_steady {level : Level} {operand : Parsing Value} (h : operand.Moves d.Onward) :
    (d.chain level operand).Moves d.Onward := h.bind fun left => extend_steady h _ left

lemma level_steady {unary : Parsing Value} (h : unary.Moves d.Onward) (l : Level) :
    (d.level unary l).Moves d.Onward := by
  have hf : (d.factor unary).Moves d.Onward := chain_steady h
  have ht : (d.term unary).Moves d.Onward := chain_steady hf
  have hc : (d.comparison unary).Moves d.Onward := chain_steady ht
  cases l with
  | equality => exact chain_steady hc
  | comparison => exact hc
  | term => exact ht
  | factor => exact hf

/-- A level that is opened is closed again, also if the rule inside is broken off. -/
lemma nested_steady {rule : Parsing Value} (h : rule.Moves d.Onward) (frames : Nat) :
    (d.nested frames rule).Moves d.Onward := by
  have hinside : (do
      let c ← Method.state
      if d.limits.depth.exceededBy c.levels then
        let t ← d.peek
        Method.stop (.fault ⟨.tooDeep d.limits.depth.value, t⟩)
      else if d.limits.stack ≤ frames then Method.stop .stackFull
      else rule : Parsing Value).Moves d.Onward := by
    refine Moves.bind (state_moves) fun c => Moves.ite ?_ (Moves.ite ?_ h _) _
    · exact (need_moves _ _).bind fun _ => stop_moves _
    · exact stop_moves Break.stackFull
  intro c
  obtain ⟨hlevels, hfaults, hforward, hwithin⟩ := hinside { c with levels := c.levels + 1 }
  refine ⟨?_, hfaults, hforward, hwithin⟩
  exact (congrArg (· - 1) hlevels).trans (Int.add_sub_cancel c.levels 1)

lemma primary_steady {inside : Parsing Value} (h : inside.Moves d.Onward) :
    (d.primary inside).Moves d.Onward := by
  have htake (types : List TokenType) {m m' : Parsing Value} (hm : m.Moves d.Onward)
      (hm' : m'.Moves d.Onward) :
      (do if ← d.accept types then m else m' : Parsing Value).Moves d.Onward :=
    (accept_steady types).bind fun b => hm.ite hm' _
  refine htake _ (build_steady _) (htake _ (build_steady _) (htake _ (build_steady _) ?_))
  refine htake _ ((need_moves _ _).bind fun t => build_steady _) (htake _ ?_ ?_)
  · exact h.bind fun inner => (require_steady _ _ _).bind fun _ => build_steady _
  · exact (need_moves _ _).bind fun t => stop_moves _

lemma unaryAt_steady :
    ∀ (steps frames : Nat), (d.unaryAt steps frames).Moves d.Onward := by
  intro steps
  induction steps with
  | zero => exact fun _ => stop_moves Break.outOfSteps
  | succ steps ih =>
      intro frames
      refine (accept_steady unaryOperators).bind fun b => Moves.ite ?_ ?_ _
      · refine (need_moves _ _).bind fun operator => ?_
        exact (nested_steady (ih _) _).bind fun operand => build_steady _
      · exact primary_steady (nested_steady (level_steady (ih _) .equality) _)

lemma unary_steady (frames : Nat) : (d.unary frames).Moves d.Onward := unaryAt_steady _ frames

lemma expression_steady (frames : Nat) : (d.expression frames).Moves d.Onward :=
  nested_steady (level_steady (unary_steady frames) .equality) frames

lemma rule_steady (name : RuleName) : (d.rule name).Moves d.Onward := by
  cases name with
  | expression => exact expression_steady 0
  | level l => exact level_steady (unary_steady 0) l
  | unary => exact unary_steady 0
  | primary => exact primary_steady (expression_steady _)

lemma fragment_steady : d.fragment.Moves d.Onward := by
  refine (expression_steady 0).bind fun e => (accept_steady _).bind fun _ => ?_
  refine atEnd_steady.bind fun b => Moves.ite (pure_moves e) ?_ _
  exact (need_moves _ _).bind fun t => stop_moves _

end Descent

/-! ### Recovery -/

namespace Recovery

/-- Parsing goes on further on, and not after the first end of the input. -/
lemma le_resume? {ts : List Token} {k : Nat} {r : Int} (h : resume? ts k = some r) :
    k ≤ r.toNat ∧ (k ≤ ts.findIdx (fun t => t.isEof) → r.toNat ≤ ts.findIdx fun t => t.isEof) := by
  obtain ⟨l, rfl, hl⟩ := exists_resumesAt h
  rw [Int.toNat_natCast]
  refine ⟨hl.le, fun hk => ?_⟩
  rcases Nat.lt_or_ge (ts.findIdx fun t => t.isEof) ts.length with hlast | hlast
  · -- a search from the first end of the input stays there
    have hstay := (resumesAt_iff_of_isEof (List.getElem?_eq_getElem hlast)
      List.findIdx_getElem).mpr rfl
    exact hl.mono hstay hk
  · exact hl.lt_length.le.trans hlast

end Recovery

namespace Descent

open Method

variable {d : Descent}

lemma recover_steady : d.recover.Moves d.Onward := by
  intro c
  rw [recover]
  split
  · next k hk =>
      obtain ⟨hforward, hwithin⟩ := Recovery.le_resume? hk
      exact ⟨rfl, rfl, hforward, hwithin⟩
  · exact refl_of d.Onward c

/-! ### Calls -/

/-- Every call but a whole parse is steady. -/
lemma call_steady {step : ParseSession.Step} (h : step ≠ .parse) :
    (d.call step).Moves d.Onward := by
  cases step with
  | parse => exact absurd rfl h
  | rule name => exact (rule_steady name).map Reply.node
  | fragment => exact fragment_steady.map Reply.node
  | accept types => exact (accept_steady types).map Reply.truth
  | check type => exact (check_steady type).map Reply.truth
  | atEnd => exact atEnd_steady.map Reply.truth
  | advance => exact advance_steady.map Reply.token
  | next => exact (need_moves _ _).map Reply.token
  | previous => exact (need_moves _ _).map Reply.token
  | require type expected context => exact (require_steady type expected context).map Reply.token
  | recover => exact recover_steady.map fun _ => Reply.done

/-! ### A whole parse -/

/-- All levels are closed, and the position is at or before the end of the input. -/
structure Settled (d : Descent) (c : Cursor) : Prop where
  closed : c.levels = 0
  within : c.position ≤ d.last

section Settling

variable {α : Type}

lemma settles_of_steady {m : Parsing α} (h : m.Moves d.Onward) : m.Moves (Keeps d.Settled) :=
  h.mono fun _ _ hc h => ⟨hc.levels.trans h.closed, hc.within h.within⟩

lemma giveUp_settles (f : Fault) : (d.giveUp f).Moves (Keeps d.Settled) := by
  have hrecord : (Method.change fun c => { c with faults := c.faults ++ [f] } :
      Parsing Unit).Moves (Keeps d.Settled) := fun c hc => ⟨hc.closed, hc.within⟩
  exact hrecord.bind fun _ => settles_of_steady recover_steady

/-- A fragment that fills the stack is given up with all levels closed in any case. -/
lemma turn_settles (found : Option Value) : (d.turn found).Moves (Keeps d.Settled) := by
  intro c hc
  have hfragment := settles_of_steady fragment_steady c hc
  have hgive (f : Fault) :
      (do d.giveUp f; return found : Parsing (Option Value)).Moves (Keeps d.Settled) :=
    (giveUp_settles f).bind fun _ => pure_moves found
  rw [turn]
  cases hf : d.fragment c with
  | mk r c' =>
      rw [hf] at hfragment
      cases r with
      | ok e => exact hfragment
      | error b =>
          cases b with
          | fault f => exact hgive f c' hfragment
          | stackFull =>
              have hpeek : (do
                  let t ← d.peek
                  if d.limits.depth.text?.isSome then
                    d.giveUp ⟨.tooDeep d.limits.depth.value, t⟩
                    return found
                  else Method.stop .unwritten : Parsing (Option Value)).Moves (Keeps d.Settled) :=
                (need_moves _ _).bind fun t => (hgive _).ite (stop_moves Break.unwritten) _
              exact hpeek { c' with levels := 0 } ⟨rfl, hfragment.within⟩
          | noToken => exact hfragment
          | refused e => exact hfragment
          | unwritten => exact hfragment
          | outOfSteps => exact hfragment

lemma turns_settles :
    ∀ (steps : Nat) (found : Option Value), (d.turns steps found).Moves (Keeps d.Settled) := by
  intro steps
  induction steps with
  | zero => exact fun _ => stop_moves Break.outOfSteps
  | succ steps ih =>
      intro found
      refine (turn_settles found).bind fun found => ?_
      exact (settles_of_steady atEnd_steady).bind fun b => (pure_moves found).ite (ih found) _

/-- A parse starts from the front with all levels closed, whatever was done before. -/
lemma parse_settles (c : Cursor) : d.Settled (d.parse c).2 := by
  have hfront : d.Settled {} := ⟨rfl, Nat.zero_le _⟩
  have hrest : (do
      let found ← d.turns (d.tokens.length + 1) none
      let c ← Method.state
      return if c.faults.isEmpty then ⟨found, []⟩ else ⟨none, c.faults⟩ :
        Parsing Result).Moves (Keeps d.Settled) :=
    (turns_settles _ none).bind fun found => state_moves.bind fun c => pure_moves _
  exact hrest {} hfront

end Settling

/-! ### Calls in a row -/

lemma call_settles (step : ParseSession.Step) : (d.call step).Moves (Keeps d.Settled) := by
  by_cases h : step = .parse
  · have hparse : d.parse.Moves (Keeps d.Settled) := fun c _ => parse_settles c
    rw [h]
    exact hparse.map Reply.result
  · exact settles_of_steady (call_steady h)

lemma after_settled (steps : List ParseSession.Step) {c : Cursor} (h : d.Settled c) :
    d.Settled (d.after c steps) := by
  induction steps generalizing c with
  | nil => exact h
  | cons step steps ih => exact ih (call_settles step c h)

end Descent

/-- **State of a parser in use**: after any calls in a row on a list of tokens, whether they give
a result or are broken off, all levels are closed and the cursor is at or before the first end of
the input. Every further call but a whole parse leaves the faults as they are and does not move the
cursor back; a whole parse does from there exactly what it does at first. -/
theorem settled_after_calls (tokens : List Token) (limits : Limits)
    (steps : List ParseSession.Step) :
    let d : Descent := ⟨tokens, limits⟩
    let c := d.after {} steps
    c.levels = 0 ∧ c.position ≤ tokens.findIdx (fun t => t.isEof) ∧
      (∀ step, step ≠ .parse →
        (d.call step c).2.faults = c.faults ∧ c.position ≤ (d.call step c).2.position) ∧
      d.call .parse c = d.call .parse {} := by
  intro d c
  have hsettled : d.Settled c := Descent.after_settled steps ⟨rfl, Nat.zero_le _⟩
  refine ⟨hsettled.closed, hsettled.within, ?_, rfl⟩
  intro step hstep
  have honward : d.Onward c (d.call step c).2 := Descent.call_steady hstep c
  exact ⟨honward.faults, honward.forward⟩

end ExprFront
