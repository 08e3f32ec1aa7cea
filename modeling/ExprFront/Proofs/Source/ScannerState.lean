import Mathlib.Order.Nat
import ExprFront.Proofs.Method
import ExprFront.Source.Scanner

/-!
What calls do to the state of a scanner.

A state is placed (`Scanner.Placed`) if its position is in the text or at its end, and its line is
one more than the number of line breaks before the position. Only `advance` changes either, and it
keeps this (`advance_reads`); so every method does, whether it is broken off or not. Every method
but a complete scan leaves the tokens and errors found so far as they are (`Scanner.Reads`).
-/

namespace ExprFront.Scanner

variable {s : Scanner} {α : Type}

open Method

/-! ### Placed states -/

/-- The position is in the text or at its end, and the line is counted from the front. -/
structure Placed (s : Scanner) (h : ScanState) : Prop where
  within : h.position ≤ s.source.length
  line : h.line = 1 + lineBreaks (s.source.take h.position)

lemma placed_front (s : Scanner) : s.Placed {} := ⟨Nat.zero_le _, by rw [List.take_zero]; rfl⟩

/-- From one state to another: with the same tokens and errors, and placed as before. -/
structure Reads (s : Scanner) (h h' : ScanState) : Prop where
  tokens : h'.tokens = h.tokens
  errors : h'.errors = h.errors
  placed : s.Placed h → s.Placed h'

instance (s : Scanner) : IsPreorder ScanState s.Reads where
  refl _ := ⟨rfl, rfl, id⟩
  trans _ _ _ h h' := ⟨h'.tokens.trans h.tokens, h'.errors.trans h.errors, h'.placed ∘ h.placed⟩

/-! ### Characters -/

lemma atEnd_reads : s.atEnd.Moves s.Reads := fun h => refl_of s.Reads h

lemma peek_reads (offset : Int) : (s.peek offset).Moves s.Reads := need_moves _ _

/-- A line break before the position counts, another character does not. -/
lemma placed_succ {h : ScanState} {c : Char} (hc : s.source[h.position]? = some c)
    (hp : s.Placed h) :
    s.Placed { h with
      line := if c = '\n' then h.line + 1 else h.line
      position := h.position + 1 } := by
  obtain ⟨hlt, hget⟩ := List.getElem?_eq_some_iff.mp hc
  refine ⟨hlt, ?_⟩
  change (if c = '\n' then h.line + 1 else h.line) = 1 + lineBreaks (s.source.take (h.position + 1))
  have hcount : lineBreaks (s.source.take (h.position + 1)) =
      lineBreaks (s.source.take h.position) + if c = '\n' then 1 else 0 := by
    rw [List.take_add_one, hc, lineBreaks, List.count_append, Option.toList_some,
      List.count_singleton]
    simp [lineBreaks]
  rw [hcount, hp.line]
  split <;> omega

lemma advance_reads : s.advance.Moves s.Reads := by
  intro h
  cases hc : s.source[h.position]? with
  | none =>
      have hnone : s.current h = (.error .outOfText, h) := need_of_none hc
      rw [advance, bind_of_error hnone]
      exact refl_of s.Reads h
  | some c =>
      have hsome : s.current h = (.ok c, h) := need_of_some hc
      rw [advance, bind_of_ok hsome]
      exact ⟨rfl, rfl, placed_succ hc⟩

lemma sweep_reads {question : Scanning Bool} (hq : question.Moves s.Reads) :
    ∀ steps : Nat, (s.sweep question steps).Moves s.Reads := by
  intro steps
  induction steps with
  | zero => exact stop_moves ScanBreak.outOfSteps
  | succ steps ih =>
      exact hq.bind fun b => (advance_reads.bind fun _ => ih).ite (pure_moves ()) _

lemma sweepAll_reads {question : Scanning Bool} (hq : question.Moves s.Reads) :
    (s.sweepAll question).Moves s.Reads := sweep_reads hq _

lemma nextIs_reads (p : Char → Bool) : (s.nextIs p).Moves s.Reads := (peek_reads 0).map p

lemma insideString_reads : s.insideString.Moves s.Reads :=
  (peek_reads 0).bind fun _ => (atEnd_reads.bind fun _ => pure_moves _).ite (pure_moves _) _

lemma insideLine_reads : s.insideLine.Moves s.Reads :=
  atEnd_reads.bind fun _ => (pure_moves _).ite ((need_moves _ _).bind fun _ => pure_moves _) _

/-! ### Lexemes -/

lemma lexeme_reads : s.lexeme.Moves s.Reads := fun h => refl_of s.Reads h

lemma decimals_reads : s.decimals.Moves s.Reads := by
  refine (peek_reads 0).bind fun c => Moves.ite ?_ (pure_moves ()) _
  refine (peek_reads 1).bind fun d => Moves.ite ?_ (pure_moves ()) _
  exact advance_reads.bind fun _ => sweepAll_reads (nextIs_reads _)

lemma number_reads (line : Nat) : (s.number line).Moves s.Reads := by
  refine (sweepAll_reads (nextIs_reads _)).bind fun _ => decimals_reads.bind fun _ => ?_
  exact lexeme_reads.bind fun _ => pure_moves _

lemma word_reads (line : Nat) : (s.word line).Moves s.Reads :=
  (sweepAll_reads (nextIs_reads _)).bind fun _ => lexeme_reads.bind fun _ => pure_moves _

/-- A string that is not closed is broken off at the end of the text, lines further down. -/
lemma string_reads (line : Nat) : (s.string line).Moves s.Reads := by
  refine (sweepAll_reads insideString_reads).bind fun _ => atEnd_reads.bind fun b => ?_
  refine (stop_moves _).ite (advance_reads.bind fun _ => ?_) _
  exact lexeme_reads.bind fun _ => pure_moves _

lemma operator_reads (c : Char) (line : Nat) : (s.operator c line).Moves s.Reads := by
  refine (peek_reads 0).bind fun d => ?_
  cases TokenType.ofOperator? [c, d] with
  | some type => exact advance_reads.bind fun _ => pure_moves _
  | none =>
      cases TokenType.ofOperator? [c] with
      | some type => exact pure_moves _
      | none => exact stop_moves _

lemma next_reads : s.next.Moves s.Reads := by
  refine state_moves.bind fun h => advance_reads.bind fun c => ?_
  refine (number_reads h.line).ite ((word_reads h.line).ite ?_ _) _
  exact (string_reads h.line).ite (operator_reads c h.line) _

lemma mark_reads : mark.Moves s.Reads := fun _ => ⟨rfl, rfl, fun h => ⟨h.within, h.line⟩⟩

lemma skip_reads : ∀ steps : Nat, (s.skip steps).Moves s.Reads := by
  intro steps
  induction steps with
  | zero => exact stop_moves ScanBreak.outOfSteps
  | succ steps ih =>
      refine atEnd_reads.bind fun b => (pure_moves ()).ite ((need_moves _ _).bind fun c => ?_) _
      refine (advance_reads.bind fun _ => ih).ite (Moves.ite ?_ (pure_moves ()) _) _
      refine (peek_reads 1).bind fun d => Moves.ite ?_ (pure_moves ()) _
      exact (sweepAll_reads insideLine_reads).bind fun _ => ih

/-! ### Complete scans -/

lemma placed_of_reads {m : Scanning α} (h : m.Moves s.Reads) : m.Moves (Keeps s.Placed) :=
  h.mono fun _ _ hr => hr.placed

lemma more_placed : s.more.Moves (Keeps s.Placed) := by
  refine (placed_of_reads (skip_reads _)).bind fun _ => (placed_of_reads atEnd_reads).bind ?_
  refine fun b => (pure_moves false).ite ((placed_of_reads mark_reads).bind fun _ => ?_) _
  refine (placed_of_reads next_reads).bind fun t => ?_
  have hadd : (Method.change fun h => { h with tokens := h.tokens ++ [t] } :
      Scanning Unit).Moves (Keeps s.Placed) := fun h hp => ⟨hp.within, hp.line⟩
  exact hadd.bind fun _ => pure_moves true

/-- A lexical error is caught where it leaves the position. -/
lemma turn_placed : s.turn.Moves (Keeps s.Placed) := by
  intro h hp
  have hmore := more_placed h hp
  rw [turn]
  split
  · next e h' heq =>
      rw [heq] at hmore
      exact ⟨hmore.within, hmore.line⟩
  · exact hmore

lemma turns_placed : ∀ steps : Nat, (s.turns steps).Moves (Keeps s.Placed) := by
  intro steps
  induction steps with
  | zero => exact stop_moves ScanBreak.outOfSteps
  | succ steps ih =>
      refine (placed_of_reads atEnd_reads).bind fun b => (pure_moves ()).ite ?_ _
      exact turn_placed.bind fun b => ih.ite (pure_moves ()) _

/-- A scan starts from the front, whatever was done before. -/
lemma scan_placed (h : ScanState) : s.Placed (s.scan h).2 := by
  have hclose : (Method.change fun h => { h with tokens := h.tokens ++ [endOfInput h.line] } :
      Scanning Unit).Moves (Keeps s.Placed) := fun h hp => ⟨hp.within, hp.line⟩
  have hrest : (do
      s.turns (s.source.length + 1)
      Method.change fun h => { h with tokens := h.tokens ++ [endOfInput h.line] }
      let h ← Method.state
      return h.tokens : Scanning (List Token)).Moves (Keeps s.Placed) :=
    (turns_placed _).bind fun _ => hclose.bind fun _ => state_moves.bind fun h => pure_moves _
  exact hrest {} (placed_front s)

/-! ### Calls in a row -/

/-- Every call but a complete scan reads. -/
lemma call_reads {step : ScanSession.Step} (h : step ≠ .scan) : (s.call step).Moves s.Reads := by
  cases step with
  | scan => exact absurd rfl h
  | next => exact mark_reads.bind fun _ => next_reads.map ScanSession.Answer.token
  | skip => exact (skip_reads _).map fun _ => ScanSession.Answer.done
  | advance => exact advance_reads.map ScanSession.Answer.character
  | look offset => exact (peek_reads offset).map ScanSession.Answer.character
  | atEnd => exact atEnd_reads.map ScanSession.Answer.truth
  | hasErrors => exact state_moves.map _

lemma call_placed (step : ScanSession.Step) : (s.call step).Moves (Keeps s.Placed) := by
  by_cases h : step = .scan
  · have hscan : s.scan.Moves (Keeps s.Placed) := fun h _ => scan_placed h
    rw [h]
    exact hscan.map ScanSession.Answer.tokens
  · exact placed_of_reads (call_reads h)

lemma after_placed (steps : List ScanSession.Step) {h : ScanState} (hp : s.Placed h) :
    s.Placed (s.after h steps) := by
  induction steps generalizing h with
  | nil => exact hp
  | cons step steps ih => exact ih (call_placed step h hp)

end ExprFront.Scanner
