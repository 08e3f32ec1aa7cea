import ExprFront.Proofs.Source.Cover
import ExprFront.Proofs.Source.ScannerFollows
import ExprFront.Proofs.Source.ScannerState

/-!
Line numbers are exact.

After any calls in a row the line of a scanner is that of its position (`Scanner.after_placed`), and
a complete scan forgets them. The tokens and errors of a scan carry the lines on which their pieces
of the text start (`exists_lined_pieces`). `lines_exact` has both.
-/

namespace ExprFront

/-- Pieces of a text with the tokens and errors that own them, each of which carries the line on
which its piece starts. The token after them carries the line of the end of the text. -/
structure Lined (source : List Char) (tokens : List Token) (errors : List LexicalError)
    (ps : List Piece) : Prop where
  text : ps.flatMap Piece.text = source
  fit : Piece.AllFit ps
  tokens : ∃ eof : Token, tokens = ps.filterMap Piece.token? ++ [eof] ∧ eof.isEof = true ∧
    eof.line = 1 + lineBreaks source
  errors : errors = ps.filterMap Piece.error?
  lines : ∀ before p after, ps = before ++ p :: after →
    p.OnLine (1 + lineBreaks (before.flatMap Piece.text))

/-- The tokens and errors of a text have pieces with their lines. -/
lemma exists_lined (source : List Char) :
    ∃ ps, Lined source (Scan.ofText source).tokens (Scan.ofText source).errors ps := by
  obtain ⟨hsource, hsegments⟩ := Segment.ofText_spec source
  obtain ⟨ps, htext, hfit, hbody, herrors, hlines⟩ := exists_lined_pieces hsegments 1
  have hend : (Scan.ofText source).endLine = 1 + lineBreaks source := by
    rw [Scan.ofText, endLine_ofSegments, hsource]
  have heof : (endOfInput (Scan.ofText source).endLine).line = 1 + lineBreaks source := by
    rw [endOfInput, hend]
    rfl
  have htokens := congrArg (· ++ [endOfInput (Scan.ofText source).endLine]) hbody
  exact ⟨ps, htext.trans hsource, hfit, ⟨_, htokens, rfl, heof⟩, herrors, hlines⟩

namespace Scanner

/-- No call runs out of steps, since the session has an answer to all of them. -/
lemma call_ne_outOfSteps (s : Scanner) (step : ScanSession.Step) (h : ScanState) :
    (s.call step h).1 ≠ .error .outOfSteps := by
  rw [(call_follows step h).1]
  cases ((s.session h).step step).1 <;> simp [reply]

end Scanner

/-- **Line numbers**: after any calls in a row on a scanner, some of which may have been broken off,
the position is in the text or at its end, and the line is one more than the number of line breaks
before the position. No call runs out of steps, and none but a complete scan changes the tokens or
the errors. A complete scan gives and leaves what it would at the beginning: every token and every
error carries the line on which its text starts, and the end of the input carries the line of the
end of the text. -/
theorem lines_exact (s : Scanner) (steps : List ScanSession.Step) :
    let h := s.after {} steps
    h.position ≤ s.source.length ∧ h.line = 1 + lineBreaks (s.source.take h.position) ∧
      (∀ step, (s.call step h).1 ≠ .error .outOfSteps) ∧
      (∀ step ≠ .scan, (s.call step h).2.tokens = h.tokens ∧ (s.call step h).2.errors = h.errors) ∧
      s.call .scan h = s.call .scan {} ∧
      ∃ tokens errors ps h', s.call .scan h = (.ok (.tokens tokens), h') ∧
        h'.tokens = tokens ∧ h'.errors = errors ∧ Lined s.source tokens errors ps := by
  intro h
  have hplaced : s.Placed h := Scanner.after_placed steps (Scanner.placed_front s)
  obtain ⟨start, hscan⟩ := Scanner.scan_follows (s := s) h
  obtain ⟨ps, hlined⟩ := exists_lined s.source
  refine ⟨hplaced.within, hplaced.line, fun step => s.call_ne_outOfSteps step h, ?_, rfl,
    _, _, ps, _, Method.map_of_ok hscan, rfl, rfl, hlined⟩
  intro step hstep
  have hreads : s.Reads h (s.call step h).2 := Scanner.call_reads hstep h
  exact ⟨hreads.tokens, hreads.errors⟩

/-- A string and an open quote carry the lines on which they start, and the end of the input that of
the end of the text. -/
example : (Scan.ofText "\"a\nb\" @\n\"c\n".toList).tokens.map (·.line) = [1, 4] ∧
    (Scan.ofText "\"a\nb\" @\n\"c\n".toList).errors.map (·.line) = [2, 3] := ⟨rfl, rfl⟩

end ExprFront
