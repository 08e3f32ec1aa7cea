import ExprFront.Proofs.Source.ScannerFollows

/-!
A scan accounts for every character of its text.

A text is made of pieces (`Piece`): blanks, comments, tokens, and characters and strings that are
reported as errors. `scan_covers`: each token but the end of the input has one piece, each error has
one, and in the order of the text there is nothing else but blanks and comments. The pieces come
from the segments of the text one by one (`exists_piece`), and what owns one carries the line on
which it starts (`exists_lined_pieces`).
-/

namespace ExprFront

/-- A piece of source text with what the scan makes of it. -/
inductive Piece where
  | blank (c : Char)
  /-- A comment, with the text after its double slash. -/
  | comment (body : List Char)
  | token (t : Token)
  /-- A character that is reported. -/
  | stray (c : Char) (e : LexicalError)
  /-- A double quote and the text after it, which are reported. -/
  | unclosed (body : List Char) (e : LexicalError)

namespace Piece

/-- The text of a piece. -/
def text : Piece → List Char
  | .blank c => [c]
  | .comment body => '/' :: '/' :: body
  | .token t => t.lexeme.toList
  | .stray c _ => [c]
  | .unclosed body _ => '"' :: body

/-- The token that owns a piece. -/
def token? : Piece → Option Token
  | .token t => some t
  | _ => none

/-- The error that owns a piece. -/
def error? : Piece → Option LexicalError
  | .stray _ e => some e
  | .unclosed _ e => some e
  | _ => none

/-- What a piece may be before the pieces after it. A comment ends with its line or with the text.
A string that is not closed goes to the end, so that neither a token nor an error comes after it. -/
def Fits : Piece → List Piece → Prop
  | .blank c, _ => Text.isBlank c = true
  | .comment body, after =>
    '\n' ∉ body ∧ (after = [] ∨ ∃ more, after.flatMap text = '\n' :: more)
  | .token t, _ => t.isEof = false
  | .stray c e, _ => e.fault = .stray c ∧ ∀ filename, (e.diagnostic filename).code = some "L001"
  | .unclosed body e, after => '"' ∉ body ∧ after = [] ∧ e.fault = .unclosedString ∧
    ∀ filename, (e.diagnostic filename).code = some "L002"

/-- What owns a piece carries a given line. -/
def OnLine (p : Piece) (line : ℕ) : Prop :=
  (∀ t ∈ p.token?, t.line = line) ∧ ∀ e ∈ p.error?, e.line = line

/-- No piece is empty, and each fits those after it. -/
def AllFit : List Piece → Prop
  | [] => True
  | p :: ps => p.text ≠ [] ∧ p.Fits ps ∧ AllFit ps

/-- A piece that no token and no error owns may start on any line. -/
lemma onLine_of_unowned {p : Piece} (ht : p.token? = none) (he : p.error? = none) (line : ℕ) :
    p.OnLine line := by
  simp [OnLine, ht, he]

/-- Pieces that are not empty and have a text together with nothing in it are none. -/
lemma eq_nil_of_flatMap_eq_nil {ps : List Piece} (h : AllFit ps) (ht : ps.flatMap text = []) :
    ps = [] := by
  cases ps with
  | nil => rfl
  | cons p ps =>
      rw [List.flatMap_cons] at ht
      exact absurd (List.append_eq_nil_iff.mp ht).1 h.1

/-- No piece has the token that marks the end of the input. -/
lemma isEof_of_mem_tokens {ps : List Piece} (h : AllFit ps) :
    ∀ t ∈ ps.filterMap token?, t.isEof = false := by
  induction ps with
  | nil => simp
  | cons p ps ih =>
      obtain ⟨-, hp, hps⟩ := h
      cases p with
      | token t =>
          intro u hu
          rcases List.mem_cons.mp hu with rfl | hu
          · exact hp
          · exact ih hps u hu
      | blank c => exact ih hps
      | comment body => exact ih hps
      | stray c e => exact ih hps
      | unclosed body e => exact ih hps

/-- There are no more owners than characters. -/
lemma length_owners_le {ps : List Piece} (h : AllFit ps) :
    (ps.filterMap token?).length + (ps.filterMap error?).length ≤ (ps.flatMap text).length := by
  induction ps with
  | nil => exact le_rfl
  | cons p ps ih =>
      obtain ⟨hne, -, hps⟩ := h
      have hpos : 0 < p.text.length := List.length_pos_iff.mpr hne
      have hle := ih hps
      rw [List.flatMap_cons, List.length_append]
      cases p <;> simp only [List.filterMap_cons, token?, error?, List.length_cons] <;> omega

end Piece

/-! ### From segments to pieces -/

/-- No word marks the end of the input. -/
lemma ofWord_ne_eof (s : String) : TokenType.ofWord s ≠ .eof := by
  have hall : ∀ type ∈ TokenType.identifier :: TokenType.keywords.map Prod.snd, type ≠ .eof := by
    decide
  exact hall _ (TokenType.ofWord_mem s)

namespace Lexeme

variable {line : Nat} {l : Lexeme} {rest : List Char}

/-- A token has the text of its lexeme, and does not mark the end of the input. -/
lemma toToken_eq_ok {t : Token} (h : l.toToken line = .ok t) (hf : l.Fits rest) :
    t.lexeme.toList = l.text ∧ t.isEof = false := by
  cases l with
  | number text =>
      obtain rfl := Except.ok.inj h
      exact ⟨String.toList_ofList, rfl⟩
  | word text =>
      obtain rfl := Except.ok.inj h
      exact ⟨String.toList_ofList, by simpa [TokenOf.isEof] using ofWord_ne_eof _⟩
  | string body =>
      obtain rfl := Except.ok.inj h
      exact ⟨String.toList_ofList, rfl⟩
  | operator text type =>
      obtain rfl := Except.ok.inj h
      exact ⟨String.toList_ofList, by simpa [TokenOf.isEof] using hf.2⟩
  | stray c => cases h
  | unclosed body => cases h

/-- A token carries the line of its lexeme. -/
lemma line_of_toToken {t : Token} (h : l.toToken line = .ok t) : t.line = line := by
  cases l with
  | stray c => cases h
  | unclosed body => cases h
  | number text => exact (congrArg TokenOf.line (Except.ok.inj h)).symm
  | word text => exact (congrArg TokenOf.line (Except.ok.inj h)).symm
  | string body => exact (congrArg TokenOf.line (Except.ok.inj h)).symm
  | operator text type => exact (congrArg TokenOf.line (Except.ok.inj h)).symm

/-- The lexemes that are errors. -/
lemma toToken_eq_error {e : LexicalError} (h : l.toToken line = .error e) :
    (∃ c, l = .stray c ∧ e = ⟨.stray c, line⟩) ∨
      ∃ body, l = .unclosed body ∧ e = ⟨.unclosedString, line⟩ := by
  cases l with
  | number text => cases h
  | word text => cases h
  | string body => cases h
  | operator text type => cases h
  | stray c => exact Or.inl ⟨c, rfl, (Except.error.inj h).symm⟩
  | unclosed body => exact Or.inr ⟨body, rfl, (Except.error.inj h).symm⟩

end Lexeme

/-- The piece of a segment has its text and its line, fits where the segment does, and adds its
token or its error to a scan. -/
lemma exists_piece (line : Nat) {s : Segment} {rest : List Char} (h : s.Fits rest) :
    ∃ p : Piece, p.text = s.text ∧ p.OnLine line ∧
      (∀ ps, Piece.AllFit ps → ps.flatMap Piece.text = rest → p.Fits ps) ∧
      ∀ ss, (Scan.ofSegments line (s :: ss)).body =
          p.token?.toList ++ (Scan.ofSegments (line + lineBreaks s.text) ss).body ∧
        (Scan.ofSegments line (s :: ss)).errors =
          p.error?.toList ++ (Scan.ofSegments (line + lineBreaks s.text) ss).errors := by
  cases s with
  | blank c =>
      exact ⟨.blank c, rfl, Piece.onLine_of_unowned rfl rfl line, fun _ _ _ => h,
        fun _ => ⟨rfl, rfl⟩⟩
  | comment body =>
      refine ⟨.comment body, rfl, Piece.onLine_of_unowned rfl rfl line,
        fun ps hps ht => ⟨h.1, ?_⟩, fun _ => ⟨rfl, rfl⟩⟩
      rcases h.2 with rfl | ⟨more, rfl⟩
      · exact Or.inl (Piece.eq_nil_of_flatMap_eq_nil hps ht)
      · exact Or.inr ⟨more, ht⟩
  | lexeme l =>
      cases hl : l.toToken line with
      | ok t =>
          obtain ⟨htext, heof⟩ := Lexeme.toToken_eq_ok hl h
          have hline : (Piece.token t).OnLine line :=
            ⟨by rintro _ ⟨⟩; exact Lexeme.line_of_toToken hl, by rintro _ ⟨⟩⟩
          exact ⟨.token t, htext, hline, fun _ _ _ => heof, fun ss => by
            simp [Scan.ofSegments, hl, Piece.token?, Piece.error?]⟩
      | error e =>
          have hnone : ∀ t ∈ (none : Option Token), t.line = line := by rintro _ ⟨⟩
          have hown : ∀ fault, ∀ e ∈ some (LexicalError.mk fault line), e.line = line := by
            rintro fault _ ⟨⟩
            rfl
          rcases Lexeme.toToken_eq_error hl with ⟨c, rfl, rfl⟩ | ⟨body, rfl, rfl⟩
          · exact ⟨.stray c _, rfl, ⟨hnone, hown _⟩, fun _ _ _ => ⟨rfl, fun _ => rfl⟩,
              fun _ => ⟨rfl, rfl⟩⟩
          · obtain ⟨hbody, rfl⟩ := h
            exact ⟨.unclosed body _, rfl, ⟨hnone, hown _⟩, fun ps hps ht =>
              ⟨hbody, Piece.eq_nil_of_flatMap_eq_nil hps ht, rfl, fun _ => rfl⟩,
              fun _ => ⟨rfl, rfl⟩⟩

/-- The pieces of segments that fit. What owns a piece carries the line on which the text of the
piece starts. -/
lemma exists_lined_pieces {ss : List Segment} (h : Segment.AllFit ss) (line : Nat) :
    ∃ ps : List Piece, ps.flatMap Piece.text = ss.flatMap Segment.text ∧ Piece.AllFit ps ∧
      (Scan.ofSegments line ss).body = ps.filterMap Piece.token? ∧
      (Scan.ofSegments line ss).errors = ps.filterMap Piece.error? ∧
      ∀ before p after, ps = before ++ p :: after →
        p.OnLine (line + lineBreaks (before.flatMap Piece.text)) := by
  induction ss generalizing line with
  | nil => exact ⟨[], rfl, trivial, rfl, rfl, by simp⟩
  | cons s ss ih =>
      obtain ⟨hs, hss⟩ := h
      obtain ⟨ps, htext, hfit, hbody, herrors, hlines⟩ := ih hss (line + lineBreaks s.text)
      obtain ⟨p, hp, hline, hpf, hscan⟩ := exists_piece line hs
      obtain ⟨hb, he⟩ := hscan ss
      refine ⟨p :: ps, ?_, ⟨?_, hpf ps hfit htext, hfit⟩, ?_, ?_, ?_⟩
      · rw [List.flatMap_cons, List.flatMap_cons, hp, htext]
      · rw [hp]
        exact hs.text_ne_nil
      · rw [hb, hbody, List.filterMap_cons]
        cases p.token? <;> rfl
      · rw [he, herrors, List.filterMap_cons]
        cases p.error? <;> rfl
      · intro before q after heq
        cases before with
        | nil =>
            obtain ⟨rfl, -⟩ := List.cons.inj heq
            exact hline
        | cons r before =>
            obtain ⟨rfl, hps⟩ := List.cons.inj heq
            have hq := hlines before q after hps
            rwa [Nat.add_assoc, ← hp, lineBreaks, lineBreaks, ← List.count_append,
              ← List.flatMap_cons] at hq

/-- The pieces of segments that fit. -/
lemma exists_pieces {ss : List Segment} (h : Segment.AllFit ss) (line : Nat) :
    ∃ ps : List Piece, ps.flatMap Piece.text = ss.flatMap Segment.text ∧ Piece.AllFit ps ∧
      (Scan.ofSegments line ss).body = ps.filterMap Piece.token? ∧
      (Scan.ofSegments line ss).errors = ps.filterMap Piece.error? := by
  obtain ⟨ps, htext, hfit, hbody, herrors, -⟩ := exists_lined_pieces h line
  exact ⟨ps, htext, hfit, hbody, herrors⟩

/-- **Coverage**: a source text is made of pieces in a row, none of them empty: blanks, comments,
one piece for each token but the end of the input, which comes last, and one for each error. The
order of the tokens and errors that a scanner finds is that of their pieces. -/
theorem scan_covers (source : List Char) :
    Scanner.Finds ⟨source⟩ (Scan.ofText source).tokens (Scan.ofText source).errors ∧
    ∃ ps eof, ps.flatMap Piece.text = source ∧ Piece.AllFit ps ∧
      (Scan.ofText source).tokens = ps.filterMap Piece.token? ++ [eof] ∧
      eof.isEof = true ∧ (∀ t ∈ ps.filterMap Piece.token?, t.isEof = false) ∧
      (Scan.ofText source).errors = ps.filterMap Piece.error? ∧
      (Scan.ofText source).tokens.length - 1 + (Scan.ofText source).errors.length ≤
        source.length := by
  obtain ⟨hsource, hsegments⟩ := Segment.ofText_spec source
  obtain ⟨ps, htext, hfit, hbody, herrors⟩ := exists_pieces hsegments 1
  rw [hsource] at htext
  refine ⟨Scanner.scan_finds ⟨source⟩, ps, endOfInput (Scan.ofText source).endLine, htext, hfit, ?_,
    rfl, Piece.isEof_of_mem_tokens hfit, herrors, ?_⟩
  · rw [Scan.tokens, Scan.ofText, hbody]
  · have hle := Piece.length_owners_le hfit
    rw [htext] at hle
    rw [Scan.tokens, List.length_append, List.length_singleton, Nat.add_sub_cancel, Scan.ofText,
      hbody, herrors]
    exact hle

end ExprFront
