import ExprFront.Proofs.Source.ScannerFollows

/-!
A line break cuts the scan of a text in two, unless it stands in a string.

What the scanner reads at a place is the same if a line break and more text come after the rest of
the text, since a line break belongs to no number, no word, no operator and no comment
(`Lexeme.first_newline`, `Segment.first_newline`). So the segments of two texts with a line break
between them are those of the one text, the line break and those of the other one
(`Segment.ofText_newline`). The scan follows (`Scan.ofText_newline`), where the tokens and errors
of the second text are found on later lines (`Scan.later`). `scan_joined` says so for the scanner.
-/

namespace ExprFront

namespace Text

variable {p : Char → Bool} {x : Char}

/-- What is taken of a class ends at a character outside of it. -/
lemma takeWhile_append_stop (hx : p x = false) (us vs : List Char) :
    (us ++ x :: vs).takeWhile p = us.takeWhile p := by
  induction us with
  | nil => simp [hx]
  | cons u us ih => cases hu : p u <;> simp [hu, ih]

/-- What is left after a class goes on behind a character outside of it. -/
lemma dropWhile_append_stop (hx : p x = false) (us vs : List Char) :
    (us ++ x :: vs).dropWhile p = us.dropWhile p ++ x :: vs := by
  induction us with
  | nil => simp [hx]
  | cons u us ih => cases hu : p u <;> simp [hu, ih]

end Text

/-! ### What is read before a line break -/

namespace Lexeme

/-- There is no operator with a line break in it. -/
lemma ofOperator?_newline (c : Char) : TokenType.ofOperator? [c, '\n'] = none := by
  have hall : ∀ p ∈ TokenType.operators, '\n' ∉ p.1 := by decide
  cases h : TokenType.ofOperator? [c, '\n'] with
  | none => rfl
  | some type => exact absurd (by simp) (hall _ (TokenType.mem_operators h))

lemma fraction_newline (ts vs : List Char) : fraction (ts ++ '\n' :: vs) = fraction ts := by
  have hdigit : Text.isAsciiDigit '\n' = false := by decide
  match ts with
  | [] => rfl
  | [c] =>
      by_cases hc : c = '.'
      · subst hc
        rfl
      · simp [fraction, hc]
  | c :: d :: ts =>
      by_cases hc : c = '.'
      · subst hc
        simp only [List.cons_append, fraction, Text.takeWhile_append_stop hdigit]
      · simp [fraction, hc]

lemma firstNumber_newline (c : Char) (rest vs : List Char) :
    firstNumber c (rest ++ '\n' :: vs) =
      ((firstNumber c rest).1, (firstNumber c rest).2 ++ '\n' :: vs) := by
  have hdigit : Text.isAsciiDigit '\n' = false := by decide
  have hle := (fraction_isPrefix (rest.dropWhile Text.isAsciiDigit)).length_le
  simp only [firstNumber, Text.takeWhile_append_stop hdigit, Text.dropWhile_append_stop hdigit,
    fraction_newline, List.drop_append_of_le_length hle]

lemma firstMark_newline (c : Char) (rest vs : List Char) :
    firstMark c (rest ++ '\n' :: vs) =
      ((firstMark c rest).1, (firstMark c rest).2 ++ '\n' :: vs) := by
  rw [firstMark, firstMark]
  cases TokenType.ofOperator? [c] <;> rfl

lemma firstOperator_newline (c : Char) (rest vs : List Char) :
    firstOperator c (rest ++ '\n' :: vs) =
      ((firstOperator c rest).1, (firstOperator c rest).2 ++ '\n' :: vs) := by
  cases rest with
  | nil =>
      simp only [List.nil_append, firstOperator, ofOperator?_newline]
      exact firstMark_newline c [] vs
  | cons d more =>
      rw [List.cons_append, firstOperator, firstOperator]
      cases TokenType.ofOperator? [c, d] with
      | some type => rfl
      | none => exact firstMark_newline c (d :: more) vs

/-- A string that is closed stays the same, with line breaks or without. -/
lemma firstString_newline {rest : List Char} (h : ∀ body, (firstString rest).1 ≠ .unclosed body)
    (vs : List Char) :
    firstString (rest ++ '\n' :: vs) =
      ((firstString rest).1, (firstString rest).2 ++ '\n' :: vs) := by
  rcases firstString_cases rest with ⟨hopen, -⟩ | ⟨body, more, hclosed, rfl, hbody⟩
  · exact absurd (congrArg Prod.fst hopen) (h rest)
  · have hne := Text.ne_of_not_mem hbody
    rw [hclosed, List.append_assoc, List.cons_append, firstString,
      List.takeWhile_append_of_pos hne, List.dropWhile_append_of_pos hne,
      List.takeWhile_cons_of_neg (by simp), List.dropWhile_cons_of_neg (by simp), List.append_nil]

/-- What is read at a place is the same before a line break and more text. -/
lemma first_newline {c : Char} {rest : List Char} (h : ∀ body, (first c rest).1 ≠ .unclosed body)
    (vs : List Char) :
    first c (rest ++ '\n' :: vs) = ((first c rest).1, (first c rest).2 ++ '\n' :: vs) := by
  have hword : isWordPart '\n' = false := by decide +kernel
  rw [first] at h ⊢
  rw [first]
  split_ifs at h ⊢ with hd hw hq
  · exact firstNumber_newline c rest vs
  · rw [Text.takeWhile_append_stop hword, Text.dropWhile_append_stop hword]
  · exact firstString_newline h vs
  · exact firstOperator_newline c rest vs

end Lexeme

namespace Segment

/-- A segment that is not an open string. -/
def Closed (s : Segment) : Prop := ∀ body, s ≠ .lexeme (.unclosed body)

lemma comment?_newline (c : Char) (rest vs : List Char) :
    comment? c (rest ++ '\n' :: vs) =
      (comment? c rest).map fun cut => (cut.1, cut.2 ++ '\n' :: vs) := by
  cases rest with
  | nil => simp [comment?]
  | cons d rest =>
      have hstop : decide ('\n' ≠ '\n') = false := by decide
      rw [List.cons_append, comment?, comment?, Text.takeWhile_append_stop hstop,
        Text.dropWhile_append_stop hstop]
      split <;> rfl

lemma first_newline {c : Char} {rest : List Char} (h : (first c rest).1.Closed)
    (vs : List Char) :
    first c (rest ++ '\n' :: vs) = ((first c rest).1, (first c rest).2 ++ '\n' :: vs) := by
  rw [first] at h ⊢
  rw [first, comment?_newline]
  split_ifs at h ⊢ with hb
  · rfl
  · cases hcut : comment? c rest with
    | some cut => rfl
    | none =>
        rw [hcut] at h
        have hlexeme : ∀ body, (Lexeme.first c rest).1 ≠ .unclosed body := fun body heq =>
          h body (congrArg Segment.lexeme heq)
        simp only [Option.map_none, Lexeme.first_newline hlexeme]

/-- The segments of two texts with a line break between them, if no string is open there. -/
lemma ofText_newline {source : List Char} (h : ∀ s ∈ ofText source, s.Closed) (vs : List Char) :
    ofText (source ++ '\n' :: vs) = ofText source ++ .blank '\n' :: ofText vs := by
  induction hk : source.length using Nat.strong_induction_on generalizing source with
  | _ k ih =>
      cases source with
      | nil =>
          rw [List.nil_append, ofText_cons, first, if_pos Text.isBlank_newline]
          rfl
      | cons c rest =>
          have hle := length_first_le c rest
          rw [List.length_cons] at hk
          rw [ofText_cons, List.forall_mem_cons] at h
          rw [List.cons_append, ofText_cons, ofText_cons, first_newline h.1,
            ih _ (by omega) h.2 rfl, List.cons_append]

end Segment

/-! ### Scans one after the other -/

/-- A token some lines further down. -/
def TokenOf.later {P : Type} (k : Nat) (t : TokenOf P) : TokenOf P := { t with line := t.line + k }

/-- An error some lines further down. -/
def LexicalError.later (k : Nat) (e : LexicalError) : LexicalError := { e with line := e.line + k }

/-- The report of an error further down differs in its line only. -/
lemma LexicalError.diagnostic_later (k : Nat) (e : LexicalError) (filename : Option String) :
    (e.later k).diagnostic filename =
      { e.diagnostic filename with line := (e.diagnostic filename).line + k } := by
  obtain ⟨fault, line⟩ := e
  cases fault <;> simp [diagnostic, later, LexicalFault.strayDiagnostic,
    LexicalFault.unclosedDiagnostic]

/-- A lexeme some lines further down. -/
lemma Lexeme.toToken_add (l : Lexeme) (line k : Nat) :
    l.toToken (line + k) =
      match l.toToken line with
      | .ok t => .ok (t.later k)
      | .error e => .error (e.later k) := by
  cases l <;> simp [toToken, TokenOf.later, LexicalError.later]

namespace Scan

/-- A scan of a text that stands some lines further down. -/
def later (k : Nat) (s : Scan) : Scan :=
  ⟨s.body.map (TokenOf.later k), s.endLine + k, s.errors.map (LexicalError.later k)⟩

/-- The scan of a text that goes on with another one. -/
def followedBy (s t : Scan) : Scan := ⟨s.body ++ t.body, t.endLine, s.errors ++ t.errors⟩

lemma tokens_followedBy (s t : Scan) : (s.followedBy t).tokens = s.body ++ t.tokens :=
  List.append_assoc _ _ _

lemma tokens_later (k : Nat) (s : Scan) : (s.later k).tokens = s.tokens.map (TokenOf.later k) := by
  simp [tokens, later, endOfInput, TokenOf.later]

lemma ofSegments_add (line k : Nat) (ss : List Segment) :
    ofSegments (line + k) ss = (ofSegments line ss).later k := by
  induction ss generalizing line with
  | nil => rfl
  | cons s ss ih =>
      have hrest : ofSegments (line + k + lineBreaks s.text) ss =
          (ofSegments (line + lineBreaks s.text) ss).later k := by
        rw [Nat.add_right_comm, ih]
      cases s with
      | blank c => exact hrest
      | comment body => exact hrest
      | lexeme l =>
          rw [ofSegments, ofSegments, hrest]
          cases hl : l.toToken line <;> simp only [hl, Lexeme.toToken_add] <;> rfl

lemma ofSegments_append (line : Nat) (ss ts : List Segment) :
    ofSegments line (ss ++ ts) =
      (ofSegments line ss).followedBy (ofSegments (ofSegments line ss).endLine ts) := by
  induction ss generalizing line with
  | nil => rfl
  | cons s ss ih =>
      cases s with
      | blank c => exact ih _
      | comment body => exact ih _
      | lexeme l =>
          rw [List.cons_append, ofSegments, ofSegments, ih]
          cases hl : l.toToken line <;> rfl

/-- An open string is reported. -/
lemma closed_of_errors {line : Nat} {ss : List Segment}
    (h : ∀ e ∈ (ofSegments line ss).errors, e.fault ≠ .unclosedString) :
    ∀ s ∈ ss, s.Closed := by
  induction ss generalizing line with
  | nil => simp
  | cons s ss ih =>
      have hsub : ∀ e ∈ (ofSegments (line + lineBreaks s.text) ss).errors,
          e ∈ (ofSegments line (s :: ss)).errors := by
        intro e he
        cases s with
        | blank c => exact he
        | comment body => exact he
        | lexeme l =>
            rw [ofSegments]
            cases hl : l.toToken line with
            | ok t => exact he
            | error e' => exact List.mem_cons_of_mem e' he
      refine List.forall_mem_cons.mpr ⟨?_, ih fun e he => h e (hsub e he)⟩
      rintro body rfl
      exact h ⟨.unclosedString, line⟩ List.mem_cons_self rfl

/-- The scan of two texts with a line break between them, if no string is open there. -/
lemma ofText_newline {a : List Char}
    (ha : ∀ e ∈ (ofText a).errors, e.fault ≠ .unclosedString) (b : List Char) :
    ofText (a ++ '\n' :: b) = (ofText a).followedBy ((ofText b).later (1 + lineBreaks a)) := by
  have hend : (ofText a).endLine + 1 = 1 + (1 + lineBreaks a) := by
    rw [ofText, endLine_ofSegments, (Segment.ofText_spec a).1, Nat.add_comm]
  rw [ofText, Segment.ofText_newline (closed_of_errors ha), ofSegments_append]
  exact congrArg (ofText a).followedBy
    ((congrArg (ofSegments · (Segment.ofText b)) hend).trans (ofSegments_add 1 _ _))

end Scan

lemma Scanner.errors_scan (s : Scanner) (h : ScanState) :
    (s.scan h).2.errors = (Scan.ofText s.source).errors := by
  obtain ⟨start, hscan⟩ := Scanner.scan_follows (s := s) h
  rw [hscan]

/-- **Scanning line by line**: if no open string is reported in a text, then with a line break and
another text behind it the tokens are those of the first text without the end of its input, followed
by those of the second one, and the same holds of the errors. The tokens and the errors of the
second text are found as many lines further down as there are line breaks before it; but for their
lines the tokens and the reports of the errors are the same. The scanners may have been called
before. -/
theorem scan_joined {a : List Char} {h : ScanState}
    (hclosed : ∀ e ∈ (Scanner.scan ⟨a⟩ h).2.errors, e.fault ≠ .unclosedString) (b : List Char)
    (h' h'' : ScanState) :
    let k := 1 + lineBreaks a
    let first := Scanner.scan ⟨a⟩ h
    let second := Scanner.scan ⟨b⟩ h'
    let whole := Scanner.scan ⟨a ++ '\n' :: b⟩ h''
    (∃ ts eof us, first.1 = .ok (ts ++ [eof]) ∧ eof.isEof = true ∧ second.1 = .ok us ∧
      whole.1 = .ok (ts ++ us.map (TokenOf.later k))) ∧
      whole.2.errors = first.2.errors ++ second.2.errors.map (LexicalError.later k) ∧
      ∀ filename, whole.2.errors.map (·.diagnostic filename) =
        first.2.errors.map (·.diagnostic filename) ++
          (second.2.errors.map (·.diagnostic filename)).map fun d =>
            { d with line := d.line + k } := by
  intro k first second whole
  obtain ⟨start, hfirst⟩ := Scanner.scan_follows (s := ⟨a⟩) h
  obtain ⟨start', hsecond⟩ := Scanner.scan_follows (s := ⟨b⟩) h'
  obtain ⟨start'', hwhole⟩ := Scanner.scan_follows (s := ⟨a ++ '\n' :: b⟩) h''
  rw [Scanner.errors_scan] at hclosed
  have hscan := Scan.ofText_newline hclosed b
  have herrors : whole.2.errors = first.2.errors ++ second.2.errors.map (LexicalError.later k) := by
    simp only [whole, first, second, Scanner.errors_scan, hscan]
    rfl
  refine ⟨⟨_, endOfInput _, _, by simp only [first, hfirst]; rfl, rfl, by
    simp only [second, hsecond]; rfl, ?_⟩, herrors, fun filename => ?_⟩
  · simp only [whole, hwhole, hscan, Scan.tokens_followedBy, Scan.tokens_later]
    rfl
  · rw [herrors, List.map_append, List.map_map, List.map_map]
    simp only [Function.comp_def, LexicalError.diagnostic_later]

/-- An instance of the theorem: a comment and a stray character on one line, and a string over two
lines with a stray character behind it. -/
theorem scan_joined_comment :
    let a := "1 @ // x".toList
    let b := "\"x\ny\" #".toList
    (∃ ts eof us, (Scanner.scan ⟨a⟩ {}).1 = .ok (ts ++ [eof]) ∧ eof.isEof = true ∧
      (Scanner.scan ⟨b⟩ {}).1 = .ok us ∧
      (Scanner.scan ⟨a ++ '\n' :: b⟩ {}).1 = .ok (ts ++ us.map (TokenOf.later 1))) ∧
      (Scanner.scan ⟨a ++ '\n' :: b⟩ {}).2.errors = [⟨.stray '@', 1⟩, ⟨.stray '#', 3⟩] := by
  intro a b
  have hlines : 1 + lineBreaks a = 1 := rfl
  have hfirst : (Scanner.scan ⟨a⟩ {}).2.errors = [⟨.stray '@', 1⟩] := Scanner.errors_scan _ _
  have hsecond : (Scanner.scan ⟨b⟩ {}).2.errors = [⟨.stray '#', 2⟩] := Scanner.errors_scan _ _
  have hclosed : ∀ e ∈ (Scanner.scan ⟨a⟩ {}).2.errors, e.fault ≠ .unclosedString := by
    rw [hfirst]
    decide
  obtain ⟨htokens, herrors, -⟩ := scan_joined hclosed b {} {}
  rw [hfirst, hsecond, hlines] at herrors
  rw [hlines] at htokens
  exact ⟨htokens, herrors⟩

end ExprFront
