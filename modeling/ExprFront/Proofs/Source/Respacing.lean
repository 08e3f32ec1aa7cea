import ExprFront.Proofs.Source.ScannerFollows

/-!
Spacing does not matter: the texts of the tokens of a scan, put apart in any other way, are scanned
to the same tokens.

* `Filler`, `Separator`: blanks and comments, each comment with the line break after it.
* `Spaced`: a text in which the texts of given tokens stand in order, with a separator after each of
  them but perhaps the last.
* `Spelled`: a token that is what its text spells. All tokens of a scan are
  (`Tokenizes.spelled`), and before a separator each of them is read again (`Spelled.munch`).
* `scan_respaced`: a text of spaced tokens is scanned without errors to the same tokens, up to their
  lines.
-/

namespace ExprFront

/-! ### Spaced texts -/

/-- Blanks and comments in a row, each comment with the line break that ends it. -/
inductive Filler : List Char → Prop where
  | nil : Filler []
  | blank {c fill} (hc : Text.isBlank c = true) (h : Filler fill) : Filler (c :: fill)
  | comment {body fill} (hbody : '\n' ∉ body) (h : Filler fill) :
      Filler ('/' :: '/' :: (body ++ '\n' :: fill))

/-- Filling that starts with a blank. -/
inductive Separator : List Char → Prop where
  | intro {c fill} (hc : Text.isBlank c = true) (h : Filler fill) : Separator (c :: fill)

/-- The texts of tokens in order, with a separator after each of them but perhaps the last. -/
inductive Spaced : List Token → List Char → Prop where
  | nil : Spaced [] []
  | last {t} : Spaced [t] t.lexeme.toList
  | cons {t sep ts text} (hsep : Separator sep) (h : Spaced ts text) :
      Spaced (t :: ts) (t.lexeme.toList ++ (sep ++ text))

/-- A token without its line. -/
def TokenOf.unplaced {P : Type} (t : TokenOf P) : TokenType × String × P :=
  (t.type, t.lexeme, t.payload)

lemma Filler.trivia {fill : List Char} (h : Filler fill) (rest : List Char) :
    Trivia fill rest := by
  induction h with
  | nil => exact .nil
  | blank hc _ ih => exact .blank hc ih
  | @comment body fill hbody _ ih =>
      exact .comment hbody (Or.inr ⟨fill ++ rest, rfl⟩) (.blank Text.isBlank_newline ih)

lemma Separator.filler {sep : List Char} (h : Separator sep) : Filler sep := by
  obtain ⟨hc, h⟩ := h
  exact .blank hc h

/-! ### Tokens that are read again -/

/-- Before a blank and at the end a text that spells a token starts no comment and no blank. -/
lemma Spells.solid {text rest : List Char} {type : TokenType} (h : Spells text type)
    (hrest : ∀ b ∈ rest.head?, Text.isBlank b = true) : Solid (text ++ rest) := by
  obtain ⟨c, cs, rfl⟩ := List.exists_cons_of_ne_nil h.ne_nil
  refine ⟨?_, fun hp => ?_⟩
  · rintro _ ⟨⟩
    exact h.isBlank_head
  · rw [List.cons_append, List.cons_prefix_cons] at hp
    obtain ⟨rfl, hp⟩ := hp
    cases cs with
    | nil =>
        -- The second slash would be the blank after the text.
        obtain ⟨more, rfl⟩ := hp
        exact absurd (hrest '/' rfl) (by decide)
    | cons d cs =>
        rw [List.cons_append, List.cons_prefix_cons] at hp
        obtain ⟨rfl, -⟩ := hp
        rw [Lexeme.spells_operator_iff (by decide) (by decide) (by decide)] at h
        obtain rfl : cs = [] := List.length_eq_zero_iff.mp (by simpa using (operator_cons h).2.2.2)
        cases h

/-- A token is what its text spells. -/
structure Spelled (t : Token) : Prop where
  spells : Spells t.lexeme.toList t.type
  payload : t.type.payload? t.lexeme.toList = some t.payload

/-- Before a blank and at the end a token is read from its text. -/
lemma Spelled.munch {t : Token} (h : Spelled t) {rest : List Char}
    (hrest : ∀ b ∈ rest.head?, Text.isBlank b = true) (line : Nat) :
    Munch line t.lexeme.toList rest (.ok { t with line := line }) := by
  have hm : Munch line t.lexeme.toList rest _ := .token h.spells (h.spells.longest hrest) h.payload
  rwa [String.ofList_toList] at hm

/-- All that is read is what its text spells. -/
lemma Tokenizes.spelled {line : Nat} {source : List Char}
    {results : List (Except LexicalError Token)} (h : Tokenizes line source results) :
    ∀ t ∈ results.filterMap Except.toOption, Spelled t := by
  induction h with
  | done => simp
  | next _ _ hm _ _ ih =>
      cases hm with
      | token hs _ hp =>
          intro t ht
          rcases List.mem_cons.mp ht with rfl | ht
          · exact ⟨by rwa [String.toList_ofList], by rwa [String.toList_ofList]⟩
          · exact ih t ht
      | unclosed => exact ih
      | stray => exact ih

/-- Spaced tokens are read in order. The induction moves each separator to the front of the tokens
after it. -/
lemma Spaced.tokenizes {ts : List Token} {text : List Char} (h : Spaced ts text)
    (hts : ∀ t ∈ ts, Spelled t) {front : List Char} (hfront : Filler front) (line : Nat) :
    ∃ us : List Token, Tokenizes line (front ++ text) (us.map .ok) ∧
      us.map TokenOf.unplaced = ts.map TokenOf.unplaced := by
  induction h generalizing front line with
  | nil =>
      refine ⟨[], ?_, rfl⟩
      rw [List.append_nil]
      exact .done (hfront.trivia [])
  | @last t =>
      have ht := hts t List.mem_cons_self
      have hend : ∀ b ∈ ([] : List Char).head?, Text.isBlank b = true := by simp
      refine ⟨[{ t with line := (line + lineBreaks front : Nat) }], ?_, rfl⟩
      exact .next (hfront.trivia _) (ht.spells.solid hend) (ht.munch hend _) (.done .nil)
        (by rw [List.append_nil])
  | @cons t sep ts text hsep _ ih =>
      have ht := hts t List.mem_cons_self
      have hblank : ∀ b ∈ (sep ++ text).head?, Text.isBlank b = true := by
        obtain ⟨hc, -⟩ := hsep
        rintro _ ⟨⟩
        exact hc
      obtain ⟨us, hus, heq⟩ := ih (fun t ht => hts t (List.mem_cons_of_mem _ ht)) hsep.filler
        (line + lineBreaks front + lineBreaks t.lexeme.toList)
      refine ⟨{ t with line := (line + lineBreaks front : Nat) } :: us, ?_, ?_⟩
      · exact .next (hfront.trivia _) (ht.spells.solid hblank) (ht.munch hblank _) hus rfl
      · rw [List.map_cons, List.map_cons, heq]
        rfl

/-- A text that is read as tokens only is scanned to them, without errors. -/
lemma Tokenizes.scan_eq {source : List Char} {ts : List Token}
    (h : Tokenizes 1 source (ts.map .ok)) :
    (Scan.ofText source).body = ts ∧ (Scan.ofText source).errors = [] := by
  obtain ⟨hbody, herrors⟩ := ofSegments_eq_outcomes 1 (Segment.ofText source)
  rw [← h.unique, List.filterMap_map] at hbody herrors
  have hok : Except.toOption ∘ (Except.ok : Token → Except LexicalError Token) = some := rfl
  have herror : rejected? ∘ (Except.ok : Token → Except LexicalError Token) = fun _ => none := rfl
  rw [hok, List.filterMap_some] at hbody
  rw [herror, List.filterMap_eq_nil_iff.mpr fun _ _ => rfl] at herrors
  exact ⟨hbody, herrors⟩

/-- **Respacing**: the texts of the tokens of a scan, with or without errors, may be put apart by
any separators, with any filling in front. A scanner finds no errors in the new text, and tokens of
the same types, texts and payloads, the end of the input included. -/
theorem scan_respaced {source front text : List Char} (hfront : Filler front)
    (htext : Spaced (Scan.ofText source).body text) :
    Scanner.Finds ⟨source⟩ (Scan.ofText source).tokens (Scan.ofText source).errors ∧
      Scanner.Finds ⟨front ++ text⟩ (Scan.ofText (front ++ text)).tokens [] ∧
      (Scan.ofText (front ++ text)).errors = [] ∧
      (Scan.ofText (front ++ text)).tokens.map TokenOf.unplaced =
        (Scan.ofText source).tokens.map TokenOf.unplaced := by
  have hspelled : ∀ t ∈ (Scan.ofText source).body, Spelled t := by
    rw [Scan.ofText, (ofSegments_eq_outcomes 1 (Segment.ofText source)).1]
    exact (tokenizes_outcomes 1 source).spelled
  obtain ⟨us, hus, heq⟩ := htext.tokenizes hspelled hfront 1
  obtain ⟨hbody, herrors⟩ := hus.scan_eq
  have hfinds := Scanner.scan_finds ⟨front ++ text⟩
  rw [herrors] at hfinds
  refine ⟨Scanner.scan_finds ⟨source⟩, hfinds, herrors, ?_⟩
  rw [Scan.tokens, Scan.tokens, hbody, List.map_append, List.map_append, heq]
  rfl

/-- Operators that would be one token or a comment without spaces between them, and a string over
two lines; the sign after them is reported in the first text. -/
theorem scan_respaced_operators :
    (Scan.ofText "!//\n=/\"\n\"@".toList).errors.length = 1 ∧
      (Scan.ofText "//\n! =\t/ //\n\"\n\"".toList).errors = [] ∧
      (Scan.ofText "//\n! =\t/ //\n\"\n\"".toList).tokens.map TokenOf.unplaced =
        (Scan.ofText "!//\n=/\"\n\"@".toList).tokens.map TokenOf.unplaced := by
  have hline : '\n' ∉ ([] : List Char) := List.not_mem_nil
  have hcomment : Filler ['/', '/', '\n'] := Filler.comment hline .nil
  have hspace : Separator [' '] := .intro Text.isBlank_space .nil
  have htab : Separator ['\t'] := .intro (by decide) .nil
  have hspaced : Spaced (Scan.ofText "!//\n=/\"\n\"@".toList).body "! =\t/ //\n\"\n\"".toList :=
    .cons hspace (.cons htab (.cons (.intro Text.isBlank_space hcomment) .last))
  exact ⟨rfl, (scan_respaced hcomment hspaced).2.2⟩

end ExprFront
