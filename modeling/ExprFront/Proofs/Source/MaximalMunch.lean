import ExprFront.Proofs.Source.Spelling
import ExprFront.Source.Scan

/-!
Maximal munch over the lexical grammar.

* `Trivia`, `Solid`: blanks and comments in a row, and a text before which the row is at its end.
* `Munch`: what is read where the row ends. It is a token with the longest text that spells one; if
  no text spells one it is an error, for one character or for all that follows an open quote.
* `Tokenizes`: a text read in this way from front to back. The outcomes of the segments are read so
  (`tokenizes_outcomes`), and no others are (`Tokenizes.unique`).
-/

namespace ExprFront

/-! ### Payloads -/

/-- The payload of a token by its type and its text: the number that is written, the text between
the quotes, or none. -/
def TokenType.payload? (type : TokenType) (text : List Char) : Option Value :=
  match type with
  | .number => (Double.ofText? (String.ofList text)).map fun x => .scalar (.double x)
  | .string => some (.scalar (.text (String.ofList (text.drop 1).dropLast)))
  | _ => some .nil

lemma TokenType.payload?_eq_nil {type : TokenType} (hnumber : type ≠ .number)
    (hstring : type ≠ .string) (text : List Char) : type.payload? text = some .nil := by
  cases type <;> first | rfl | contradiction

/-- A numeral without its point is digits, of which there is one at least. -/
lemma Numeral.digits {text : List Char} (h : Numeral text) :
    let digits := text.takeWhile (· ≠ '.') ++ (text.dropWhile (· ≠ '.')).drop 1
    digits.isEmpty = false ∧ digits.all Text.isAsciiDigit = true := by
  obtain ⟨ds, hne, hds, htext⟩ := h
  have hpoint : ∀ d ∈ ds, decide (d ≠ '.') = true :=
    Text.ne_of_not_mem fun hd => absurd (hds _ hd) (by decide)
  rcases htext with rfl | ⟨es, -, hes, rfl⟩
  · rw [List.takeWhile_eq_self_iff.mpr hpoint, List.dropWhile_eq_nil_iff.mpr hpoint]
    exact ⟨by simpa using hne, by simpa using hds⟩
  · rw [List.takeWhile_append_of_pos hpoint, List.dropWhile_append_of_pos hpoint,
      List.takeWhile_cons_of_neg (by simp), List.dropWhile_cons_of_neg (by simp), List.append_nil]
    refine ⟨by simpa using fun h => absurd h hne, List.all_eq_true.mpr fun d hd => ?_⟩
    exact (List.mem_append.mp hd).elim (hds d) (hes d)

/-- The text of a numeral always reads as a number. -/
lemma Numeral.ofText? {text : List Char} (h : Numeral text) :
    Double.ofText? (String.ofList text) = some (Double.ofPlainDigits text) := by
  obtain ⟨hempty, hall⟩ := h.digits
  have hplain : ∀ x ∈ text, decide (x ≠ 'e') = true :=
    Text.ne_of_not_mem fun hx => absurd (h.isAsciiDigit_or_point _ hx) (by decide)
  have hread : Double.ofDigitText? false text = some (Double.ofPlainDigits text) := by
    simp only [Double.ofDigitText?, List.takeWhile_eq_self_iff.mpr hplain,
      List.dropWhile_eq_nil_iff.mpr hplain, hempty, hall]
    rfl
  obtain ⟨c, cs, rfl, hc⟩ := h.exists_cons
  have hword : ∀ d, Text.isAsciiDigit d = false → ∀ ds, c :: cs ≠ d :: ds := by
    rintro d hd ds heq
    obtain ⟨rfl, -⟩ := List.cons.inj heq
    rw [hc] at hd
    cases hd
  simp only [Double.ofText?, String.toList_ofList]
  split
  next rest hsign => exact absurd hsign (hword '-' (by decide) rest)
  next =>
    rw [if_neg (hword 'n' (by decide) _), if_neg (hword 'i' (by decide) _)]
    exact hread

/-! ### Between tokens -/

/-- Blanks and comments in a row before a given text. A comment goes up to the end of its line or
of the whole text. -/
inductive Trivia : List Char → List Char → Prop where
  | nil {rest} : Trivia [] rest
  | blank {c run rest} (hc : Text.isBlank c = true) (h : Trivia run rest) : Trivia (c :: run) rest
  | comment {body run rest} (hbody : '\n' ∉ body)
      (hend : run ++ rest = [] ∨ ∃ more, run ++ rest = '\n' :: more) (h : Trivia run rest) :
      Trivia ('/' :: '/' :: (body ++ run)) rest

/-- A text that starts neither with a blank nor with a comment. -/
def Solid (source : List Char) : Prop :=
  (∀ c ∈ source.head?, Text.isBlank c = false) ∧ ¬ ['/', '/'] <+: source

/-! ### Tokens and errors -/

/-- What is read at the front of a text: the longest text that spells a token, with its type and its
payload, or an error where nothing spells one. -/
inductive Munch (line : Nat) : List Char → List Char → Except LexicalError Token → Prop where
  | token {text rest type payload} (hs : Spells text type) (hl : Longest text rest)
      (hp : type.payload? text = some payload) :
      Munch line text rest (.ok ⟨type, String.ofList text, payload, line⟩)
  /-- The error takes all the text. -/
  | unclosed {body} (h : NoSpelling ('"' :: body)) :
      Munch line ('"' :: body) [] (.error ⟨.unclosedString, line⟩)
  /-- The error takes one character. -/
  | stray {c rest} (hc : c ≠ '"') (h : NoSpelling (c :: rest)) :
      Munch line [c] rest (.error ⟨.stray c, line⟩)

lemma Munch.ne_nil {line : Nat} {text rest : List Char} {result : Except LexicalError Token}
    (h : Munch line text rest result) : text ≠ [] := by
  cases h with
  | token hs => exact hs.ne_nil
  | unclosed => simp
  | stray => simp

/-- What is read at the front of a text is unique. -/
lemma Munch.unique {line : Nat} {text rest text' rest' : List Char}
    {result result' : Except LexicalError Token} (h : Munch line text rest result)
    (h' : Munch line text' rest' result') (heq : text ++ rest = text' ++ rest') :
    text = text' ∧ rest = rest' ∧ result = result' := by
  cases h with
  | token hs hl hp =>
      cases h' with
      | token hs' hl' hp' =>
          obtain ⟨rfl, rfl⟩ := hl.unique hl' hs hs' heq
          obtain rfl := hs.type_unique hs'
          obtain rfl := Option.some.inj (hp.symm.trans hp')
          exact ⟨rfl, rfl, rfl⟩
      | unclosed hno =>
          rw [List.append_nil] at heq
          exact absurd hs (hno _ _ ⟨_, heq⟩)
      | stray _ hno => exact absurd hs (hno _ _ ⟨_, heq⟩)
  | unclosed hno =>
      rw [List.append_nil] at heq
      cases h' with
      | token hs' => exact absurd hs' (hno _ _ ⟨_, heq.symm⟩)
      | unclosed =>
          rw [List.append_nil] at heq
          exact ⟨heq, rfl, rfl⟩
      | stray hc => exact absurd (List.cons.inj heq).1.symm hc
  | stray hc hno =>
      cases h' with
      | token hs' => exact absurd hs' (hno _ _ ⟨_, heq.symm⟩)
      | unclosed => exact absurd (List.cons.inj heq).1 hc
      | stray =>
          obtain ⟨rfl, rfl⟩ := List.cons.inj heq
          exact ⟨rfl, rfl, rfl⟩

/-- A text read from front to back, from a given line on: blanks and comments, a token or an error,
and so on after its text. -/
inductive Tokenizes : Nat → List Char → List (Except LexicalError Token) → Prop where
  | done {line run} (h : Trivia run []) : Tokenizes line run []
  | next {line run text rest source result results} (h : Trivia run (text ++ rest))
      (hs : Solid (text ++ rest)) (hm : Munch (line + lineBreaks run) text rest result)
      (hr : Tokenizes (line + lineBreaks run + lineBreaks text) rest results)
      (hsource : source = run ++ (text ++ rest)) : Tokenizes line source (result :: results)

/-! ### The scanner -/

/-- No word is a number or a string. -/
lemma ofWord_ne_number_string (s : String) :
    TokenType.ofWord s ≠ .number ∧ TokenType.ofWord s ≠ .string := by
  have hall : ∀ type ∈ TokenType.identifier :: TokenType.keywords.map Prod.snd,
      type ≠ .number ∧ type ≠ .string := by decide
  exact hall _ (TokenType.ofWord_mem s)

/-- The longest operator at a place is read as a token. -/
lemma Lexeme.operator_munch {text rest : List Char} {type : TokenType}
    (h : TokenType.ofOperator? text = some type) (hl : Longest text rest) (line : Nat) :
    Munch line text rest ((Lexeme.operator text type).toToken line) := by
  have hall : ∀ p ∈ TokenType.operators, p.2 ≠ .number ∧ p.2 ≠ .string := by decide
  obtain ⟨hnumber, hstring⟩ := hall _ (TokenType.mem_operators h)
  exact .token (.operator h) hl (TokenType.payload?_eq_nil hnumber hstring text)

/-- The scanner reads the longest text that spells a token, or the error that is due. -/
lemma Lexeme.first_munch (line : Nat) (c : Char) (rest : List Char) :
    Munch line (first c rest).1.text (first c rest).2 ((first c rest).1.toToken line) := by
  rw [first]
  split
  · next hd =>
      have hnum := numeral_firstNumber hd rest
      exact .token (.number hnum) (longest_firstNumber hd rest)
        (by rw [TokenType.payload?, hnum.ofText?]; rfl)
  · next hd =>
      split
      · next hw =>
          obtain ⟨hnumber, hstring⟩ := ofWord_ne_number_string _
          exact .token (spells_firstWord hw rest) (longest_firstWord hw rest)
            (TokenType.payload?_eq_nil hnumber hstring _)
      · next hw =>
          split
          · rcases firstString_cases rest with ⟨h, hrest⟩ | ⟨body, more, h, -, hbody⟩
            · rw [h]
              exact .unclosed (noSpelling_unclosed hrest)
            · rw [h]
              exact .token (.string hbody) (longest_string hbody more)
                (by simp [TokenType.payload?, text])
          · next hq =>
              rcases firstOperator_cases c rest with
                ⟨d, more, type, -, ht, h⟩ | ⟨hpair, ⟨type, ht, h⟩ | ⟨hsingle, h⟩⟩
              · rw [h]
                exact operator_munch ht (longest_operator_pair hd hw hq) line
              · rw [h]
                exact operator_munch ht (longest_operator_single hd hw hq hpair) line
              · rw [h]
                exact .stray hq (noSpelling_stray hd hw hq hsingle hpair)

namespace Segment

/-- What a segment on a given line adds to a scan. -/
def outcome? (line : Nat) : Segment → Option (Except LexicalError Token)
  | .lexeme l => some (l.toToken line)
  | _ => none

/-- What segments from a given line on add to a scan, in order. -/
def outcomes (line : Nat) : List Segment → List (Except LexicalError Token)
  | [] => []
  | s :: ss => (s.outcome? line).toList ++ outcomes (line + lineBreaks s.text) ss

/-- A comment goes up to the end of its line. -/
lemma first_comment {body rest : List Char} (hbody : '\n' ∉ body)
    (hend : rest = [] ∨ ∃ more, rest = '\n' :: more) :
    first '/' ('/' :: (body ++ rest)) = (.comment body, rest) := by
  have hne := Text.ne_of_not_mem hbody
  rw [first, if_neg (by decide), comment?, if_pos (by decide), List.takeWhile_append_of_pos hne,
    List.dropWhile_append_of_pos hne]
  rcases hend with rfl | ⟨more, rfl⟩ <;> simp

/-- Where neither a blank nor a comment starts the first segment is a lexeme. -/
lemma first_solid {c : Char} {rest : List Char} (h : Solid (c :: rest)) :
    first c rest = (.lexeme (Lexeme.first c rest).1, (Lexeme.first c rest).2) := by
  have hcomment : comment? c rest = none := by
    cases rest with
    | nil => rfl
    | cons d rest =>
        rw [comment?, if_neg]
        intro hs
        obtain ⟨rfl, rfl⟩ : c = '/' ∧ d = '/' := by simpa using hs
        exact h.2 (List.prefix_append ['/', '/'] rest)
  rw [first, if_neg (by simp [h.1 c rfl]), hcomment]

/-- The first segment is a blank, a comment or a lexeme. -/
lemma first_cases (c : Char) (rest : List Char) :
    (Text.isBlank c = true ∧ first c rest = (.blank c, rest)) ∨
      (∃ body more, c :: rest = '/' :: '/' :: body ++ more ∧ '\n' ∉ body ∧
        (more = [] ∨ ∃ next, more = '\n' :: next) ∧ first c rest = (.comment body, more)) ∨
      Solid (c :: rest) := by
  by_cases hb : Text.isBlank c = true
  · exact Or.inl ⟨hb, by rw [first, if_pos hb]⟩
  · by_cases hs : ['/', '/'] <+: c :: rest
    · obtain ⟨ts, hts⟩ := hs
      obtain ⟨rfl, rfl⟩ := List.cons.inj hts
      have hbody := Text.not_mem_takeWhile_ne '\n' ts
      have hend := Text.dropWhile_ne_cases '\n' ts
      have hcut := List.takeWhile_append_dropWhile (p := (· ≠ '\n')) (l := ts)
      refine Or.inr (Or.inl ⟨_, _, ?_, hbody, hend, ?_⟩)
      · rw [List.cons_append, List.cons_append, hcut]
        rfl
      · have hfirst := first_comment hbody hend
        rwa [hcut] at hfirst
    · refine Or.inr (Or.inr ⟨?_, hs⟩)
      simpa using hb

end Segment

lemma lineBreaks_append (us vs : List Char) :
    lineBreaks (us ++ vs) = lineBreaks us + lineBreaks vs := List.count_append

/-- Blanks and comments add nothing to a scan. -/
lemma outcomes_trivia {run rest : List Char} (h : Trivia run rest) (line : Nat) :
    Segment.outcomes line (Segment.ofText (run ++ rest)) =
      Segment.outcomes (line + lineBreaks run) (Segment.ofText rest) := by
  induction h generalizing line with
  | nil => rfl
  | @blank c run rest hc _ ih =>
      rw [List.cons_append, Segment.ofText_cons, Segment.first, if_pos hc, Segment.outcomes,
        ← List.singleton_append, lineBreaks_append, ← Nat.add_assoc, ← ih]
      rfl
  | @comment body run rest hbody hend _ ih =>
      rw [List.cons_append, List.cons_append, Segment.ofText_cons, List.append_assoc,
        Segment.first_comment hbody hend, Segment.outcomes, ← List.cons_append, ← List.cons_append,
        lineBreaks_append, ← Nat.add_assoc, ← ih]
      rfl

namespace Tokenizes

variable {line : Nat} {source : List Char} {results : List (Except LexicalError Token)}

/-- A blank or a comment in front changes nothing but the line. -/
lemma trivia_append {piece : List Char}
    (hpiece : ∀ run rest, run ++ rest = source → Trivia run rest → Trivia (piece ++ run) rest)
    (h : Tokenizes (line + lineBreaks piece) source results) :
    Tokenizes line (piece ++ source) results := by
  cases h with
  | done h => exact .done (hpiece _ _ (List.append_nil _) h)
  | @next _ run _ _ _ _ _ h hs hm hr hsource =>
      have hline : line + lineBreaks piece + lineBreaks run = line + lineBreaks (piece ++ run) := by
        rw [lineBreaks_append, Nat.add_assoc]
      rw [hline] at hm hr
      exact .next (hpiece _ _ hsource.symm h) hs hm hr (by rw [hsource, List.append_assoc])

/-- A text is read in one way only. -/
theorem unique (h : Tokenizes line source results) :
    results = Segment.outcomes line (Segment.ofText source) := by
  induction h with
  | @done line run h =>
      have heq := outcomes_trivia h line
      rw [List.append_nil] at heq
      exact heq.symm
  | @next line run text rest source result results h hs hm _ hsource ih =>
      rw [hsource, outcomes_trivia h line]
      obtain ⟨c, cs, rfl⟩ := List.exists_cons_of_ne_nil hm.ne_nil
      rw [List.cons_append] at hs ⊢
      obtain ⟨htext, hrest, hresult⟩ := hm.unique (Lexeme.first_munch _ c (cs ++ rest))
        (Lexeme.text_first c (cs ++ rest)).symm
      rw [Segment.ofText_cons, Segment.first_solid hs, Segment.outcomes, ← hrest,
        Segment.text, ← htext, ← ih, hresult]
      rfl

end Tokenizes

/-- The outcomes of the segments are what is read from front to back. -/
theorem tokenizes_outcomes (line : Nat) (source : List Char) :
    Tokenizes line source (Segment.outcomes line (Segment.ofText source)) := by
  induction hk : source.length using Nat.strong_induction_on generalizing line source with
  | _ k ih =>
      cases source with
      | nil => exact .done .nil
      | cons c rest =>
          have hle := Segment.length_first_le c rest
          rw [List.length_cons] at hk
          have hrest := ih _ (by omega) (line + lineBreaks (Segment.first c rest).1.text)
            (Segment.first c rest).2 rfl
          rw [Segment.ofText_cons, Segment.outcomes]
          rcases Segment.first_cases c rest with
            ⟨hc, h⟩ | ⟨body, more, hsource, hbody, hend, h⟩ | hs
          · rw [h] at hrest ⊢
            exact Tokenizes.trivia_append (fun _ _ _ ht => .blank hc ht) hrest
          · rw [h] at hrest ⊢
            rw [hsource]
            exact Tokenizes.trivia_append (fun _ _ heq ht => .comment hbody (heq ▸ hend) ht) hrest
          · rw [Segment.first_solid hs] at hrest ⊢
            have htext := Lexeme.text_first c rest
            exact .next .nil (htext ▸ hs) (Lexeme.first_munch line c rest) hrest htext.symm

/-- The error among the outcomes. -/
def rejected? : Except LexicalError Token → Option LexicalError
  | .ok _ => none
  | .error e => some e

/-- The tokens and the errors of segments are their outcomes. -/
lemma ofSegments_eq_outcomes (line : Nat) (ss : List Segment) :
    (Scan.ofSegments line ss).body = (Segment.outcomes line ss).filterMap Except.toOption ∧
      (Scan.ofSegments line ss).errors = (Segment.outcomes line ss).filterMap rejected? := by
  induction ss generalizing line with
  | nil => exact ⟨rfl, rfl⟩
  | cons s ss ih =>
      obtain ⟨hbody, herrors⟩ := ih (line + lineBreaks s.text)
      cases s with
      | blank c => exact ⟨hbody, herrors⟩
      | comment body => exact ⟨hbody, herrors⟩
      | lexeme l =>
          cases hl : l.toToken line with
          | ok t =>
              simp only [Scan.ofSegments, Segment.outcomes, Segment.outcome?, hl]
              exact ⟨congrArg (t :: ·) hbody, herrors⟩
          | error e =>
              simp only [Scan.ofSegments, Segment.outcomes, Segment.outcome?, hl]
              exact ⟨hbody, congrArg (e :: ·) herrors⟩

end ExprFront
