import Mathlib.Order.Bounds.Basic
import ExprFront.Source.Segment

/-!
The segments of a text are the text, cut without a gap.

* `Lexeme.text_first`, `Segment.text_first`: the first piece of a text, followed by the text after
  it, is the text. The piece is not empty, so what is left is shorter.
* `Segment.ofText_cons`: a text is cut by cutting off its first segment. The bound on the number of
  segments is never used up (`Segment.cut_bound`).
* `Segment.Fits`: what a segment may be before a given text. `Segment.ofText_spec`: together the
  segments are the text, and each of them fits the text after it.
-/

namespace ExprFront

/-! ### Texts up to a character -/

namespace Text

lemma not_mem_takeWhile_ne (d : Char) (ts : List Char) : d ∉ ts.takeWhile (· ≠ d) := by
  intro h
  have hd : (d != d) = true := by simpa using List.all_eq_true.mp List.all_takeWhile d h
  simp at hd

/-- A text without a character consists of other ones. -/
lemma ne_of_not_mem {d : Char} {us : List Char} (h : d ∉ us) : ∀ u ∈ us, decide (u ≠ d) = true :=
  fun _ hu => decide_eq_true fun heq => h (heq ▸ hu)

/-- What is left of a text after all that comes before a character. -/
lemma dropWhile_ne_cases (d : Char) (ts : List Char) :
    ts.dropWhile (· ≠ d) = [] ∨ ∃ more, ts.dropWhile (· ≠ d) = d :: more := by
  cases h : ts.dropWhile (· ≠ d) with
  | nil => exact Or.inl rfl
  | cons u more =>
      have hu := List.head?_dropWhile_not (· ≠ d) ts
      rw [h] at hu
      obtain rfl : u = d := by simpa using hu
      exact Or.inr ⟨more, rfl⟩

end Text

/-! ### Lexemes -/

namespace Lexeme

/-- What a lexeme may be before a given text. -/
def Fits : Lexeme → List Char → Prop
  | .number text, _ => text ≠ []
  | .word text, _ => text ≠ []
  | .string body, _ => '"' ∉ body
  | .operator text type, _ => text ≠ [] ∧ type ≠ .eof
  | .stray _, _ => True
  | .unclosed body, rest => '"' ∉ body ∧ rest = []

lemma Fits.text_ne_nil {l : Lexeme} {rest : List Char} (h : l.Fits rest) : l.text ≠ [] := by
  cases l with
  | number text => exact h
  | word text => exact h
  | string body => simp [text]
  | operator text type => exact h.1
  | stray c => simp [text]
  | unclosed body => simp [text]

lemma fraction_isPrefix (ts : List Char) : fraction ts <+: ts := by
  unfold fraction
  split
  · next d rest =>
      split
      · refine List.cons_prefix_cons.mpr ⟨rfl, ?_⟩
        exact List.cons_prefix_cons.mpr ⟨rfl, List.takeWhile_prefix _⟩
      · exact List.nil_prefix
  · exact List.nil_prefix

lemma text_firstNumber (c : Char) (rest : List Char) :
    (firstNumber c rest).1.text ++ (firstNumber c rest).2 = c :: rest := by
  obtain ⟨more, hmore⟩ : ∃ more, more = rest.dropWhile Text.isAsciiDigit := ⟨_, rfl⟩
  have hfrac : fraction more ++ more.drop (fraction more).length = more :=
    List.prefix_iff_eq_append.mp (fraction_isPrefix more)
  simp only [firstNumber, text, ← hmore]
  rw [List.cons_append, List.cons_append, List.append_assoc, hfrac, hmore,
    List.takeWhile_append_dropWhile]

/-- A string ends at the next quote, or at the end of the text. -/
lemma firstString_cases (rest : List Char) :
    (firstString rest = (.unclosed rest, []) ∧ '"' ∉ rest) ∨
      ∃ body more, firstString rest = (.string body, more) ∧ rest = body ++ '"' :: more ∧
        '"' ∉ body := by
  have hcut := List.takeWhile_append_dropWhile (p := (· ≠ '"')) (l := rest)
  have hbody := Text.not_mem_takeWhile_ne '"' rest
  rw [firstString]
  rcases Text.dropWhile_ne_cases '"' rest with h | ⟨more, h⟩
  · rw [h, List.append_nil] at hcut
    rw [hcut] at hbody
    exact Or.inl ⟨by simp only [h, hcut], hbody⟩
  · rw [h] at hcut
    exact Or.inr ⟨_, more, by simp only [h], hcut.symm, hbody⟩

/-- An operator has two characters of the text, or one when no operator has two there; otherwise the
first character is stray. -/
lemma firstOperator_cases (c : Char) (rest : List Char) :
    (∃ d more type, rest = d :: more ∧ TokenType.ofOperator? [c, d] = some type ∧
        firstOperator c rest = (.operator [c, d] type, more)) ∨
      (∀ d ∈ rest.head?, TokenType.ofOperator? [c, d] = none) ∧
        ((∃ type, TokenType.ofOperator? [c] = some type ∧
            firstOperator c rest = (.operator [c] type, rest)) ∨
          TokenType.ofOperator? [c] = none ∧ firstOperator c rest = (.stray c, rest)) := by
  have hmark : (∃ type, TokenType.ofOperator? [c] = some type ∧
      firstMark c rest = (.operator [c] type, rest)) ∨
      TokenType.ofOperator? [c] = none ∧ firstMark c rest = (.stray c, rest) := by
    rw [firstMark]
    cases TokenType.ofOperator? [c] with
    | some type => exact Or.inl ⟨type, rfl, rfl⟩
    | none => exact Or.inr ⟨rfl, rfl⟩
  cases rest with
  | nil => exact Or.inr ⟨by simp, hmark⟩
  | cons d more =>
      rw [firstOperator]
      cases h : TokenType.ofOperator? [c, d] with
      | some type => exact Or.inl ⟨d, more, type, rfl, h, rfl⟩
      | none => exact Or.inr ⟨by simpa using h, hmark⟩

/-- The first lexeme and the text after it are the text. -/
lemma text_first (c : Char) (rest : List Char) :
    (first c rest).1.text ++ (first c rest).2 = c :: rest := by
  rw [first]
  split
  · exact text_firstNumber c rest
  · split
    · simp only [text]
      rw [List.cons_append, List.takeWhile_append_dropWhile]
    · split
      · next hc =>
          rcases firstString_cases rest with ⟨h, -⟩ | ⟨body, more, h, hrest, -⟩
          · rw [h, hc]
            simp [text]
          · rw [h, hc, hrest]
            simp [text]
      · rcases firstOperator_cases c rest with
          ⟨d, more, type, rfl, -, h⟩ | ⟨-, ⟨type, -, h⟩ | ⟨-, h⟩⟩
        · rw [h]
          rfl
        · rw [h]
          rfl
        · rw [h]
          rfl

/-- No operator marks the end of the input. -/
lemma ne_eof_of_ofOperator? {cs : List Char} {type : TokenType}
    (h : TokenType.ofOperator? cs = some type) : type ≠ .eof := by
  have hall : ∀ p ∈ TokenType.operators, p.2 ≠ .eof := by decide
  exact hall _ (TokenType.mem_operators h)

lemma first_fits (c : Char) (rest : List Char) : (first c rest).1.Fits (first c rest).2 := by
  rw [first]
  split
  · simp [firstNumber, Fits]
  · split
    · simp [Fits]
    · split
      · rcases firstString_cases rest with ⟨h, hbody⟩ | ⟨body, more, h, -, hbody⟩
        · rw [h]
          exact ⟨hbody, rfl⟩
        · rw [h]
          exact hbody
      · rcases firstOperator_cases c rest with
          ⟨d, more, type, -, ht, h⟩ | ⟨-, ⟨type, ht, h⟩ | ⟨-, h⟩⟩
        · rw [h]
          exact ⟨by simp, ne_eof_of_ofOperator? ht⟩
        · rw [h]
          exact ⟨by simp, ne_eof_of_ofOperator? ht⟩
        · rw [h]
          trivial

end Lexeme

/-! ### Segments -/

namespace Segment

/-- What a segment may be before a given text. -/
def Fits : Segment → List Char → Prop
  | .blank c, _ => Text.isBlank c = true
  | .comment body, rest => '\n' ∉ body ∧ (rest = [] ∨ ∃ more, rest = '\n' :: more)
  | .lexeme l, rest => l.Fits rest

lemma Fits.text_ne_nil {s : Segment} {rest : List Char} (h : s.Fits rest) : s.text ≠ [] := by
  cases s with
  | blank c => simp [text]
  | comment body => simp [text]
  | lexeme l => exact Lexeme.Fits.text_ne_nil h

/-- A comment starts with a double slash and goes to the end of its line. -/
lemma comment?_eq_some {c : Char} {rest more : List Char} {s : Segment}
    (h : comment? c rest = some (s, more)) :
    ∃ body, s = .comment body ∧ c :: rest = '/' :: '/' :: body ++ more ∧ '\n' ∉ body ∧
      (more = [] ∨ ∃ next, more = '\n' :: next) := by
  cases rest with
  | nil => simp [comment?] at h
  | cons d rest =>
      rw [comment?] at h
      split at h
      · next hs =>
          obtain ⟨rfl, rfl⟩ : c = '/' ∧ d = '/' := by simpa using hs
          obtain ⟨rfl, rfl⟩ := Prod.mk.inj (Option.some.inj h)
          refine ⟨_, rfl, ?_, Text.not_mem_takeWhile_ne '\n' rest,
            Text.dropWhile_ne_cases '\n' rest⟩
          rw [List.cons_append, List.cons_append, List.takeWhile_append_dropWhile]
      · simp at h

/-- The first segment and the text after it are the text. -/
lemma text_first (c : Char) (rest : List Char) :
    (first c rest).1.text ++ (first c rest).2 = c :: rest := by
  rw [first]
  split
  · rfl
  · split
    · next cut h =>
        obtain ⟨body, hs, htext, -⟩ := comment?_eq_some h
        rw [hs, htext, text]
    · exact Lexeme.text_first c rest

lemma first_fits (c : Char) (rest : List Char) : (first c rest).1.Fits (first c rest).2 := by
  rw [first]
  split
  · next hb => exact hb
  · split
    · next cut h =>
        obtain ⟨body, hs, -, hbody, hmore⟩ := comment?_eq_some h
        rw [hs]
        exact ⟨hbody, hmore⟩
    · exact Lexeme.first_fits c rest

lemma length_first_le (c : Char) (rest : List Char) : (first c rest).2.length ≤ rest.length := by
  have htext := congrArg List.length (text_first c rest)
  have hpos := List.length_pos_iff.mpr (first_fits c rest).text_ne_nil
  rw [List.length_append, List.length_cons] at htext
  omega

/-- A bound from the number of characters on is never used up. -/
lemma cut_bound (text : List Char) :
    ∀ (m n : Nat), text.length ≤ m → text.length ≤ n → cut m text = cut n text := by
  induction hk : text.length using Nat.strong_induction_on generalizing text with
  | _ k ih =>
      intro m n hm hn
      cases text with
      | nil => cases m <;> cases n <;> rfl
      | cons c rest =>
          rw [List.length_cons] at hk
          obtain ⟨m, rfl⟩ := Nat.exists_eq_succ_of_ne_zero (n := m) (by omega)
          obtain ⟨n, rfl⟩ := Nat.exists_eq_succ_of_ne_zero (n := n) (by omega)
          have hle := length_first_le c rest
          simp only [cut]
          rw [ih _ (by omega) (first c rest).2 rfl m n (by omega) (by omega)]

/-- A text is cut by cutting off its first segment. -/
lemma ofText_cons (c : Char) (rest : List Char) :
    ofText (c :: rest) = (first c rest).1 :: ofText (first c rest).2 := by
  have hle := length_first_le c rest
  change (first c rest).1 :: cut rest.length (first c rest).2 = _
  rw [ofText, cut_bound _ rest.length _ hle le_rfl]

/-- Each segment fits the text after it. -/
def AllFit : List Segment → Prop
  | [] => True
  | s :: ss => s.Fits (ss.flatMap text) ∧ AllFit ss

/-- A text is its segments, and each of them fits the text after it. -/
theorem ofText_spec (source : List Char) :
    (ofText source).flatMap text = source ∧ AllFit (ofText source) := by
  induction hk : source.length using Nat.strong_induction_on generalizing source with
  | _ k ih =>
      cases source with
      | nil => exact ⟨rfl, trivial⟩
      | cons c rest =>
          have hle := length_first_le c rest
          rw [List.length_cons] at hk
          obtain ⟨htext, hfit⟩ := ih _ (by omega) (first c rest).2 rfl
          rw [ofText_cons, List.flatMap_cons, htext]
          refine ⟨text_first c rest, ?_, hfit⟩
          rw [htext]
          exact first_fits c rest

end Segment

end ExprFront
