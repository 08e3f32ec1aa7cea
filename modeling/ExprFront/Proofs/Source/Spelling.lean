import Mathlib.Data.List.TakeWhile
import ExprFront.Proofs.Source.Segments
import ExprFront.Proofs.Text.CharacterClass

/-!
The lexical grammar: which texts spell a token, whatever stands around them.

* `Numeral`, `Word`, `Spells`: the texts that spell a token, with its type. The first character
  decides what a text can spell (`spells_cons_iff`), so that a text spells tokens of one type only.
* `Longest`, `NoSpelling`: a text that spells a token is the longest one at a place, or there is
  none. The numbers, words, strings and operators that the scanner reads are longest ones, and where
  it reads none there is none (`Lexeme.longest_firstNumber` to `Lexeme.noSpelling_stray`).
* `Spells.longest`: before a blank and at the end every text that spells a token is the longest one,
  since only strings have blanks in them.
-/

namespace ExprFront

/-! ### Prefixes of a class of characters -/

namespace Text

variable {p : Char → Bool} {us vs ts : List Char} {x : Char}

/-- A prefix of one class is no longer than what is taken of the class. -/
lemma length_le_takeWhile (h : us <+: ts) (hus : ∀ u ∈ us, p u = true) :
    us.length ≤ (ts.takeWhile p).length := by
  obtain ⟨ws, rfl⟩ := h
  rw [List.takeWhile_append_of_pos hus, List.length_append]
  exact Nat.le_add_right _ _

/-- A prefix that leaves a class at a character is taken up to it. -/
lemma takeWhile_eq_of_prefix (h : us ++ x :: vs <+: ts) (hus : ∀ u ∈ us, p u = true)
    (hx : p x = false) : ts.takeWhile p = us ∧ x :: vs <+: ts.dropWhile p := by
  obtain ⟨ws, rfl⟩ := h
  rw [List.append_assoc, List.takeWhile_append_of_pos hus, List.dropWhile_append_of_pos hus,
    List.cons_append, List.takeWhile_cons_of_neg (by simp [hx]),
    List.dropWhile_cons_of_neg (by simp [hx]), List.append_nil]
  exact ⟨rfl, List.prefix_append (x :: vs) ws⟩

end Text

/-! ### The grammar -/

/-- Digits, perhaps with a point and further digits. -/
def Numeral (text : List Char) : Prop :=
  ∃ ds, ds ≠ [] ∧ (∀ d ∈ ds, Text.isAsciiDigit d = true) ∧
    (text = ds ∨
      ∃ es, es ≠ [] ∧ (∀ e ∈ es, Text.isAsciiDigit e = true) ∧ text = ds ++ '.' :: es)

/-- A letter or an underscore, and then letters, numerals and underscores. -/
def Word (text : List Char) : Prop :=
  ∃ c cs, text = c :: cs ∧ (Text.isLetter c = true ∨ c = '_') ∧
    ∀ x ∈ cs, Text.isAlphaNumeric x = true ∨ x = '_'

/-- A text spells a token of a type. -/
inductive Spells : List Char → TokenType → Prop where
  | number {text} (h : Numeral text) : Spells text .number
  | keyword {text type} (h : Word text)
      (hk : TokenType.keywords.lookup (String.ofList text) = some type) : Spells text type
  | identifier {text} (h : Word text)
      (hk : TokenType.keywords.lookup (String.ofList text) = none) : Spells text .identifier
  | string {body} (h : '"' ∉ body) : Spells ('"' :: (body ++ ['"'])) .string
  | operator {text type} (h : TokenType.ofOperator? text = some type) : Spells text type

/-- The scanner tells words by their characters. -/
lemma word_cons_iff {c : Char} {cs : List Char} :
    Word (c :: cs) ↔ Lexeme.isWordStart c = true ∧ ∀ x ∈ cs, Lexeme.isWordPart x = true := by
  simp [Word, Lexeme.isWordStart, Lexeme.isWordPart]

/-- A word spells a token of its type. -/
lemma Word.spells {text : List Char} (h : Word text) :
    Spells text (TokenType.ofWord (String.ofList text)) := by
  rw [TokenType.ofWord]
  cases hk : TokenType.keywords.lookup (String.ofList text) with
  | some type => exact .keyword h hk
  | none => exact .identifier h hk

lemma Word.ne_nil {text : List Char} (h : Word text) : text ≠ [] := by
  obtain ⟨c, cs, rfl, -⟩ := h
  simp

/-- A numeral starts with a digit. -/
lemma Numeral.exists_cons {text : List Char} (h : Numeral text) :
    ∃ c cs, text = c :: cs ∧ Text.isAsciiDigit c = true := by
  obtain ⟨ds, hne, hds, htext⟩ := h
  obtain ⟨c, cs, rfl⟩ := List.exists_cons_of_ne_nil hne
  have hc := hds c List.mem_cons_self
  rcases htext with rfl | ⟨es, -, -, rfl⟩
  · exact ⟨c, cs, rfl, hc⟩
  · exact ⟨c, cs ++ '.' :: es, rfl, hc⟩

/-- A numeral is made of digits and a point. -/
lemma Numeral.isAsciiDigit_or_point {text : List Char} (h : Numeral text) :
    ∀ x ∈ text, Text.isAsciiDigit x = true ∨ x = '.' := by
  obtain ⟨ds, -, hds, htext⟩ := h
  intro x hx
  rcases htext with rfl | ⟨es, -, hes, rfl⟩
  · exact Or.inl (hds x hx)
  · rcases List.mem_append.mp hx with hx | hx
    · exact Or.inl (hds x hx)
    · rcases List.mem_cons.mp hx with hx | hx
      · exact Or.inr hx
      · exact Or.inl (hes x hx)

/-- No digit starts a word. -/
lemma isAsciiDigit_ne_true_of_isWordStart {c : Char} (h : Lexeme.isWordStart c = true) :
    Text.isAsciiDigit c ≠ true := by
  intro hd
  rw [Lexeme.isWordStart, Text.isLetter_eq_false_of_isAsciiDigit hd, Bool.false_or,
    decide_eq_true_eq] at h
  subst h
  exact absurd hd (by decide)

/-- What an operator starts with starts nothing else, and an operator has two characters at most. -/
lemma operator_cons {c : Char} {cs : List Char} {type : TokenType}
    (h : TokenType.ofOperator? (c :: cs) = some type) :
    Text.isAsciiDigit c = false ∧ Lexeme.isWordStart c = false ∧ c ≠ '"' ∧ cs.length ≤ 1 := by
  have hall : ∀ p ∈ TokenType.operators, Text.isAsciiDigit (p.1.headD ' ') = false ∧
      Lexeme.isWordStart (p.1.headD ' ') = false ∧ p.1.headD ' ' ≠ '"' ∧ p.1.length ≤ 2 := by
    decide +kernel
  obtain ⟨hd, hw, hq, hlen⟩ := hall _ (TokenType.mem_operators h)
  exact ⟨hd, hw, hq, Nat.le_of_succ_le_succ hlen⟩

lemma Spells.ne_nil {text : List Char} {type : TokenType} (h : Spells text type) : text ≠ [] := by
  cases h with
  | number h =>
      obtain ⟨c, cs, rfl, -⟩ := h.exists_cons
      simp
  | keyword h => exact h.ne_nil
  | identifier h => exact h.ne_nil
  | string => simp
  | operator h =>
      rintro rfl
      cases h

/-- The first character of a text decides what it can spell. -/
lemma spells_cons_iff {c : Char} {cs : List Char} {type : TokenType} :
    Spells (c :: cs) type ↔
      if Text.isAsciiDigit c then Numeral (c :: cs) ∧ type = .number
      else if Lexeme.isWordStart c then
        (∀ x ∈ cs, Lexeme.isWordPart x = true) ∧ type = TokenType.ofWord (String.ofList (c :: cs))
      else if c = '"' then (∃ body, '"' ∉ body ∧ cs = body ++ ['"']) ∧ type = .string
      else TokenType.ofOperator? (c :: cs) = some type := by
  constructor
  · intro h
    cases h with
    | number h =>
        obtain ⟨c', cs', heq, hd⟩ := h.exists_cons
        obtain ⟨rfl, rfl⟩ := List.cons.inj heq
        rw [if_pos hd]
        exact ⟨h, rfl⟩
    | keyword h hk =>
        obtain ⟨hc, hcs⟩ := word_cons_iff.mp h
        rw [if_neg (isAsciiDigit_ne_true_of_isWordStart hc), if_pos hc]
        exact ⟨hcs, by rw [TokenType.ofWord, hk]; rfl⟩
    | identifier h hk =>
        obtain ⟨hc, hcs⟩ := word_cons_iff.mp h
        rw [if_neg (isAsciiDigit_ne_true_of_isWordStart hc), if_pos hc]
        exact ⟨hcs, by rw [TokenType.ofWord, hk]; rfl⟩
    | string hbody =>
        rw [if_neg (by decide), if_neg (by decide), if_pos rfl]
        exact ⟨⟨_, hbody, rfl⟩, rfl⟩
    | operator h =>
        obtain ⟨hd, hw, hq, -⟩ := operator_cons h
        rwa [if_neg (by simp [hd]), if_neg (by simp [hw]), if_neg hq]
  · intro h
    split at h
    · obtain ⟨hn, rfl⟩ := h
      exact .number hn
    · split at h
      · next hc =>
          obtain ⟨hcs, rfl⟩ := h
          exact (word_cons_iff.mpr ⟨hc, hcs⟩).spells
      · split at h
        · next hc =>
            obtain ⟨⟨body, hbody, rfl⟩, rfl⟩ := h
            rw [hc]
            exact .string hbody
        · exact .operator h

/-- A text spells tokens of one type only. -/
lemma Spells.type_unique {text : List Char} {type type' : TokenType} (h : Spells text type)
    (h' : Spells text type') : type = type' := by
  obtain ⟨c, cs, rfl⟩ := List.exists_cons_of_ne_nil h.ne_nil
  rw [spells_cons_iff] at h h'
  split_ifs at h h' with hd hw hq
  · exact h.2.trans h'.2.symm
  · exact h.2.trans h'.2.symm
  · exact h.2.trans h'.2.symm
  · exact Option.some.inj (h.symm.trans h')

/-! ### Longest texts -/

/-- No text that spells a token reaches further at the same place. -/
def Longest (text rest : List Char) : Prop :=
  ∀ longer type, Spells longer type → longer <+: text ++ rest → longer.length ≤ text.length

/-- Nothing spells a token at a place. -/
def NoSpelling (source : List Char) : Prop :=
  ∀ text type, text <+: source → ¬ Spells text type

/-- Only texts with the same first character count. -/
lemma longest_of_cons {c : Char} {cs text rest : List Char} (htext : text ++ rest = c :: cs)
    (h : ∀ us type, Spells (c :: us) type → us <+: cs → us.length + 1 ≤ text.length) :
    Longest text rest := by
  intro longer type hs hp
  obtain ⟨c', us, rfl⟩ := List.exists_cons_of_ne_nil hs.ne_nil
  rw [htext, List.cons_prefix_cons] at hp
  obtain ⟨rfl, hp⟩ := hp
  exact h us type hs hp

lemma noSpelling_of_cons {c : Char} {cs : List Char}
    (h : ∀ us type, us <+: cs → ¬ Spells (c :: us) type) : NoSpelling (c :: cs) := by
  intro text type hp hs
  obtain ⟨c', us, rfl⟩ := List.exists_cons_of_ne_nil hs.ne_nil
  rw [List.cons_prefix_cons] at hp
  obtain ⟨rfl, hp⟩ := hp
  exact h us type hp hs

/-- Two longest texts at one place are the same. -/
lemma Longest.unique {text rest text' rest' : List Char} {type type' : TokenType}
    (h : Longest text rest) (h' : Longest text' rest') (hs : Spells text type)
    (hs' : Spells text' type') (heq : text ++ rest = text' ++ rest') :
    text = text' ∧ rest = rest' := by
  have hle : text.length ≤ text'.length := h' text type hs (heq ▸ List.prefix_append text rest)
  have hge : text'.length ≤ text.length := h text' type' hs' (heq ▸ List.prefix_append text' rest')
  exact List.append_inj heq (le_antisymm hle hge)

namespace Lexeme

variable {c : Char} {rest : List Char}

/-! #### Numbers -/

/-- A fraction is a point with the digits after it, of which there is one at least. -/
lemma fraction_cases (ts : List Char) :
    fraction ts = [] ∨ ∃ es, es ≠ [] ∧ (∀ e ∈ es, Text.isAsciiDigit e = true) ∧
      fraction ts = '.' :: es := by
  unfold fraction
  split
  · next d more =>
      split
      · next hd =>
          refine Or.inr ⟨d :: more.takeWhile Text.isAsciiDigit, by simp, fun e he => ?_, rfl⟩
          rcases List.mem_cons.mp he with rfl | he
          · exact hd
          · exact List.mem_takeWhile_imp he
      · exact Or.inl rfl
  · exact Or.inl rfl

/-- A point with digits at the front of a text is no longer than the fraction there. -/
lemma length_le_fraction {es ts : List Char} (h : '.' :: es <+: ts) (hne : es ≠ [])
    (hes : ∀ e ∈ es, Text.isAsciiDigit e = true) : es.length + 1 ≤ (fraction ts).length := by
  obtain ⟨e, es, rfl⟩ := List.exists_cons_of_ne_nil hne
  obtain ⟨more, rfl⟩ := h
  have he := hes e List.mem_cons_self
  rw [List.cons_append, List.cons_append, fraction, if_pos he, List.length_cons, List.length_cons,
    List.length_cons, Nat.add_le_add_iff_right, Nat.add_le_add_iff_right]
  exact Text.length_le_takeWhile (List.prefix_append es more)
    fun x hx => hes x (List.mem_cons_of_mem e hx)

lemma numeral_firstNumber (hc : Text.isAsciiDigit c = true) (rest : List Char) :
    Numeral (firstNumber c rest).1.text := by
  have hds : ∀ d ∈ c :: rest.takeWhile Text.isAsciiDigit, Text.isAsciiDigit d = true := by
    intro d hd
    rcases List.mem_cons.mp hd with rfl | hd
    · exact hc
    · exact List.mem_takeWhile_imp hd
  refine ⟨c :: rest.takeWhile Text.isAsciiDigit, by simp, hds, ?_⟩
  simp only [firstNumber, text]
  rcases fraction_cases (rest.dropWhile Text.isAsciiDigit) with h | ⟨es, hne, hes, h⟩
  · exact Or.inl (by rw [h, List.append_nil])
  · exact Or.inr ⟨es, hne, hes, by rw [h]⟩

lemma longest_firstNumber (hc : Text.isAsciiDigit c = true) (rest : List Char) :
    Longest (firstNumber c rest).1.text (firstNumber c rest).2 := by
  refine longest_of_cons (text_firstNumber c rest) fun us type hs hp => ?_
  rw [spells_cons_iff, if_pos hc] at hs
  obtain ⟨⟨ds, hne, hds, hus⟩, -⟩ := hs
  have hlen : (firstNumber c rest).1.text.length =
      (rest.takeWhile Text.isAsciiDigit).length + 1 +
        (fraction (rest.dropWhile Text.isAsciiDigit)).length := by
    simp only [firstNumber, text, List.length_append, List.length_cons]
  obtain ⟨d, ds, rfl⟩ := List.exists_cons_of_ne_nil hne
  have hds' : ∀ x ∈ ds, Text.isAsciiDigit x = true := fun x hx => hds x (List.mem_cons_of_mem d hx)
  rcases hus with hus | ⟨es, hes, hdigits, hus⟩
  · obtain ⟨rfl, rfl⟩ := List.cons.inj hus
    have hle := Text.length_le_takeWhile hp hds'
    omega
  · -- The text goes beyond the digits, so that they are all the digits there are.
    rw [List.cons_append] at hus
    obtain ⟨rfl, rfl⟩ := List.cons.inj hus
    obtain ⟨htake, hdrop⟩ := Text.takeWhile_eq_of_prefix hp hds' (by decide)
    have hle := length_le_fraction hdrop hes hdigits
    rw [hlen, htake, List.length_append, List.length_cons]
    omega

/-! #### Words and strings -/

lemma spells_firstWord (hc : isWordStart c = true) (rest : List Char) :
    Spells (c :: rest.takeWhile isWordPart)
      (TokenType.ofWord (String.ofList (c :: rest.takeWhile isWordPart))) :=
  (word_cons_iff.mpr ⟨hc, fun _ hx => List.mem_takeWhile_imp hx⟩).spells

lemma longest_firstWord (hc : isWordStart c = true) (rest : List Char) :
    Longest (c :: rest.takeWhile isWordPart) (rest.dropWhile isWordPart) := by
  refine longest_of_cons (by rw [List.cons_append, List.takeWhile_append_dropWhile])
    fun us type hs hp => ?_
  rw [spells_cons_iff, if_neg (isAsciiDigit_ne_true_of_isWordStart hc), if_pos hc] at hs
  exact Nat.succ_le_succ (Text.length_le_takeWhile hp hs.1)

/-- After an opening quote only a string can be spelled. -/
lemma spells_quote_iff {us : List Char} {type : TokenType} :
    Spells ('"' :: us) type ↔ (∃ body, '"' ∉ body ∧ us = body ++ ['"']) ∧ type = .string := by
  rw [spells_cons_iff, if_neg (by decide), if_neg (by decide), if_pos rfl]

/-- A string ends at the first quote after the opening one. -/
lemma longest_string {body : List Char} (hbody : '"' ∉ body) (rest : List Char) :
    Longest ('"' :: (body ++ ['"'])) rest := by
  refine longest_of_cons (List.cons_append ..) fun us type hs hp => ?_
  obtain ⟨⟨body', hbody', rfl⟩, -⟩ := spells_quote_iff.mp hs
  obtain ⟨htake, -⟩ := Text.takeWhile_eq_of_prefix hp (Text.ne_of_not_mem hbody') (by simp)
  obtain ⟨htake', -⟩ := Text.takeWhile_eq_of_prefix (List.prefix_append (body ++ ['"']) rest)
    (Text.ne_of_not_mem hbody) (by simp)
  obtain rfl : body' = body := htake.symm.trans htake'
  exact le_rfl

/-- Without a closing quote no string can be spelled. -/
lemma noSpelling_unclosed (hrest : '"' ∉ rest) : NoSpelling ('"' :: rest) := by
  refine noSpelling_of_cons fun us type hp hs => ?_
  obtain ⟨⟨body, -, rfl⟩, -⟩ := spells_quote_iff.mp hs
  exact hrest (hp.subset (by simp))

/-! #### Operators -/

/-- At a character that starts neither a number nor a word nor a string, only an operator can be
spelled. -/
lemma spells_operator_iff (hd : Text.isAsciiDigit c ≠ true) (hw : isWordStart c ≠ true)
    (hq : c ≠ '"') {us : List Char} {type : TokenType} :
    Spells (c :: us) type ↔ TokenType.ofOperator? (c :: us) = some type := by
  rw [spells_cons_iff, if_neg hd, if_neg hw, if_neg hq]

/-- An operator of two characters is the longest one. -/
lemma longest_operator_pair {d : Char} {more : List Char} (hd : Text.isAsciiDigit c ≠ true)
    (hw : isWordStart c ≠ true) (hq : c ≠ '"') : Longest [c, d] more := by
  refine longest_of_cons rfl fun us type hs _ => ?_
  rw [spells_operator_iff hd hw hq] at hs
  exact Nat.succ_le_succ (operator_cons hs).2.2.2

/-- What an operator goes on with after its first character is nothing, or the next character. -/
lemma operator_ends {us : List Char} {type : TokenType}
    (h : TokenType.ofOperator? (c :: us) = some type) (hp : us <+: rest)
    (hpair : ∀ d ∈ rest.head?, TokenType.ofOperator? [c, d] = none) : us = [] := by
  cases us with
  | nil => rfl
  | cons d us =>
      obtain ⟨more, rfl⟩ := hp
      have hlen := (operator_cons h).2.2.2
      obtain rfl : us = [] := List.length_eq_zero_iff.mp (by simpa using hlen)
      rw [hpair d rfl] at h
      cases h

/-- An operator of one character is the longest one where no operator of two starts with it. -/
lemma longest_operator_single (hd : Text.isAsciiDigit c ≠ true) (hw : isWordStart c ≠ true)
    (hq : c ≠ '"') (hpair : ∀ d ∈ rest.head?, TokenType.ofOperator? [c, d] = none) :
    Longest [c] rest := by
  refine longest_of_cons rfl fun us type hs hp => ?_
  rw [spells_operator_iff hd hw hq] at hs
  rw [operator_ends hs hp hpair]
  exact le_rfl

/-- Nothing spells a token where no operator of one or two characters stands. -/
lemma noSpelling_stray (hd : Text.isAsciiDigit c ≠ true) (hw : isWordStart c ≠ true) (hq : c ≠ '"')
    (hsingle : TokenType.ofOperator? [c] = none)
    (hpair : ∀ d ∈ rest.head?, TokenType.ofOperator? [c, d] = none) : NoSpelling (c :: rest) := by
  refine noSpelling_of_cons fun us type hp hs => ?_
  rw [spells_operator_iff hd hw hq] at hs
  obtain rfl := operator_ends hs hp hpair
  rw [hsingle] at hs
  cases hs

end Lexeme

/-! ### Texts before a blank -/

/-- A numeral has no blank in it. -/
lemma Numeral.isBlank_eq_false {text : List Char} (h : Numeral text) :
    ∀ x ∈ text, Text.isBlank x = false := by
  intro x hx
  by_contra hb
  rw [Bool.not_eq_false] at hb
  rcases h.isAsciiDigit_or_point x hx with hd | rfl
  · rw [Text.isAsciiDigit_eq_false_of_isBlank hb] at hd
    cases hd
  · exact absurd hb (by decide)

lemma isBlank_eq_false_of_isWordPart {c : Char} (h : Lexeme.isWordPart c = true) :
    Text.isBlank c = false := by
  by_contra hb
  rw [Lexeme.isWordPart, Text.isAlphaNumeric_eq_false_of_isBlank (by simpa using hb),
    Bool.false_or, decide_eq_true_eq] at h
  subst h
  exact hb (by decide)

lemma isWordPart_of_isWordStart {c : Char} (h : Lexeme.isWordStart c = true) :
    Lexeme.isWordPart c = true := by
  rw [Lexeme.isWordStart, Bool.or_eq_true] at h
  rw [Lexeme.isWordPart, Bool.or_eq_true, Text.isAlphaNumeric, Bool.or_eq_true]
  exact h.imp Or.inl id

/-- Only strings have blanks in them. -/
lemma Spells.isBlank_eq_false {c : Char} {cs : List Char} {type : TokenType}
    (h : Spells (c :: cs) type) (hq : c ≠ '"') : ∀ x ∈ c :: cs, Text.isBlank x = false := by
  have hoperators : ∀ p ∈ TokenType.operators, p.1.any Text.isBlank = false := by decide
  rw [spells_cons_iff] at h
  split at h
  · exact h.1.isBlank_eq_false
  · split at h
    · next hc =>
        intro x hx
        rcases List.mem_cons.mp hx with rfl | hx
        · exact isBlank_eq_false_of_isWordPart (isWordPart_of_isWordStart hc)
        · exact isBlank_eq_false_of_isWordPart (h.1 x hx)
    · intro x hx
      rw [← Bool.not_eq_true]
      exact List.any_eq_false.mp (hoperators _ (TokenType.mem_operators h)) x hx

/-- No text that spells a token starts with a blank. -/
lemma Spells.isBlank_head {c : Char} {cs : List Char} {type : TokenType}
    (h : Spells (c :: cs) type) : Text.isBlank c = false := by
  by_cases hq : c = '"'
  · rw [hq]
    decide
  · exact h.isBlank_eq_false hq c List.mem_cons_self

/-- Before a blank and at the end a text that spells a token is the longest one: a longer text has
the blank in it, so that it is a string, and the shorter one ends with the quote that closes it. -/
lemma Spells.longest {text rest : List Char} {type : TokenType} (h : Spells text type)
    (hrest : ∀ b ∈ rest.head?, Text.isBlank b = true) : Longest text rest := by
  obtain ⟨c, cs, rfl⟩ := List.exists_cons_of_ne_nil h.ne_nil
  by_cases hq : c = '"'
  · subst hq
    obtain ⟨⟨body, hbody, rfl⟩, -⟩ := Lexeme.spells_quote_iff.mp h
    exact Lexeme.longest_string hbody rest
  · intro longer type' hs hp
    by_contra hlt
    obtain ⟨more, rfl⟩ : c :: cs <+: longer :=
      List.prefix_of_prefix_length_le (List.prefix_append _ rest) hp (by omega)
    rw [List.prefix_append_right_inj] at hp
    cases more with
    | nil => exact hlt (by simp)
    | cons b more =>
        obtain ⟨rest, rfl⟩ := hp
        have hb := hs.isBlank_eq_false hq b (by simp)
        rw [hrest b rfl] at hb
        cases hb

end ExprFront
