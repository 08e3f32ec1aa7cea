import ExprFront.Proofs.Source.MaximalMunch
import ExprFront.Source.Scanner

/-!
Scanning character by character finds the segments of the text.

In a state before a given text (`Scanner.Before`) each method moves behind a piece of that text
(`ScanState.behind`) and gives what the piece is: a loop over a class of characters takes all of
them in a row (`sweepAll_follows`), `next` takes the first lexeme (`next_follows`), `skip` all
blanks and comments (`skip_follows`), and the loop over tokens all that is read from front to back
(`turns_follows`). So every call does what the session on the text does (`call_follows`), no loop
runs out of steps, and a scan finds what is read by maximal munch (`scan_munches`).
-/

namespace ExprFront

/-! ### Texts -/

/-- The null character belongs to no operator. -/
lemma ofOperator?_null (c : Char) : TokenType.ofOperator? [c, '\x00'] = none := by
  have hall : ∀ p ∈ TokenType.operators, '\x00' ∉ p.1 := by decide
  rw [Option.eq_none_iff_forall_ne_some]
  exact fun type ht => hall _ (TokenType.mem_operators ht) (by simp)

/-- A slash that starts no comment has no slash after it. -/
lemma Solid.getD_ne {rest : List Char} (h : Solid ('/' :: rest)) : rest.getD 0 '\x00' ≠ '/' := by
  cases rest with
  | nil => decide
  | cons d rest =>
      rintro rfl
      exact h.2 (List.prefix_append ['/', '/'] rest)

/-- The blanks and comments at the front of a text are its first segments. -/
lemma Trivia.segments_text {run rest : List Char} (ht : Trivia run rest) (hsolid : Solid rest) :
    ((Segment.ofText (run ++ rest)).takeWhile Segment.isTrivia).flatMap Segment.text = run := by
  induction ht with
  | @nil rest =>
      cases rest with
      | nil => rfl
      | cons c rest =>
          rw [List.nil_append, Segment.ofText_cons, Segment.first_solid hsolid]
          rfl
  | @blank c run rest hc _ ih =>
      rw [List.cons_append, Segment.ofText_cons, Segment.first, if_pos hc]
      exact congrArg (c :: ·) (ih hsolid)
  | @comment body run rest hbody hend _ ih =>
      rw [List.cons_append, List.cons_append, Segment.ofText_cons, List.append_assoc,
        Segment.first_comment hbody hend]
      exact congrArg ('/' :: '/' :: body ++ ·) (ih hsolid)

/-- Every text starts with blanks and comments in a row, perhaps none. -/
lemma exists_trivia (source : List Char) :
    ∃ run rest, source = run ++ rest ∧ Trivia run rest ∧ Solid rest := by
  obtain ⟨results, ht⟩ : ∃ results, Tokenizes 1 source results := ⟨_, tokenizes_outcomes 1 source⟩
  cases ht with
  | done h => exact ⟨source, [], (List.append_nil _).symm, h, by simp, by simp⟩
  | next h hsolid _ _ hsource => exact ⟨_, _, hsource, h, hsolid⟩

/-- The line of the end of a text. -/
lemma endLine_ofSegments (line : ℕ) (ss : List Segment) :
    (Scan.ofSegments line ss).endLine = line + lineBreaks (ss.flatMap Segment.text) := by
  induction ss generalizing line with
  | nil => rfl
  | cons s ss ih =>
      rw [List.flatMap_cons, lineBreaks_append, ← Nat.add_assoc, ← ih]
      cases s with
      | blank c => rfl
      | comment body => rfl
      | lexeme l =>
          rw [Scan.ofSegments]
          cases l.toToken line <;> rfl

/-! ### Before and behind a text -/

/-- The state behind a piece of text. -/
def ScanState.behind (h : ScanState) (text : List Char) : ScanState :=
  { h with position := h.position + text.length, line := h.line + lineBreaks text }

/-- How a method ends that reads a given lexeme: with its token or its error, and behind its text in
either case. -/
def ScanState.reading (h : ScanState) (l : Lexeme) : Except ScanBreak Token × ScanState :=
  ((l.toToken h.line).mapError .lexical, h.behind l.text)

/-- The state with its position marked as the start of a lexeme. -/
def ScanState.marked (h : ScanState) : ScanState := { h with start := h.position }

/-- The state with the tokens and errors that were read since, the last one from a given place
on. -/
def ScanState.noting (h : ScanState) (start : ℕ) (results : List (Except LexicalError Token)) :
    ScanState :=
  { h with
    start := start
    tokens := h.tokens ++ results.filterMap Except.toOption
    errors := h.errors ++ results.filterMap rejected? }

lemma ScanState.behind_nil (h : ScanState) : h.behind [] = h := rfl

lemma ScanState.behind_behind (h : ScanState) (us vs : List Char) :
    (h.behind us).behind vs = h.behind (us ++ vs) := by
  simp [ScanState.behind, lineBreaks_append, Nat.add_assoc]

lemma ScanState.noting_nil (h : ScanState) : h.noting h.start [] = h := by
  simp [ScanState.noting]

lemma ScanState.noting_ok (h : ScanState) (start : ℕ) (t : Token) :
    h.noting start [.ok t] = { h with start := start, tokens := h.tokens ++ [t] } := by
  rw [ScanState.noting]
  exact congrArg (ScanState.mk start _ _ _) (List.append_nil _)

lemma ScanState.noting_error (h : ScanState) (start : ℕ) (e : LexicalError) :
    h.noting start [.error e] = { h with start := start, errors := h.errors ++ [e] } := by
  rw [ScanState.noting]
  exact congrArg (ScanState.mk start _ _ · _) (List.append_nil _)

lemma ScanState.noting_behind_noting (h : ScanState) (start start' : ℕ) (text : List Char)
    (results results' : List (Except LexicalError Token)) :
    ((h.noting start results).behind text).noting start' results' =
      (h.behind text).noting start' (results ++ results') := by
  simp [ScanState.noting, ScanState.behind]

namespace Scanner

variable {s : Scanner} {h : ScanState} {c : Char} {run text rest : List Char} {p : Char → Bool}

open Method

/-- A state with a given text from its position on. -/
def Before (s : Scanner) (h : ScanState) (rest : List Char) : Prop :=
  s.source.drop h.position = rest

lemma Before.behind (hb : s.Before h (text ++ rest)) : s.Before (h.behind text) rest := by
  have hdrop := congrArg (List.drop text.length) hb
  rwa [List.drop_drop, List.drop_left] at hdrop

lemma Before.takeWhile (hb : s.Before h rest) (p : Char → Bool) :
    s.Before (h.behind (rest.takeWhile p)) (rest.dropWhile p) :=
  Before.behind (by rwa [List.takeWhile_append_dropWhile])

lemma Before.length_le (hb : s.Before h rest) : rest.length ≤ s.source.length := by
  rw [← hb, List.length_drop]
  exact Nat.sub_le _ _

/-! ### Characters -/

lemma atEnd_eq (hb : s.Before h rest) : s.atEnd h = (.ok rest.isEmpty, h) := by
  have hiff : s.source.length ≤ h.position ↔ rest.isEmpty = true := by
    rw [← hb, List.isEmpty_iff, List.drop_eq_nil_iff]
  rw [atEnd]
  cases he : rest.isEmpty with
  | true => rw [decide_eq_true (hiff.mpr he)]
  | false => rw [decide_eq_false fun hle => absurd (hiff.mp hle) (by simp [he])]

lemma getElem?_position (hb : s.Before h rest) : s.source[h.position]? = rest.head? := by
  rw [← hb, List.head?_drop]

lemma current_cons (hb : s.Before h (c :: rest)) : s.current h = (.ok c, h) :=
  need_of_some (getElem?_position hb)

/-- A look ahead sees the text, and the null character behind it. -/
lemma peek_eq (hb : s.Before h rest) (n : ℕ) : s.peek n h = (.ok (rest.getD n '\x00'), h) := by
  refine need_of_some ?_
  have hget : rest[n]? = s.source[h.position + n]? := by rw [← hb, List.getElem?_drop]
  rw [List.getD_eq_getElem?_getD, hget, ScanSession.look]
  change (if (s.source.length : ℤ) ≤ (h.position + n : ℕ) then _ else
    if 0 ≤ ((h.position + n : ℕ) : ℤ) then s.source[((h.position + n : ℕ) : ℤ).toNat]? else _) = _
  rw [if_pos (Int.natCast_nonneg _), Int.toNat_natCast]
  split
  · rw [List.getElem?_eq_none (by omega), Option.getD_none]
  · rw [List.getElem?_eq_getElem (by omega), Option.getD_some]

/-- The character that comes next, or the null character. -/
lemma peek_zero (hb : s.Before h rest) : s.peek 0 h = (.ok (rest.getD 0 '\x00'), h) := peek_eq hb 0

/-- The character after the one that comes next, or the null character. -/
lemma peek_one (hb : s.Before h (c :: rest)) : s.peek 1 h = (.ok (rest.getD 0 '\x00'), h) :=
  peek_eq hb 1

lemma advance_cons (hb : s.Before h (c :: rest)) : s.advance h = (.ok c, h.behind [c]) := by
  rw [advance, bind_of_ok (current_cons hb)]
  have hline : h.line + lineBreaks [c] = if c = '\n' then h.line + 1 else h.line := by
    rw [lineBreaks, List.count_singleton]
    split <;> simp_all
  rw [ScanState.behind, hline]
  rfl

lemma advance_nil (hb : s.Before h []) : s.advance h = (.error .outOfText, h) :=
  bind_of_error (need_of_none (getElem?_position hb))

/-! ### Loops over a class -/

/-- The question is whether a character of a class comes next. -/
def Asks (s : Scanner) (question : Scanning Bool) (p : Char → Bool) : Prop :=
  ∀ {h rest}, s.Before h rest → question h = (.ok (rest.head?.any p), h)

/-- The null character behind the text belongs to no class that is asked for in this way. -/
lemma nextIs_asks (hp : p '\x00' = false) : s.Asks (s.nextIs p) p := by
  intro h rest hb
  rw [nextIs, map_of_ok (peek_zero hb)]
  cases rest with
  | nil =>
      rw [List.getD_nil, hp]
      rfl
  | cons c rest => rfl

lemma insideString_asks : s.Asks s.insideString (· ≠ '"') := by
  intro h rest hb
  rw [insideString, bind_of_ok (peek_zero hb)]
  cases rest with
  | nil =>
      rw [if_pos (by decide), bind_of_ok (atEnd_eq hb)]
      rfl
  | cons c rest =>
      rw [List.getD_cons_zero]
      by_cases hc : c = '"'
      · rw [if_neg (not_not_intro hc), List.head?_cons, Option.any_some, hc]
        rfl
      · rw [if_pos hc, bind_of_ok (atEnd_eq hb), List.head?_cons, Option.any_some,
          decide_eq_true hc]
        rfl

lemma insideLine_asks : s.Asks s.insideLine (· ≠ '\n') := by
  intro h rest hb
  rw [insideLine, bind_of_ok (atEnd_eq hb)]
  cases rest with
  | nil => rfl
  | cons c rest =>
      rw [if_neg (by simp), bind_of_ok (current_cons hb)]
      rfl

/-- A loop over a class takes the characters of the class that stand in a row. -/
lemma sweep_follows {question : Scanning Bool} (hq : s.Asks question p) :
    ∀ {steps : ℕ} {h rest}, s.Before h rest → rest.length < steps →
      s.sweep question steps h = (.ok (), h.behind (rest.takeWhile p)) := by
  intro steps
  induction steps with
  | zero => exact fun _ hlt => absurd hlt (Nat.not_lt_zero _)
  | succ steps ih =>
      intro h rest hb hlt
      rw [sweep, bind_of_ok (hq hb)]
      cases rest with
      | nil => rfl
      | cons c rest =>
          rw [List.length_cons] at hlt
          cases hc : p c with
          | false =>
              rw [if_neg (by simpa using hc), List.takeWhile_cons_of_neg (by simpa using hc)]
              rfl
          | true =>
              have hrest : s.Before (h.behind [c]) rest := hb.behind
              rw [if_pos (by simpa using hc), bind_of_ok (advance_cons hb), ih hrest (by omega),
                ScanState.behind_behind, List.takeWhile_cons_of_pos hc]
              rfl

lemma sweepAll_follows {question : Scanning Bool} (hq : s.Asks question p) (hb : s.Before h rest) :
    s.sweepAll question h = (.ok (), h.behind (rest.takeWhile p)) :=
  sweep_follows hq hb (Nat.lt_succ_of_le hb.length_le)

/-! ### Lexemes -/

/-- What was read since the start of the lexeme. -/
lemma lexeme_behind (hs : h.start = h.position) (hb : s.Before h (text ++ rest)) :
    s.lexeme (h.behind text) = (.ok text, h.behind text) := by
  have hcut : (s.source.take (h.position + text.length)).drop h.start = text := by
    rw [hs, List.drop_take, hb, Nat.add_sub_cancel_left, List.take_left]
  rw [lexeme]
  exact congrArg (fun us => (Except.ok us, h.behind text)) hcut

lemma decimals_follows (hb : s.Before h rest) :
    s.decimals h = (.ok (), h.behind (Lexeme.fraction rest)) := by
  rw [decimals, bind_of_ok (peek_zero hb)]
  cases rest with
  | nil => rfl
  | cons c rest =>
      rw [List.getD_cons_zero]
      by_cases hc : c = '.'
      · subst hc
        rw [if_pos rfl, bind_of_ok (peek_one hb)]
        cases rest with
        | nil => rfl
        | cons d rest =>
            have hrest : s.Before (h.behind ['.']) (d :: rest) := hb.behind
            rw [List.getD_cons_zero]
            by_cases hd : Text.isAsciiDigit d = true
            · rw [if_pos hd, bind_of_ok (advance_cons hb),
                sweepAll_follows (nextIs_asks (by decide)) hrest, ScanState.behind_behind,
                Lexeme.fraction, if_pos hd, List.takeWhile_cons_of_pos hd]
              rfl
            · rw [if_neg hd, Lexeme.fraction, if_neg hd]
              rfl
      · have hfraction : Lexeme.fraction (c :: rest) = [] := by
          rw [Lexeme.fraction]
          rintro d more ⟨⟩
          exact hc rfl
        rw [if_neg hc, hfraction]
        rfl

section Lexemes

variable (hs : h.start = h.position)

include hs

lemma number_follows (hb : s.Before h (c :: rest)) :
    s.number h.line (h.behind [c]) = h.reading (Lexeme.firstNumber c rest).1 := by
  have hrest : s.Before (h.behind [c]) rest := hb.behind
  have hdigits := hrest.takeWhile Text.isAsciiDigit
  rw [number, bind_of_ok (sweepAll_follows (nextIs_asks (by decide)) hrest),
    bind_of_ok (decimals_follows hdigits), ScanState.behind_behind, ScanState.behind_behind]
  rw [← Lexeme.text_firstNumber c rest] at hb
  exact bind_of_ok (lexeme_behind hs hb)

lemma word_follows (hb : s.Before h (c :: rest)) :
    s.word h.line (h.behind [c]) = h.reading (.word (c :: rest.takeWhile Lexeme.isWordPart)) := by
  have hrest : s.Before (h.behind [c]) rest := hb.behind
  rw [word, bind_of_ok (sweepAll_follows (nextIs_asks (by decide)) hrest), ScanState.behind_behind]
  rw [← List.takeWhile_append_dropWhile (p := Lexeme.isWordPart) (l := rest),
    ← List.cons_append] at hb
  exact bind_of_ok (lexeme_behind hs hb)

/-- A string without its closing quote is broken off at the end of the text. -/
lemma string_follows (hb : s.Before h ('"' :: rest)) :
    s.string h.line (h.behind ['"']) = h.reading (Lexeme.firstString rest).1 := by
  have hrest : s.Before (h.behind ['"']) rest := hb.behind
  have hafter := hrest.takeWhile (· ≠ '"')
  rw [string, bind_of_ok (sweepAll_follows insideString_asks hrest), bind_of_ok (atEnd_eq hafter)]
  rcases Lexeme.firstString_cases rest with ⟨hfirst, hbody⟩ | ⟨body, more, hfirst, heq, hbody⟩
  · have hne := Text.ne_of_not_mem hbody
    rw [hfirst, List.takeWhile_eq_self_iff.mpr hne, List.dropWhile_eq_nil_iff.mpr hne,
      ScanState.behind_behind]
    rfl
  · have hne := Text.ne_of_not_mem hbody
    subst heq
    rw [List.dropWhile_append_of_pos hne, List.dropWhile_cons_of_neg (by simp),
      List.takeWhile_append_of_pos hne, List.takeWhile_cons_of_neg (by simp), List.append_nil]
      at hafter ⊢
    rw [if_neg (by simp), bind_of_ok (advance_cons hafter), hfirst, ScanState.behind_behind,
      ScanState.behind_behind]
    have htext : s.Before h ((Lexeme.string body).text ++ more) := by simpa [Lexeme.text] using hb
    have hcut : ((Lexeme.string body).text.drop 1).dropLast = body := by simp [Lexeme.text]
    refine (bind_of_ok (lexeme_behind hs htext)).trans ?_
    dsimp only
    rw [hcut]
    rfl

end Lexemes

lemma operator_follows (hb : s.Before h (c :: rest)) :
    s.operator c h.line (h.behind [c]) = h.reading (Lexeme.firstOperator c rest).1 := by
  have hrest : s.Before (h.behind [c]) rest := hb.behind
  rw [operator, bind_of_ok (peek_zero hrest)]
  rcases Lexeme.firstOperator_cases c rest with
    ⟨d, more, type, rfl, ht, hfirst⟩ | ⟨hpair, hmark⟩
  · rw [List.getD_cons_zero, ht]
    dsimp only
    rw [bind_of_ok (advance_cons hrest), hfirst, ScanState.behind_behind]
    rfl
  · have hnone : TokenType.ofOperator? [c, rest.getD 0 '\x00'] = none := by
      cases rest with
      | nil => exact ofOperator?_null c
      | cons d rest => exact hpair d rfl
    rw [hnone]
    dsimp only
    rcases hmark with ⟨type, ht, hfirst⟩ | ⟨ht, hfirst⟩
    · rw [ht, hfirst]
      rfl
    · rw [ht, hfirst]
      rfl

lemma next_nil (hb : s.Before h []) : s.next h = (.error .outOfText, h) := by
  have hstate : (state : Scanning ScanState) h = (.ok h, h) := rfl
  rw [next, bind_of_ok hstate, bind_of_error (advance_nil hb)]

/-- The next lexeme is the first one of the text. Its line is that of its first character. -/
lemma next_follows (hb : s.Before h (c :: rest)) :
    s.next h.marked = h.marked.reading (Lexeme.first c rest).1 := by
  have hs : h.marked.start = h.marked.position := rfl
  have hstate : (state : Scanning ScanState) h.marked = (.ok h.marked, h.marked) := rfl
  replace hb : s.Before h.marked (c :: rest) := hb
  rw [next, bind_of_ok hstate, bind_of_ok (advance_cons hb), Lexeme.first]
  by_cases hd : Text.isAsciiDigit c = true
  · rw [if_pos hd, if_pos hd]
    exact number_follows hs hb
  · rw [if_neg hd, if_neg hd]
    by_cases hw : Lexeme.isWordStart c = true
    · rw [if_pos hw, if_pos hw]
      exact word_follows hs hb
    · rw [if_neg hw, if_neg hw]
      by_cases hq : c = '"'
      · subst hq
        exact string_follows hs hb
      · rw [if_neg hq, if_neg hq]
        exact operator_follows hb

/-! ### Blanks and comments -/

/-- All blanks and comments in a row are skipped, and nothing behind them. -/
lemma skip_follows (ht : Trivia run rest) (hsolid : Solid rest) :
    ∀ {steps : ℕ} {h}, s.Before h (run ++ rest) → (run ++ rest).length < steps →
      s.skip steps h = (.ok (), h.behind run) := by
  induction ht with
  | @nil rest =>
      intro steps h hb hlt
      obtain ⟨steps, rfl⟩ := Nat.exists_eq_succ_of_ne_zero (n := steps) (by omega)
      rw [List.nil_append] at hb
      rw [skip, bind_of_ok (atEnd_eq hb)]
      cases rest with
      | nil => rfl
      | cons c rest =>
          have hc : Text.isBlank c = false := hsolid.1 c rfl
          rw [if_neg (by simp), bind_of_ok (current_cons hb), if_neg (by simp [hc])]
          by_cases hslash : c = '/'
          · subst hslash
            rw [if_pos rfl, bind_of_ok (peek_one hb), if_neg hsolid.getD_ne]
            rfl
          · rw [if_neg hslash]
            rfl
  | @blank c run rest hc _ ih =>
      intro steps h hb hlt
      obtain ⟨steps, rfl⟩ := Nat.exists_eq_succ_of_ne_zero (n := steps) (by omega)
      rw [List.cons_append] at hb hlt
      rw [List.length_cons] at hlt
      have hafter : s.Before (h.behind [c]) (run ++ rest) := hb.behind
      rw [skip, bind_of_ok (atEnd_eq hb), if_neg (by simp), bind_of_ok (current_cons hb), if_pos hc,
        bind_of_ok (advance_cons hb), ih hsolid hafter (by omega), ScanState.behind_behind]
      rfl
  | @comment body run rest hbody hend _ ih =>
      intro steps h hb hlt
      obtain ⟨steps, rfl⟩ := Nat.exists_eq_succ_of_ne_zero (n := steps) (by omega)
      have hsplit : '/' :: '/' :: (body ++ run) ++ rest =
          '/' :: '/' :: body ++ (run ++ rest) := by simp
      have hne : ∀ u ∈ '/' :: '/' :: body, decide (u ≠ '\n') = true :=
        Text.ne_of_not_mem (by simp [hbody])
      have htake : ('/' :: '/' :: body ++ (run ++ rest)).takeWhile (· ≠ '\n') =
          '/' :: '/' :: body := by
        rw [List.takeWhile_append_of_pos hne]
        rcases hend with hnil | ⟨more, hmore⟩
        · rw [hnil, List.takeWhile_nil, List.append_nil]
        · rw [hmore, List.takeWhile_cons_of_neg (by simp), List.append_nil]
      -- the comment is swept up to the end of its line, where the rest of the row starts
      rw [hsplit] at hb hlt
      have hsweep := sweepAll_follows insideLine_asks hb
      rw [htake] at hsweep
      have hafter : s.Before (h.behind ('/' :: '/' :: body)) (run ++ rest) := hb.behind
      simp only [List.length_append, List.length_cons] at hlt
      rw [List.cons_append, List.cons_append] at hb
      rw [skip, bind_of_ok (atEnd_eq hb), if_neg (by simp), bind_of_ok (current_cons hb),
        if_neg (by decide), if_pos rfl, bind_of_ok (peek_one hb), List.getD_cons_zero, if_pos rfl,
        bind_of_ok hsweep, ih hsolid hafter (by rw [List.length_append]; omega),
        ScanState.behind_behind]
      rfl

lemma skipAll_follows (ht : Trivia run rest) (hsolid : Solid rest)
    (hb : s.Before h (run ++ rest)) : s.skipAll h = (.ok (), h.behind run) :=
  skip_follows ht hsolid hb (Nat.lt_succ_of_le hb.length_le)

/-! ### Complete scans -/

lemma mark_eq (h : ScanState) : mark h = (.ok (), h.marked) := rfl

/-- A turn skips blanks and comments, and reads what comes behind them. -/
lemma turn_follows {result : Except LexicalError Token} (ht : Trivia run (text ++ rest))
    (hsolid : Solid (text ++ rest)) (hm : Munch (h.line + lineBreaks run) text rest result)
    (hb : s.Before h (run ++ (text ++ rest))) :
    s.turn h =
      (.ok true, (h.behind (run ++ text)).noting (h.position + run.length) [result]) := by
  obtain ⟨c, cs, rfl⟩ := List.exists_cons_of_ne_nil hm.ne_nil
  have hskip := skipAll_follows ht hsolid hb
  have hlexeme : s.Before (h.behind run) (c :: (cs ++ rest)) := hb.behind
  obtain ⟨htext, -, hresult⟩ := hm.unique (Lexeme.first_munch _ c (cs ++ rest))
    (Lexeme.text_first c (cs ++ rest)).symm
  have hnext : s.next ((h.behind run).marked) =
      (result.mapError .lexical, (h.behind run).marked.behind (c :: cs)) := by
    rw [next_follows hlexeme, ScanState.reading, ← htext, hresult]
    rfl
  have hmore : s.more h = (s.next >>= fun t => do
      Method.change fun h => { h with tokens := h.tokens ++ [t] }
      return true) (h.behind run).marked := by
    rw [more, bind_of_ok hskip, bind_of_ok (atEnd_eq hlexeme), if_neg (by simp),
      bind_of_ok (mark_eq _)]
  rw [← ScanState.behind_behind]
  cases result with
  | ok t =>
      rw [bind_of_ok hnext] at hmore
      rw [turn, hmore, ScanState.noting_ok]
      rfl
  | error e =>
      rw [bind_of_error hnext] at hmore
      rw [turn, hmore, ScanState.noting_error]
      rfl

/-- The loop over tokens reads the text from front to back. -/
lemma turns_follows {line : ℕ} {source : List Char} {results : List (Except LexicalError Token)}
    (ht : Tokenizes line source results) :
    ∀ {steps : ℕ} {h}, h.line = line → s.Before h source → source.length < steps →
      ∃ start, s.turns steps h = (.ok (), (h.behind source).noting start results) := by
  induction ht with
  | @done line run ht =>
      intro steps h _ hb hlt
      obtain ⟨steps, rfl⟩ := Nat.exists_eq_succ_of_ne_zero (n := steps) (by omega)
      refine ⟨h.start, ?_⟩
      rw [turns, bind_of_ok (atEnd_eq hb)]
      cases run with
      | nil =>
          rw [ScanState.behind_nil, ScanState.noting_nil]
          rfl
      | cons c run =>
          rw [← List.append_nil (c :: run)] at hb
          have hskip := skipAll_follows ht ⟨by simp, by simp⟩ hb
          have hmore : s.more h = (.ok false, h.behind (c :: run)) := by
            rw [more, bind_of_ok hskip, bind_of_ok (atEnd_eq hb.behind), if_pos List.isEmpty_nil]
            rfl
          have hturn : s.turn h = (.ok false, h.behind (c :: run)) := by rw [turn, hmore]
          rw [if_neg (by simp), bind_of_ok hturn, if_neg Bool.false_ne_true]
          exact congrArg (Prod.mk _) (ScanState.noting_nil (h.behind (c :: run))).symm
  | @next line run text rest source result results ht hsolid hm _ hsource ih =>
      rintro steps h rfl hb hlt
      subst hsource
      obtain ⟨steps, rfl⟩ := Nat.exists_eq_succ_of_ne_zero (n := steps) (by omega)
      have hpos : 0 < text.length := List.length_pos_iff.mpr hm.ne_nil
      simp only [List.length_append] at hlt
      have hafter : s.Before (h.behind (run ++ text)) rest :=
        Before.behind (by rwa [List.append_assoc])
      have hline : (h.behind (run ++ text)).line = h.line + lineBreaks run + lineBreaks text := by
        rw [ScanState.behind, lineBreaks_append, Nat.add_assoc]
      -- the loop goes on from the state behind the turn, which is before the rest of the text
      obtain ⟨start, hrest⟩ : ∃ start, s.turns steps
          ((h.behind (run ++ text)).noting (h.position + run.length) [result]) =
            (.ok (), (((h.behind (run ++ text)).noting (h.position + run.length) [result]).behind
              rest).noting start results) := ih hline hafter (by omega)
      refine ⟨start, ?_⟩
      have hopen : (run ++ (text ++ rest)).isEmpty = false := by
        rw [List.isEmpty_eq_false_iff]
        simp [hm.ne_nil]
      rw [turns, bind_of_ok (atEnd_eq hb), hopen, if_neg Bool.false_ne_true,
        bind_of_ok (turn_follows ht hsolid hm hb), if_pos rfl, hrest,
        ScanState.noting_behind_noting, ScanState.behind_behind, List.append_assoc]
      rfl

/-- A scan finds the tokens and the errors of the text, and ends behind it. -/
lemma scan_follows (h : ScanState) :
    ∃ start, s.scan h = (.ok (Scan.ofText s.source).tokens,
      { start := start
        position := s.source.length
        line := 1 + lineBreaks s.source
        tokens := (Scan.ofText s.source).tokens
        errors := (Scan.ofText s.source).errors }) := by
  have hfront : s.Before {} s.source := List.drop_zero
  obtain ⟨start, hturns⟩ := turns_follows (tokenizes_outcomes 1 s.source) rfl hfront
    (Nat.lt_succ_self _)
  obtain ⟨hbody, herrors⟩ := ofSegments_eq_outcomes 1 (Segment.ofText s.source)
  refine ⟨start, ?_⟩
  have hclear : (Method.change fun _ => {} : Scanning Unit) h = (.ok (), {}) := rfl
  have hline : 1 + lineBreaks s.source = (Scan.ofText s.source).endLine := by
    rw [Scan.ofText, endLine_ofSegments, (Segment.ofText_spec s.source).1]
  have htokens : (Segment.outcomes 1 (Segment.ofText s.source)).filterMap Except.toOption ++
      [endOfInput (1 + lineBreaks s.source)] = (Scan.ofText s.source).tokens := by
    rw [Scan.tokens, ← hline, Scan.ofText, hbody]
  rw [scan, bind_of_ok hclear, bind_of_ok hturns, ← htokens, Scan.ofText, herrors]
  simp only [ScanState.noting, ScanState.behind, List.nil_append, Nat.zero_add]
  rfl

/-- A scan finds tokens and errors, whatever the scanner has done before. -/
def Finds (s : Scanner) (tokens : List Token) (errors : List LexicalError) : Prop :=
  ∀ h, ∃ h', s.scan h = (.ok tokens, h') ∧ h'.errors = errors

lemma scan_finds (s : Scanner) :
    s.Finds (Scan.ofText s.source).tokens (Scan.ofText s.source).errors := by
  intro h
  obtain ⟨start, hscan⟩ := scan_follows (s := s) h
  exact ⟨_, hscan, rfl⟩

/-! ### Calls -/

/-- How a call ends, by the answer of the session. -/
def reply : ScanSession.Answer → Except ScanBreak ScanSession.Answer
  | .lexicalError e => .error (.lexical e)
  | .outOfText => .error .outOfText
  | a => .ok a

/-- A call gives what the step of the session gives, and leaves the state that the step leaves. -/
theorem call_follows (step : ScanSession.Step) (h : ScanState) :
    (s.call step h).1 = reply ((s.session h).step step).1 ∧
      s.session (s.call step h).2 = ((s.session h).step step).2 := by
  have hb : s.Before h (s.session h).rest := rfl
  cases step with
  | scan =>
      obtain ⟨start, hscan⟩ := scan_follows (s := s) h
      rw [call, map_of_ok hscan]
      exact ⟨rfl, rfl⟩
  | next =>
      rw [call, bind_of_ok (mark_eq h), ScanSession.step]
      cases hrest : (s.session h).rest with
      | nil =>
          rw [hrest] at hb
          rw [map_of_error (next_nil (h := h.marked) hb)]
          exact ⟨rfl, rfl⟩
      | cons c rest =>
          rw [hrest] at hb
          have hnext := next_follows hb
          rw [ScanState.reading] at hnext
          dsimp only
          cases hl : (Lexeme.first c rest).1.toToken (s.session h).line with
          | ok t =>
              rw [show (Lexeme.first c rest).1.toToken h.marked.line = .ok t from hl] at hnext
              rw [map_of_ok hnext]
              exact ⟨rfl, rfl⟩
          | error e =>
              rw [show (Lexeme.first c rest).1.toToken h.marked.line = .error e from hl] at hnext
              rw [map_of_error hnext]
              exact ⟨rfl, rfl⟩
  | skip =>
      obtain ⟨run, rest, hsource, ht, hsolid⟩ := exists_trivia (s.session h).rest
      rw [hsource] at hb
      rw [call, map_of_ok (skipAll_follows ht hsolid hb), ScanSession.step, ScanSession.trivia,
        hsource, ht.segments_text hsolid]
      exact ⟨rfl, rfl⟩
  | advance =>
      rw [call, ScanSession.step]
      cases hrest : (s.session h).rest with
      | nil =>
          rw [hrest] at hb
          rw [map_of_error (advance_nil hb)]
          exact ⟨rfl, rfl⟩
      | cons c rest =>
          rw [hrest] at hb
          rw [map_of_ok (advance_cons hb)]
          exact ⟨rfl, rfl⟩
  | look offset =>
      rw [call, ScanSession.step]
      cases hlook : (s.session h).look offset with
      | none =>
          have hpeek : s.peek offset h = (.error .outOfText, h) := need_of_none hlook
          rw [map_of_error hpeek]
          exact ⟨rfl, rfl⟩
      | some c =>
          have hpeek : s.peek offset h = (.ok c, h) := need_of_some hlook
          rw [map_of_ok hpeek]
          exact ⟨rfl, rfl⟩
  | atEnd =>
      rw [call, map_of_ok (atEnd_eq hb)]
      exact ⟨rfl, rfl⟩
  | hasErrors => exact ⟨rfl, rfl⟩

end Scanner

/-! ### Maximal munch -/

/-- **Maximal munch**: there is one way to read a source text by skipping all blanks and comments
and taking the longest text that spells a token, with its type and its payload, or an error where
nothing spells one. The tokens that a scanner finds before the end of the input are those that are
read, in order, and so are the errors; the code of an error tells an open quote, after which nothing
is read any more, from a character that is passed over. -/
theorem scan_munches (source : List Char) :
    Scanner.Finds ⟨source⟩ (Scan.ofText source).tokens (Scan.ofText source).errors ∧
    ∃ results, (∀ others, Tokenizes 1 source others ↔ others = results) ∧
      (Scan.ofText source).tokens =
        results.filterMap Except.toOption ++ [endOfInput (Scan.ofText source).endLine] ∧
      (Scan.ofText source).errors = results.filterMap rejected? ∧
      ∀ e ∈ (Scan.ofText source).errors, ∀ filename,
        (e.fault = .unclosedString ∧ (e.diagnostic filename).code = some "L002") ∨
          ∃ c, e.fault = .stray c ∧ (e.diagnostic filename).code = some "L001" := by
  obtain ⟨hbody, herrors⟩ := ofSegments_eq_outcomes 1 (Segment.ofText source)
  refine ⟨Scanner.scan_finds ⟨source⟩, Segment.outcomes 1 (Segment.ofText source),
    fun others => ⟨fun h => h.unique, ?_⟩, ?_, herrors, ?_⟩
  · rintro rfl
    exact tokenizes_outcomes 1 source
  · rw [← hbody]
    rfl
  · rintro ⟨fault, line⟩ - filename
    cases fault with
    | stray c => exact Or.inr ⟨c, rfl, rfl⟩
    | unclosedString => exact Or.inl ⟨rfl, rfl⟩

/-- A second point belongs to no number, nor does a last one. -/
example : (Scan.ofText "1.2.3.".toList).body.map (·.lexeme) = ["1.2", ".", "3", "."] := rfl

end ExprFront
