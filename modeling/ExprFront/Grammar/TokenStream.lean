import ExprFront.Value

/-!
Token streams: lists of tokens with an end of the input. The tokens before the first such token are
the body of the stream. What comes after it is kept, but nothing reads it except a look back from
the front, which goes round to the last token.
-/

namespace ExprFront

/-- A list of tokens, taken apart at its first end of the input. -/
structure TokenStream where
  body : List Token
  eof : Token
  after : List Token
  body_not_eof : ∀ t ∈ body, t.isEof = false
  eof_isEof : eof.isEof = true

namespace TokenStream

/-- A stream with one more token at the front. -/
def cons (t : Token) (h : ¬t.isEof = true) (s : TokenStream) : TokenStream :=
  { s with
    body := t :: s.body
    body_not_eof := by
      intro u hu
      rcases List.mem_cons.1 hu with rfl | hu
      · simpa using h
      · exact s.body_not_eof u hu }

/-- Takes a list of tokens apart, if it has an end of the input. -/
def ofList? : List Token → Option TokenStream
  | [] => none
  | t :: ts =>
    if h : t.isEof = true then some ⟨[], t, ts, by simp, h⟩ else (ofList? ts).map (cons t h)

/-- A list of tokens with an end of the input after it, taken apart. -/
def close (eof : Token) (h : eof.isEof = true) : List Token → TokenStream
  | [] => ⟨[], eof, [], by simp, h⟩
  | t :: ts =>
    if ht : t.isEof = true then ⟨[], t, ts ++ [eof], by simp, ht⟩ else cons t ht (close eof h ts)

/-- The tokens of a stream. -/
def toList (s : TokenStream) : List Token := s.body ++ s.eof :: s.after

/-- A list that is taken apart is the list of the stream. -/
theorem toList_ofList? {ts : List Token} {s : TokenStream} (h : ofList? ts = some s) :
    s.toList = ts := by
  induction ts generalizing s with
  | nil => simp [ofList?] at h
  | cons t ts ih =>
    simp only [ofList?] at h
    split at h
    · obtain rfl := Option.some.inj h
      rfl
    · obtain ⟨stream, hs, rfl⟩ := Option.map_eq_some_iff.1 h
      simp [toList, cons, ← ih hs]

/-- The first token of an unread rest of the body, or the end of the input. -/
def next (s : TokenStream) (rest : List Token) : Token := rest.headD s.eof

/-- The position in the stream at which a given rest of the body starts. -/
def position (s : TokenStream) (rest : List Token) : Nat := s.body.length - rest.length

/-- The token before a position; before the front comes the last token of all. -/
def previous (s : TokenStream) (position : Nat) : Token :=
  match position with
  | 0 => s.after.getLastD s.eof
  | n + 1 => s.body.getD n s.eof

end TokenStream

end ExprFront
