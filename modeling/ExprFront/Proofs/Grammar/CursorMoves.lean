import Mathlib.Data.List.Infix
import ExprFront.Grammar.Descent
import ExprFront.Proofs.Grammar.Reports
import ExprFront.Proofs.Grammar.ResumePoint

/-!
The cursor in a stream of tokens.

A cursor stands before a rest of the body of a stream (`TokenStream.cursor`). There every look at a
token finds one, and each method that looks at tokens or moves over one does what the tokens of the
rest say: `peek_cursor`, `previous_apply`, `check_cursor`, `advance_cons`, `accept_cons`,
`recover_cursor`. In particular no such method passes the first end of the input, and none breaks
off for want of a token.
-/

namespace ExprFront

/-! ### Positions -/

namespace TokenStream

variable {s : TokenStream} {t : Token} {ts : List Token}

/-- The methods on the tokens of a stream. -/
def descent (s : TokenStream) (limits : Limits) : Descent := ⟨s.toList, limits⟩

/-- The cursor before a rest of the body, with levels open and faults recorded. -/
def cursor (s : TokenStream) (rest : List Token) (levels : Int) (faults : List Fault) : Cursor :=
  ⟨s.position rest, levels, faults⟩

lemma position_body : s.position s.body = 0 := Nat.sub_self _

lemma position_nil : s.position [] = s.body.length := Nat.sub_zero _

lemma position_le (ts : List Token) : s.position ts ≤ s.body.length := Nat.sub_le _ _

lemma position_drop {k : Nat} (h : k ≤ s.body.length) : s.position (s.body.drop k) = k := by
  rw [position, List.length_drop]
  omega

lemma position_of_cons (h : t :: ts <:+ s.body) :
    s.position ts = s.position (t :: ts) + 1 := by
  have hle := h.length_le
  rw [position, position, List.length_cons]
  rw [List.length_cons] at hle
  omega

/-- A cursor that is not past the end of the input stands before a rest of the body. -/
lemma cursor_drop {c : Cursor} (h : c.position ≤ s.body.length) :
    s.cursor (s.body.drop c.position) c.levels c.faults = c := by
  rw [cursor, position_drop h]

lemma isEof_of_suffix (h : t :: ts <:+ s.body) : t.isEof = false :=
  s.body_not_eof t (h.subset List.mem_cons_self)

lemma getElem?_position (h : ts <:+ s.body) : s.toList[s.position ts]? = some (s.next ts) := by
  obtain ⟨us, hus⟩ := h
  rw [position_eq hus.symm]
  exact getElem?_toList hus.symm

/-- The token before the rest that it leads to. -/
lemma previous_of_cons (h : t :: ts <:+ s.body) : s.previous (s.position ts) = t := by
  rw [position_of_cons h]
  obtain ⟨us, hus⟩ := h
  rw [position_eq hus.symm, previous, ← hus]
  simp

end TokenStream

/-! ### Looking and moving -/

namespace Descent

open TokenStream

variable {s : TokenStream} {limits : Limits} {t : Token} {ts : List Token} {levels : Int}
  {faults : List Fault}

lemma peek_cursor (h : ts <:+ s.body) :
    (s.descent limits).peek (s.cursor ts levels faults) =
      (.ok (s.next ts), s.cursor ts levels faults) :=
  Method.need_of_some (getElem?_position h)

/-- The token before a position up to the end of the input is there. -/
lemma previous_apply (limits : Limits) {c : Cursor} (h : c.position ≤ s.body.length) :
    (s.descent limits).previous c = (.ok (s.previous c.position), c) := by
  obtain ⟨position, levels, faults⟩ := c
  refine Method.need_of_some ?_
  cases position with
  | zero =>
      change s.toList.getLast? = some (s.after.getLastD s.eof)
      rw [toList, List.getLast?_append, List.getLast?_cons, Option.some_or,
        List.getLastD_eq_getLast?]
  | succ n =>
      have hn : n < s.body.length := h
      change s.toList[n]? = some (s.body.getD n s.eof)
      rw [toList, List.getElem?_append_left hn, List.getD_eq_getElem?_getD,
        List.getElem?_eq_getElem hn, Option.getD_some]

lemma previous_cons (h : t :: ts <:+ s.body) :
    (s.descent limits).previous (s.cursor ts levels faults) =
      (.ok t, s.cursor ts levels faults) := by
  rw [previous_apply limits (position_le ts), cursor, previous_of_cons h]

lemma atEnd_cursor (h : ts <:+ s.body) :
    (s.descent limits).atEnd (s.cursor ts levels faults) =
      (.ok ts.isEmpty, s.cursor ts levels faults) := by
  rw [atEnd, Method.bind_of_ok (peek_cursor h)]
  cases ts with
  | nil => exact congrArg (fun b => (Except.ok b, _)) s.eof_isEof
  | cons t ts => exact congrArg (fun b => (Except.ok b, _)) (isEof_of_suffix h)

lemma check_cursor (h : ts <:+ s.body) (type : TokenType) :
    (s.descent limits).check type (s.cursor ts levels faults) =
      (.ok (ts.head?.any fun t => t.type == type), s.cursor ts levels faults) := by
  rw [check, Method.bind_of_ok (atEnd_cursor h)]
  cases ts with
  | nil => rfl
  | cons t ts =>
      rw [List.isEmpty_cons, if_neg Bool.false_ne_true, Method.bind_of_ok (peek_cursor h)]
      rfl

lemma advance_nil :
    (s.descent limits).advance (s.cursor [] levels faults) =
      (.ok (s.previous s.body.length), s.cursor [] levels faults) := by
  rw [advance, Method.bind_of_ok (atEnd_cursor List.nil_suffix), List.isEmpty_nil, if_pos rfl,
    previous_apply limits (position_le []), cursor, position_nil]

lemma advance_cons (h : t :: ts <:+ s.body) :
    (s.descent limits).advance (s.cursor (t :: ts) levels faults) =
      (.ok t, s.cursor ts levels faults) := by
  have hmove : (Method.change fun c => { c with position := c.position + 1 } : Parsing Unit)
      (s.cursor (t :: ts) levels faults) = (.ok (), s.cursor ts levels faults) := by
    rw [cursor, cursor, position_of_cons h]
    rfl
  rw [advance, Method.bind_of_ok (atEnd_cursor h), List.isEmpty_cons, if_neg Bool.false_ne_true,
    Method.bind_of_ok hmove, previous_cons h]

/-- A token of one of the types is passed over; another one, and the end of the input, is not. -/
lemma accept_cursor (h : ts <:+ s.body) (types : List TokenType) :
    (s.descent limits).accept types (s.cursor ts levels faults) =
      if types.any fun type => ts.head?.any fun t => t.type == type then
        (.ok true, s.cursor (ts.drop 1) levels faults)
      else (.ok false, s.cursor ts levels faults) := by
  induction types with
  | nil => rfl
  | cons type types ih =>
      rw [accept, Method.bind_of_ok (check_cursor h type), List.any_cons]
      cases ts with
      | nil => exact ih
      | cons t ts =>
          cases hty : t.type == type with
          | false =>
              rw [List.head?_cons, Option.any_some, hty, Bool.false_or, if_neg Bool.false_ne_true]
              exact ih
          | true =>
              rw [List.head?_cons, Option.any_some, hty, Bool.true_or, if_pos rfl, if_pos rfl,
                Method.bind_of_ok (advance_cons h)]
              rfl

lemma accept_nil (types : List TokenType) :
    (s.descent limits).accept types (s.cursor [] levels faults) =
      (.ok false, s.cursor [] levels faults) := by
  rw [accept_cursor List.nil_suffix, if_neg (by simp)]

lemma accept_of_mem (h : t :: ts <:+ s.body) {types : List TokenType} (ht : t.type ∈ types) :
    (s.descent limits).accept types (s.cursor (t :: ts) levels faults) =
      (.ok true, s.cursor ts levels faults) := by
  rw [accept_cursor h, if_pos (by simpa using ht)]
  rfl

lemma accept_of_not_mem (h : t :: ts <:+ s.body) {types : List TokenType} (ht : t.type ∉ types) :
    (s.descent limits).accept types (s.cursor (t :: ts) levels faults) =
      (.ok false, s.cursor (t :: ts) levels faults) := by
  rw [accept_cursor h, if_neg (by simpa using ht)]

lemma require_cursor (h : ts <:+ s.body) (type : TokenType) (expected context : String) :
    (s.descent limits).require type expected context (s.cursor ts levels faults) =
      if ts.head?.any fun t => t.type == type then
        (.ok (s.next ts), s.cursor (ts.drop 1) levels faults)
      else
        (.error (.fault ⟨.missingToken expected context, s.next ts⟩),
          s.cursor ts levels faults) := by
  rw [require, Method.bind_of_ok (check_cursor h type)]
  split
  · next hc =>
      cases ts with
      | nil => simp at hc
      | cons t ts => exact advance_cons h
  · rw [Method.bind_of_ok (peek_cursor h)]
    rfl

end Descent

/-! ### Recovery -/

namespace Recovery

lemma afterSemicolon_suffix (ts : List Token) : afterSemicolon ts <:+ ts := by
  rcases afterSemicolon_cases ts with ⟨us, t, hts, -, -⟩ | ⟨hnil, -⟩
  · exact ⟨us ++ [t], by rw [List.append_assoc, List.singleton_append, ← hts]⟩
  · exact hnil ▸ List.nil_suffix

end Recovery

namespace TokenStream

variable {s : TokenStream} {ts : List Token}

/-- From a position in the body on, parsing goes on after the next semicolon, or at the end of the
input. -/
lemma resume?_position (h : ts <:+ s.body) :
    Recovery.resume? s.toList (s.position ts) =
      some (s.position (Recovery.afterSemicolon ts) : Int) := by
  have hts : ∀ t ∈ ts, t.isEof = false := fun t ht => s.body_not_eof t (h.subset ht)
  obtain ⟨us, hus⟩ := h
  obtain ⟨vs, hvs, hk⟩ : ∃ vs, ts = vs ++ Recovery.afterSemicolon ts ∧
      Recovery.ResumesAt s.toList us.length (us.length + vs.length) := by
    rw [toList, ← hus, List.append_assoc]
    exact Recovery.resumesAt_afterSemicolon s.eof_isEof hts us
  have hnext : s.body = us ++ vs ++ Recovery.afterSemicolon ts := by
    rw [List.append_assoc, ← hvs, hus]
  rw [position_eq hus.symm, position_eq hnext, List.length_append]
  exact Recovery.resume?_eq_some_iff.mpr hk

end TokenStream

lemma Descent.recover_cursor {s : TokenStream} {limits : Limits} {ts : List Token} {levels : Int}
    {faults : List Fault} (h : ts <:+ s.body) :
    (s.descent limits).recover (s.cursor ts levels faults) =
      (.ok (), s.cursor (Recovery.afterSemicolon ts) levels faults) := by
  have hresume : Recovery.resume? (s.descent limits).tokens (s.cursor ts levels faults).position =
      some (s.position (Recovery.afterSemicolon ts) : Int) := TokenStream.resume?_position h
  rw [recover, hresume]
  rfl

end ExprFront
