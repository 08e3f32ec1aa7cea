import ExprFront.Proofs.Expr.ReadBack
import ExprFront.Proofs.Grammar.Derivation
import ExprFront.Proofs.Number.Rounding
import ExprFront.Proofs.Source.Respacing

/-!
Trees that source texts are read to.

What is read from a text is `Readable`: its operators are tokens without payloads, and its literals
are nil, truth values, texts, and numbers as they are rounded (`Derives.readable`). No number in it
has too many digits, so that its tokens can be listed (`Spelled.exists_summary`) and the tree can be
printed (`Readable.exists_print`).
-/

namespace ExprFront

/-! ### Literals -/

namespace Scalar

/-- The scalars that literals of a source text may hold. -/
def Readable : Scalar → Prop
  | .nil => True
  | .truth _ => True
  | .int _ => False
  | .double x => x.Canonical
  | .text _ => True

/-- A scalar of a source text has a text. -/
lemma Readable.exists_canonical {v : Scalar} (h : v.Readable) :
    ∃ text, v.canonical? = some text := by
  cases v with
  | int n => exact h.elim
  | double x =>
      rw [canonical?]
      split <;> exact ⟨_, rfl⟩
  | _ => exact ⟨_, rfl⟩

end Scalar

/-! ### Tokens -/

lemma Spells.numeral {text : List Char} {type : TokenType} (h : Spells text type)
    (htype : type = .number) : Numeral text := by
  cases h with
  | number h => exact h
  | @keyword text _ _ hk =>
      have hword := (ofWord_ne_number_string (String.ofList text)).1
      rw [TokenType.ofWord, hk] at hword
      exact absurd htype hword
  | identifier => cases htype
  | string => cases htype
  | operator h =>
      have hall : ∀ p ∈ TokenType.operators, p.2 ≠ .number := by decide
      exact absurd htype (hall _ (TokenType.mem_operators h))

namespace Spelled

variable {t : Token} (h : Spelled t)

include h

/-- An operator of a text has no payload. -/
lemma payload_of_operator (hoperator : t.type.isUnary = true ∨ t.type.isBinary = true) :
    t.payload = .nil := by
  have hall : ∀ type ∈ TokenType.all, type.isUnary = true ∨ type.isBinary = true →
      type ≠ .number ∧ type ≠ .string := by decide
  obtain ⟨hnumber, hstring⟩ := hall t.type (TokenType.mem_all _) hoperator
  have hpayload := h.payload
  rw [TokenType.payload?_eq_nil hnumber hstring] at hpayload
  exact (Option.some.inj hpayload).symm

/-- What a token of a text denotes can be a literal of a text. -/
lemma readable_of_denotes {v : Scalar} (hv : t.Denotes v) : v.Readable := by
  have hpayload := h.payload
  cases hv with
  | falsity => trivial
  | truth => trivial
  | nothing => trivial
  | number htype hp =>
      have hnumeral := h.spells.numeral htype
      have hread := hnumeral.ofText?
      rw [String.ofList_toList] at hread
      rw [htype, hp, TokenType.payload?, String.ofList_toList, hread] at hpayload
      obtain rfl := Value.scalar.inj (Option.some.inj hpayload)
      exact Double.canonical_ofPlainDigits _
  | text htype hp =>
      rw [htype, hp, TokenType.payload?] at hpayload
      obtain rfl := Value.scalar.inj (Option.some.inj hpayload)
      trivial

/-- A token of a text carries nothing, a double or a text. -/
lemma payload_cases :
    t.payload = .nil ∨ (∃ x, t.payload = .scalar (.double x)) ∨
      ∃ s, t.payload = .scalar (.text s) := by
  have hpayload := h.payload
  by_cases hnumber : t.type = .number
  · rw [hnumber, TokenType.payload?] at hpayload
    obtain ⟨x, -, hx⟩ := Option.map_eq_some_iff.mp hpayload
    exact Or.inr (Or.inl ⟨x, hx.symm⟩)
  by_cases hstring : t.type = .string
  · rw [hstring, TokenType.payload?] at hpayload
    exact Or.inr (Or.inr ⟨_, (Option.some.inj hpayload).symm⟩)
  rw [TokenType.payload?_eq_nil hnumber hstring] at hpayload
  exact Or.inl (Option.some.inj hpayload).symm

/-- A token of a text can be listed. -/
lemma exists_summary : ∃ text, t.summary? = some text := by
  obtain hp | ⟨x, hp⟩ | ⟨s, hp⟩ := h.payload_cases
  · rw [TokenOf.summary?, hp]
    exact ⟨_, rfl⟩
  · rw [TokenOf.summary?, hp]
    exact ⟨_, rfl⟩
  · rw [TokenOf.summary?, hp]
    exact ⟨_, rfl⟩

end Spelled

/-! ### Trees -/

namespace Tree

/-- The operators of a tree have no payloads, and its literals are from a source text. -/
def Readable (e : Expr) : Prop := e.All (fun t => t.payload = .nil) Scalar.Readable

/-- A tree of a source text is printed. -/
lemma Readable.exists_print {e : Expr} (h : e.Readable) : ∃ text, e.print? = .ok text := by
  induction e with
  | literal v =>
      obtain ⟨text, htext⟩ := Scalar.Readable.exists_canonical h
      exact ⟨text, print?_literal_eq_ok.mpr htext⟩
  | grouping e ih =>
      obtain ⟨text, htext⟩ := ih h
      exact ⟨_, print?_grouping_eq_ok.mpr ⟨text, htext, rfl⟩⟩
  | unary t e ih =>
      obtain ⟨text, htext⟩ := ih h.2
      exact ⟨_, print?_unary_eq_ok.mpr ⟨text, htext, rfl⟩⟩
  | binary l t r ihl ihr =>
      obtain ⟨text, htext⟩ := ihl h.1
      obtain ⟨text', htext'⟩ := ihr h.2.2
      exact ⟨_, print?_binary_eq_ok.mpr ⟨text, htext, text', htext', rfl⟩⟩
  | bare mark => exact mark.elim

end Tree

/-- What is read from a text is readable. A phrase that goes on after an expression has to start
with a readable one. -/
lemma Derives.readable {p : Phrase} {us : List Token} {e : Expr} (h : Derives p us e)
    (hus : ∀ t ∈ us, Spelled t) (hleft : ∀ l left, p = .extension l left → left.Readable) :
    e.Readable := by
  induction h with
  | expression h ih => exact ih hus fun _ _ hp => nomatch hp
  | chain hl he ihl ihe =>
      obtain ⟨hus, hvs⟩ := List.forall_mem_append.mp hus
      refine ihe hvs fun _ _ hp => ?_
      cases hp
      exact ihl hus fun _ _ hp => nomatch hp
  | done => exact hleft _ _ rfl
  | @more l left t us vs right e ht hr he ihr ihe =>
      obtain ⟨hspelled, hrest⟩ := List.forall_mem_cons.mp hus
      obtain ⟨hus, hvs⟩ := List.forall_mem_append.mp hrest
      refine ihe hvs fun _ _ hp => ?_
      cases hp
      have hbinary : t.type.isBinary = true := (isBinary_iff_contains _).mpr ⟨l, ht⟩
      have hright : Tree.Readable right := ihr hus fun _ _ hp => nomatch hp
      exact ⟨hleft _ _ rfl, hspelled.payload_of_operator (Or.inr hbinary), hright⟩
  | operator ht h ih =>
      obtain ⟨hspelled, hus⟩ := List.forall_mem_cons.mp hus
      exact ⟨hspelled.payload_of_operator (Or.inl ht), ih hus fun _ _ hp => nomatch hp⟩
  | operand h ih => exact ih hus fun _ _ hp => nomatch hp
  | literal h => exact (hus _ List.mem_cons_self).readable_of_denotes h
  | group ho h hc ih =>
      obtain ⟨-, hrest⟩ := List.forall_mem_cons.mp hus
      exact ih (List.forall_mem_append.mp hrest).1 fun _ _ hp => nomatch hp

end ExprFront
