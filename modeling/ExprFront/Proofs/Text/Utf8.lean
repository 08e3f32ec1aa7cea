import Mathlib.Tactic.Lemma
import ExprFront.Text.Utf8

/-!
Reading UTF-8 undoes writing it. The bytes of a character are a lead byte and one byte for each
further digit of its code in base 64 (`CodeBytes`). These are the bytes that write the character
(`codeBytes_encode`, `CodeBytes.encode`), and those that keep the promise of a lead byte
(`CodeBytes.follow`, `codeBytes_of_follow`). Hence bytes are read as a text exactly if they are the
bytes of this text (`decodeUtf8_eq_ok_iff`).
-/

namespace ExprFront.Text

open String (utf8EncodeChar)

/-- The byte for a digit of a code in base 64 that is not the first. -/
def tailByte (d : Nat) : UInt8 := .ofNat (d + 0x80)

/-- The bytes for a code, by its digits in base 64. The bounds on the digits leave out the codes
that need fewer bytes, the surrogates and the codes beyond the last. -/
inductive CodeBytes (code : Nat) : List UInt8 → Prop
  | one (h : code < 0x80) : CodeBytes code [.ofNat code]
  | two {d d₁ : Nat} (h : 2 ≤ d ∧ d < 32) (h₁ : d₁ < 64) (hcode : code = d * 64 + d₁) :
      CodeBytes code [.ofNat (d + 0xC0), tailByte d₁]
  | three {d d₁ d₂ : Nat} (h : d < 16) (h₁ : d₁ < 64) (h₂ : d₂ < 64)
      (hlow : d = 0 → 32 ≤ d₁) (hhigh : d = 13 → d₁ < 32)
      (hcode : code = (d * 64 + d₁) * 64 + d₂) :
      CodeBytes code [.ofNat (d + 0xE0), tailByte d₁, tailByte d₂]
  | four {d d₁ d₂ d₃ : Nat} (h : d < 5) (h₁ : d₁ < 64) (h₂ : d₂ < 64) (h₃ : d₃ < 64)
      (hlow : d = 0 → 16 ≤ d₁) (hhigh : d = 4 → d₁ < 16)
      (hcode : code = ((d * 64 + d₁) * 64 + d₂) * 64 + d₃) :
      CodeBytes code [.ofNat (d + 0xF0), tailByte d₁, tailByte d₂, tailByte d₃]

/-! ### Writing a character -/

section Encode

variable {c : Char}

lemma utf8EncodeChar_one (h : c.toNat < 0x80) : utf8EncodeChar c = [.ofNat c.toNat] :=
  if_pos (Nat.le_of_lt_succ h)

lemma utf8EncodeChar_two (h : 0x80 ≤ c.toNat) (h' : c.toNat < 0x800) :
    utf8EncodeChar c = [.ofNat (c.toNat / 64 % 32 + 0xC0), tailByte (c.toNat % 64)] :=
  (if_neg (Nat.not_le.mpr h)).trans (if_pos (Nat.le_of_lt_succ h'))

lemma utf8EncodeChar_three (h : 0x800 ≤ c.toNat) (h' : c.toNat < 0x10000) :
    utf8EncodeChar c =
      [.ofNat (c.toNat / 4096 % 16 + 0xE0), tailByte (c.toNat / 64 % 64),
        tailByte (c.toNat % 64)] :=
  (if_neg (Nat.not_le.mpr (Nat.le_trans (by decide) h))).trans <|
    (if_neg (Nat.not_le.mpr h)).trans (if_pos (Nat.le_of_lt_succ h'))

lemma utf8EncodeChar_four (h : 0x10000 ≤ c.toNat) :
    utf8EncodeChar c =
      [.ofNat (c.toNat / 262144 % 8 + 0xF0), tailByte (c.toNat / 4096 % 64),
        tailByte (c.toNat / 64 % 64), tailByte (c.toNat % 64)] :=
  (if_neg (Nat.not_le.mpr (Nat.le_trans (by decide) h))).trans <|
    (if_neg (Nat.not_le.mpr (Nat.le_trans (by decide) h))).trans (if_neg (Nat.not_le.mpr h))

/-- A character is written with the bytes for its code. -/
lemma codeBytes_encode (c : Char) : CodeBytes c.toNat (utf8EncodeChar c) := by
  have hvalid : c.toNat < 0xD800 ∨ 0xDFFF < c.toNat ∧ c.toNat < 0x110000 := c.valid
  rcases Nat.lt_or_ge c.toNat 0x80 with h1 | h1
  · rw [utf8EncodeChar_one h1]
    exact .one h1
  rcases Nat.lt_or_ge c.toNat 0x800 with h2 | h2
  · rw [utf8EncodeChar_two h1 h2]
    exact .two (by omega) (by omega) (by omega)
  rcases Nat.lt_or_ge c.toNat 0x10000 with h3 | h3
  · rw [utf8EncodeChar_three h2 h3]
    exact .three (by omega) (by omega) (by omega) (by omega) (by omega) (by omega)
  · rw [utf8EncodeChar_four h3]
    exact .four (by omega) (by omega) (by omega) (by omega) (by omega) (by omega) (by omega)

lemma toNat_charOfNat {n : Nat} (h : n.isValidChar) : (Char.ofNat n).toNat = n := by
  rw [Char.ofNat, dif_pos h]
  rfl

namespace CodeBytes

variable {code : Nat} {bytes : List UInt8}

lemma isValidChar (h : CodeBytes code bytes) : code.isValidChar := by
  cases h with
  | one h => exact Or.inl (by omega)
  | two h h₁ hcode => exact Or.inl (by omega)
  | three h h₁ h₂ hlow hhigh hcode => unfold Nat.isValidChar; omega
  | four h h₁ h₂ h₃ hlow hhigh hcode => exact Or.inr (by omega)

/-- The bytes for a code are those that write the character of the code. -/
lemma encode (h : CodeBytes code bytes) : utf8EncodeChar (Char.ofNat code) = bytes := by
  have hvalid := toNat_charOfNat h.isValidChar
  cases h with
  | one h =>
      rw [utf8EncodeChar_one (by omega), hvalid]
  | @two d d₁ h h₁ hcode =>
      rw [utf8EncodeChar_two (by omega) (by omega), hvalid, show code / 64 % 32 = d by omega,
        show code % 64 = d₁ by omega]
  | @three d d₁ d₂ h h₁ h₂ hlow hhigh hcode =>
      rw [utf8EncodeChar_three (by omega) (by omega), hvalid, show code / 4096 % 16 = d by omega,
        show code / 64 % 64 = d₁ by omega, show code % 64 = d₂ by omega]
  | @four d d₁ d₂ d₃ h h₁ h₂ h₃ hlow hhigh hcode =>
      rw [utf8EncodeChar_four (by omega), hvalid, show code / 262144 % 8 = d by omega,
        show code / 4096 % 64 = d₁ by omega, show code / 64 % 64 = d₂ by omega,
        show code % 64 = d₃ by omega]

end CodeBytes

end Encode

/-! ### Lead bytes -/

section Lead

variable {d : Nat}

lemma utf8Lead?_one (h : d < 0x80) : utf8Lead? d = some ⟨0, d, 0x80, 0xBF⟩ := if_pos h

lemma utf8Lead?_two (h : 2 ≤ d ∧ d < 32) :
    utf8Lead? (d + 0xC0) = some ⟨1, d, 0x80, 0xBF⟩ := by
  rw [utf8Lead?, if_neg (by omega), if_neg (by omega), if_pos (by omega), Nat.add_sub_cancel]

lemma utf8Lead?_three (h : d < 16) :
    utf8Lead? (d + 0xE0) =
      some ⟨2, d, if d = 0 then 0xA0 else 0x80, if d = 13 then 0x9F else 0xBF⟩ := by
  rw [utf8Lead?, if_neg (by omega), if_neg (by omega), if_neg (by omega), if_pos (by omega),
    Nat.add_sub_cancel]
  simp

lemma utf8Lead?_four (h : d < 5) :
    utf8Lead? (d + 0xF0) =
      some ⟨3, d, if d = 0 then 0x90 else 0x80, if d = 4 then 0x8F else 0xBF⟩ := by
  rw [utf8Lead?, if_neg (by omega), if_neg (by omega), if_neg (by omega), if_neg (by omega),
    if_pos (by omega), Nat.add_sub_cancel]
  simp

/-- There are lead bytes of four kinds. -/
lemma utf8Lead?_cases {b : Nat} {lead : Utf8Lead} (h : utf8Lead? b = some lead) :
    b < 0x80 ∨ (∃ d, b = d + 0xC0 ∧ 2 ≤ d ∧ d < 32) ∨ (∃ d, b = d + 0xE0 ∧ d < 16) ∨
      ∃ d, b = d + 0xF0 ∧ d < 5 := by
  rcases Nat.lt_or_ge b 0x80 with h1 | h1
  · exact Or.inl h1
  rw [utf8Lead?, if_neg (Nat.not_lt.mpr h1)] at h
  rcases Nat.lt_or_ge b 0xC2 with h2 | h2
  · rw [if_pos h2] at h
    cases h
  rw [if_neg (Nat.not_lt.mpr h2)] at h
  rcases Nat.lt_or_ge b 0xE0 with h3 | h3
  · exact Or.inr (Or.inl ⟨b - 0xC0, by omega, by omega, by omega⟩)
  rcases Nat.lt_or_ge b 0xF0 with h4 | h4
  · exact Or.inr (Or.inr (Or.inl ⟨b - 0xE0, by omega, by omega⟩))
  rw [if_neg (Nat.not_lt.mpr h3), if_neg (Nat.not_lt.mpr h4)] at h
  rcases Nat.lt_or_ge b 0xF5 with h5 | h5
  · exact Or.inr (Or.inr (Or.inr ⟨b - 0xF0, by omega, by omega⟩))
  · rw [if_neg (Nat.not_lt.mpr h5)] at h
    cases h

end Lead

/-! ### Reading a character -/

lemma toNat_byte {n : Nat} (h : n < 256) : (UInt8.ofNat n).toNat = n := UInt8.toNat_ofNat_of_lt' h

section Follow

variable {n low high payload fitted code : Nat} {bytes rest : List UInt8}

/-- A byte that continues a character adds a digit to its code. -/
lemma utf8Follow_tailByte {d : Nat} (hd : d < 64) (hlow : low ≤ d + 0x80)
    (hhigh : d + 0x80 ≤ high) :
    utf8Follow (n + 1) low high payload fitted (tailByte d :: rest) =
      utf8Follow n 0x80 0xBF (payload * 64 + d) (fitted + 1) rest := by
  rw [utf8Follow, tailByte, toNat_byte (by omega), Nat.add_sub_cancel]
  exact if_pos (by simp [hlow, hhigh])

/-- A character goes on only with a byte in the bounds. -/
lemma exists_of_utf8Follow (hlow : 0x80 ≤ low)
    (h : utf8Follow (n + 1) low high payload fitted bytes = .ok code) :
    ∃ d rest, bytes = tailByte d :: rest ∧ low ≤ d + 0x80 ∧ d + 0x80 ≤ high ∧
      utf8Follow n 0x80 0xBF (payload * 64 + d) (fitted + 1) rest = .ok code := by
  cases bytes with
  | nil => cases h
  | cons b rest =>
      rw [utf8Follow] at h
      split at h
      · next hb =>
        have hb : low ≤ b.toNat ∧ b.toNat ≤ high := by simpa using hb
        have hd : b.toNat - 0x80 + 0x80 = b.toNat := Nat.sub_add_cancel (Nat.le_trans hlow hb.1)
        refine ⟨b.toNat - 0x80, rest, ?_, ?_, ?_, h⟩
        · rw [tailByte, hd, UInt8.ofNat_toNat]
        · rw [hd]
          exact hb.1
        · rw [hd]
          exact hb.2
      · cases h

end Follow

section Promise

variable {code : Nat} {b : UInt8} {tail rest : List UInt8} {lead : Utf8Lead}

/-- The bytes for a code keep the promise of the lead byte. -/
lemma CodeBytes.follow (h : CodeBytes code (b :: tail)) (rest : List UInt8) :
    ∃ lead, utf8Lead? b.toNat = some lead ∧ tail.length = lead.following ∧
      utf8Follow lead.following lead.low lead.high lead.payload 1 (tail ++ rest) = .ok code := by
  cases h with
  | one h =>
      have hb := toNat_byte (show code < 256 by omega)
      exact ⟨_, (congrArg utf8Lead? hb).trans (utf8Lead?_one h), rfl, rfl⟩
  | @two d d₁ h h₁ hcode =>
      have hb := toNat_byte (show d + 0xC0 < 256 by omega)
      refine ⟨_, (congrArg utf8Lead? hb).trans (utf8Lead?_two h), rfl, ?_⟩
      rw [hcode]
      exact utf8Follow_tailByte h₁ (Nat.le_add_left _ _) (by dsimp only; omega)
  | @three d d₁ d₂ h h₁ h₂ hlow hhigh hcode =>
      have hb := toNat_byte (show d + 0xE0 < 256 by omega)
      refine ⟨_, (congrArg utf8Lead? hb).trans (utf8Lead?_three h), rfl, ?_⟩
      have hlow₁ : (if d = 0 then 0xA0 else 0x80) ≤ d₁ + 0x80 := by split <;> omega
      have hhigh₁ : d₁ + 0x80 ≤ if d = 13 then 0x9F else 0xBF := by split <;> omega
      rw [hcode]
      exact (utf8Follow_tailByte h₁ hlow₁ hhigh₁).trans
        (utf8Follow_tailByte h₂ (by omega) (by omega))
  | @four d d₁ d₂ d₃ h h₁ h₂ h₃ hlow hhigh hcode =>
      have hb := toNat_byte (show d + 0xF0 < 256 by omega)
      refine ⟨_, (congrArg utf8Lead? hb).trans (utf8Lead?_four h), rfl, ?_⟩
      have hlow₁ : (if d = 0 then 0x90 else 0x80) ≤ d₁ + 0x80 := by split <;> omega
      have hhigh₁ : d₁ + 0x80 ≤ if d = 4 then 0x8F else 0xBF := by split <;> omega
      rw [hcode]
      exact ((utf8Follow_tailByte h₁ hlow₁ hhigh₁).trans
        (utf8Follow_tailByte h₂ (by omega) (by omega))).trans
          (utf8Follow_tailByte h₃ (by omega) (by omega))

/-- Bytes that keep the promise of a lead byte are those for a code. -/
lemma codeBytes_of_follow (hlead : utf8Lead? b.toNat = some lead)
    (h : utf8Follow lead.following lead.low lead.high lead.payload 1 rest = .ok code) :
    ∃ tail rest', rest = tail ++ rest' ∧ tail.length = lead.following ∧
      CodeBytes code (b :: tail) := by
  rcases utf8Lead?_cases hlead with hb | ⟨d, hb, hd⟩ | ⟨d, hb, hd⟩ | ⟨d, hb, hd⟩
  · rw [utf8Lead?_one hb, Option.some.injEq] at hlead
    subst hlead
    obtain rfl : b.toNat = code := Except.ok.inj h
    refine ⟨[], rest, rfl, rfl, ?_⟩
    have hbytes := CodeBytes.one hb
    rwa [UInt8.ofNat_toNat] at hbytes
  · obtain rfl : b = .ofNat (d + 0xC0) := by rw [← hb, UInt8.ofNat_toNat]
    rw [hb, utf8Lead?_two hd, Option.some.injEq] at hlead
    subst hlead
    obtain ⟨d₁, rest', rfl, -, hhigh₁, h⟩ := exists_of_utf8Follow (Nat.le_refl 0x80) h
    dsimp only at hhigh₁
    exact ⟨[_], rest', rfl, rfl, .two hd (by omega) (Except.ok.inj h).symm⟩
  · obtain rfl : b = .ofNat (d + 0xE0) := by rw [← hb, UInt8.ofNat_toNat]
    rw [hb, utf8Lead?_three hd, Option.some.injEq] at hlead
    subst hlead
    obtain ⟨d₁, rest', rfl, hlow₁, hhigh₁, h⟩ :=
      exists_of_utf8Follow (by dsimp only; split <;> omega) h
    obtain ⟨d₂, rest', rfl, hlow₂, hhigh₂, h⟩ := exists_of_utf8Follow (by omega) h
    dsimp only at hlow₁ hhigh₁
    refine ⟨[_, _], rest', rfl, rfl,
      .three hd ?_ (by omega) ?_ ?_ (Except.ok.inj h).symm⟩
    · split at hhigh₁ <;> omega
    · rintro rfl
      rw [if_pos rfl] at hlow₁
      omega
    · rintro rfl
      rw [if_pos rfl] at hhigh₁
      omega
  · obtain rfl : b = .ofNat (d + 0xF0) := by rw [← hb, UInt8.ofNat_toNat]
    rw [hb, utf8Lead?_four hd, Option.some.injEq] at hlead
    subst hlead
    obtain ⟨d₁, rest', rfl, hlow₁, hhigh₁, h⟩ :=
      exists_of_utf8Follow (by dsimp only; split <;> omega) h
    obtain ⟨d₂, rest', rfl, hlow₂, hhigh₂, h⟩ := exists_of_utf8Follow (by omega) h
    obtain ⟨d₃, rest', rfl, hlow₃, hhigh₃, h⟩ := exists_of_utf8Follow (by omega) h
    dsimp only at hlow₁ hhigh₁
    refine ⟨[_, _, _], rest', rfl, rfl,
      .four hd ?_ (by omega) (by omega) ?_ ?_ (Except.ok.inj h).symm⟩
    · split at hhigh₁ <;> omega
    · rintro rfl
      rw [if_pos rfl] at hlow₁
      omega
    · rintro rfl
      rw [if_pos rfl] at hhigh₁
      omega

end Promise

/-! ### Reading a text -/

section Decode

variable {bytes : List UInt8} {position : Nat} {cs : List Char}

/-- Bytes that belong to the character before are passed over. -/
lemma decodeUtf8From_append (tail : List UInt8) :
    decodeUtf8From position tail.length (tail ++ bytes) =
      decodeUtf8From (position + tail.length) 0 bytes := by
  induction tail generalizing position with
  | nil => rfl
  | cons b tail ih =>
      rw [List.length_cons, List.cons_append, decodeUtf8From, ih]
      congr 1
      omega

/-- The bytes of a character are read as this character. -/
lemma decodeUtf8From_encode (c : Char) (position : Nat) (bytes : List UInt8) :
    ∃ position', decodeUtf8From position 0 (utf8EncodeChar c ++ bytes) =
      (decodeUtf8From position' 0 bytes).map (c :: ·) := by
  have hcode := codeBytes_encode c
  obtain ⟨b, tail, hbytes⟩ := List.exists_cons_of_ne_nil (String.utf8EncodeChar_ne_nil (c := c))
  rw [hbytes] at hcode ⊢
  obtain ⟨lead, hlead, hlength, hfollow⟩ := hcode.follow bytes
  refine ⟨position + 1 + tail.length, ?_⟩
  rw [List.cons_append, decodeUtf8From, hlead]
  dsimp only
  rw [hfollow, ← hlength, decodeUtf8From_append]
  dsimp only
  rw [Char.ofNat_toNat]
  cases decodeUtf8From (position + 1 + tail.length) 0 bytes <;> rfl

/-- What is read begins with a character and its bytes. -/
lemma exists_of_decodeUtf8From_cons {b : UInt8}
    (h : decodeUtf8From position 0 (b :: bytes) = .ok cs) :
    ∃ c cs' rest position', cs = c :: cs' ∧ b :: bytes = utf8EncodeChar c ++ rest ∧
      decodeUtf8From position' 0 rest = .ok cs' := by
  rw [decodeUtf8From] at h
  split at h
  · cases h
  · next lead hlead =>
    split at h
    · cases h
    · next code hfollow =>
      obtain ⟨tail, rest, rfl, hlength, hbytes⟩ := codeBytes_of_follow hlead hfollow
      rw [← hlength, decodeUtf8From_append] at h
      split at h
      · cases h
      · next cs' hrest =>
        refine ⟨.ofNat code, cs', rest, _, (Except.ok.inj h).symm, ?_, hrest⟩
        rw [hbytes.encode]
        rfl

lemma decodeUtf8From_eq_ok_iff :
    decodeUtf8From position 0 bytes = .ok cs ↔ bytes = cs.flatMap utf8EncodeChar := by
  constructor
  · intro h
    induction cs generalizing bytes position with
    | nil =>
        cases bytes with
        | nil => rfl
        | cons b bytes =>
            obtain ⟨c, cs', rest, position', hcs, -, -⟩ := exists_of_decodeUtf8From_cons h
            cases hcs
    | cons c cs ih =>
        cases bytes with
        | nil => cases h
        | cons b bytes =>
            obtain ⟨c', cs', rest, position', hcs, hbytes, hrest⟩ := exists_of_decodeUtf8From_cons h
            obtain ⟨rfl, rfl⟩ := List.cons.inj hcs
            rw [hbytes, ih hrest, List.flatMap_cons]
  · rintro rfl
    induction cs generalizing position with
    | nil => rfl
    | cons c cs ih =>
        obtain ⟨position', hread⟩ := decodeUtf8From_encode c position (cs.flatMap utf8EncodeChar)
        rw [List.flatMap_cons, hread, ih]
        rfl

/-- **Reading UTF-8 undoes writing it**: bytes are read as a text exactly if they are the bytes of
this text. -/
theorem decodeUtf8_eq_ok_iff :
    decodeUtf8 bytes = .ok cs ↔ bytes = cs.flatMap utf8EncodeChar := decodeUtf8From_eq_ok_iff

end Decode

end ExprFront.Text
