import Mathlib.Data.List.Basic
import ExprFront.Text.AlphaNumeric
import ExprFront.Text.Blank
import ExprFront.Text.DecimalDigit

/-!
Classes of characters that exclude each other: a digit from `0` to `9` is no letter, and a blank is
neither a letter nor a numeral. The tables are compared at the few code points of the smaller class
(`within_eq_true`).
-/

namespace ExprFront.Text

/-- A code point within a list of intervals is in one of them. -/
lemma within_eq_true {intervals : List (Nat × Nat)} {n : Nat} (h : within intervals n = true) :
    ∃ p ∈ intervals, p.1 ≤ n ∧ n ≤ p.2 := by
  induction intervals with
  | nil => simp [within] at h
  | cons p intervals ih =>
      obtain ⟨first, last⟩ := p
      simp only [within, Bool.and_eq_true, Bool.or_eq_true, decide_eq_true_eq] at h
      rcases h with ⟨hfirst, hlast | h⟩
      · exact ⟨(first, last), List.mem_cons_self, hfirst, hlast⟩
      · obtain ⟨p, hp, hle⟩ := ih h
        exact ⟨p, List.mem_cons_of_mem _ hp, hle⟩

lemma toNat_of_isAsciiDigit {c : Char} (h : isAsciiDigit c = true) :
    0x30 ≤ c.toNat ∧ c.toNat ≤ 0x39 := by
  simp only [isAsciiDigit, Bool.and_eq_true, decide_eq_true_eq, Char.le_def,
    UInt32.le_iff_toNat_le] at h
  exact h

lemma isLetter_eq_false_of_isAsciiDigit {c : Char} (h : isAsciiDigit c = true) :
    isLetter c = false := by
  have hall : ∀ n ≤ 0x39, within letterIntervals n = false := by decide +kernel
  exact hall _ (toNat_of_isAsciiDigit h).2

lemma isAlphaNumeric_eq_false_of_isBlank {c : Char} (h : isBlank c = true) :
    isAlphaNumeric c = false := by
  have hall : ∀ p ∈ blankIntervals, ∀ k ≤ p.2 - p.1,
      within letterIntervals (p.1 + k) = false ∧ within numeralIntervals (p.1 + k) = false := by
    decide +kernel
  obtain ⟨p, hp, hfirst, hlast⟩ := within_eq_true h
  obtain ⟨hletter, hnumeral⟩ := hall p hp (c.toNat - p.1) (by omega)
  rw [Nat.add_sub_cancel' hfirst] at hletter hnumeral
  simp only [isAlphaNumeric, isLetter, hletter, hnumeral, Bool.or_self]

lemma isAsciiDigit_eq_false_of_isBlank {c : Char} (h : isBlank c = true) :
    isAsciiDigit c = false := by
  have hall : ∀ n ≤ 0x39, 0x30 ≤ n → within blankIntervals n = false := by decide
  by_contra hd
  obtain ⟨hfirst, hlast⟩ := toNat_of_isAsciiDigit (by simpa using hd)
  rw [isBlank, hall _ hlast hfirst] at h
  cases h

end ExprFront.Text
