import Mathlib.Algebra.Order.Ring.Nat
import Mathlib.Tactic.Ring
import ExprFront.Number.Integer

/-!
Whole numbers that can be written.

* `Integer.text?_eq_some_iff`: a number has a text if it is below the bound, and this is the plain
  one. Only the bound itself is ever computed (`lt_textBound`), for small numbers.
* `Integer.exists_text?_of_ofText?`: a number that is read can be written, since it is read from no
  more digits than may be written.
-/

namespace ExprFront

namespace Integer

/-! ### Writing -/

/-- A number that can be written has its plain text. -/
lemma text?_eq_some_iff {n : Int} {text : String} :
    text? n = some text ↔ n.natAbs < textBound ∧ toString n = text := by
  rw [text?]
  split
  · next h => simp [h]
  · next h => simp [h]

lemma text?_eq_none_iff {n : Int} : text? n = none ↔ textBound ≤ n.natAbs := by
  rw [text?]
  split
  · next h => exact iff_of_false nofun (not_le.mpr h)
  · next h => exact iff_of_true rfl (not_lt.mp h)

lemma textBound_eq : textBound = 10 ^ maxDigits := by
  unfold textBound
  generalize maxDigits = m
  exact Nat.pow_eq

/-- Numbers with few digits can be written. -/
lemma lt_textBound {n k : Nat} (hn : n < 10 ^ k) (hk : k ≤ maxDigits) : n < textBound := by
  rw [textBound_eq]
  generalize maxDigits = m at hk ⊢
  exact hn.trans_le (Nat.pow_le_pow_right (by decide) hk)

/-! ### Reading -/

lemma digitValue?_le {c : Char} {d : Nat} (h : Text.digitValue? c = some d) : d ≤ 9 := by
  obtain ⟨z, hfind, rfl⟩ := Option.map_eq_some_iff.mp h
  have hz := List.find?_some hfind
  simp only [Bool.and_eq_true, decide_eq_true_eq] at hz
  omega

/-- What digits come to is below the power of ten that they take, as a multiple of the start. -/
lemma foldl_digits_lt {ds : List Nat} (h : ∀ d ∈ ds, d ≤ 9) (start : Nat) :
    ds.foldl (fun n d => 10 * n + d) start < 10 ^ ds.length * (start + 1) := by
  induction ds generalizing start with
  | nil => simp
  | cons d ds ih =>
      obtain ⟨hd, hds⟩ := List.forall_mem_cons.mp h
      calc ds.foldl (fun n d => 10 * n + d) (10 * start + d)
          < 10 ^ ds.length * (10 * start + d + 1) := ih hds _
        _ ≤ 10 ^ ds.length * (10 * (start + 1)) := Nat.mul_le_mul_left _ (by omega)
        _ = 10 ^ (ds.length + 1) * (start + 1) := by ring

lemma moreDigits?_le {cs : List Char} {ds : List Nat} (h : moreDigits? cs = some ds) :
    ∀ d ∈ ds, d ≤ 9 := by
  induction cs using moreDigits?.induct generalizing ds with
  | case1 =>
      obtain rfl := Option.some.inj h
      simp
  | case2 c rest ih =>
      simp only [moreDigits?, Option.bind_eq_bind, Option.bind_eq_some_iff, Option.pure_def,
        Option.some.injEq] at h
      obtain ⟨d, hd, ds, hds, rfl⟩ := h
      exact List.forall_mem_cons.mpr ⟨digitValue?_le hd, ih hds⟩
  | case3 c rest hc ih =>
      simp only [moreDigits?, Option.bind_eq_bind, Option.bind_eq_some_iff, Option.pure_def,
        Option.some.injEq] at h
      obtain ⟨d, hd, ds, hds, rfl⟩ := h
      exact List.forall_mem_cons.mpr ⟨digitValue?_le hd, ih hds⟩

/-- The digits of a number that is read come to less than the bound for writing. -/
lemma digits?_lt {cs : List Char} {ds : List Nat} (h : digits? cs = some ds) :
    ds.foldl (fun n d => 10 * n + d) 0 < textBound := by
  cases cs with
  | nil => cases h
  | cons c rest =>
      simp only [digits?, Option.bind_eq_bind, Option.bind_eq_some_iff] at h
      obtain ⟨d, hd, more, hmore, h⟩ := h
      split at h
      · next hlen =>
          obtain rfl := Option.some.inj h
          have hlt := foldl_digits_lt (List.forall_mem_cons.mpr
            ⟨digitValue?_le hd, moreDigits?_le hmore⟩) 0
          rw [Nat.mul_one] at hlt
          exact lt_textBound hlt hlen
      · cases h

/-- **A number that is read can be written.** -/
lemma exists_text?_of_ofText? {s : String} {n : Int} (h : ofText? s = some n) :
    ∃ text, text? n = some text := by
  rw [ofText?] at h
  obtain ⟨ds, hds, hn⟩ := Option.map_eq_some_iff.mp h
  have hsign (negative : Bool) (k : Nat) :
      (if negative then -(k : Int) else k).natAbs = k := by
    cases negative <;> simp
  refine ⟨toString n, text?_eq_some_iff.mpr ⟨?_, rfl⟩⟩
  rw [← hn]
  exact (hsign _ _).trans_lt (digits?_lt hds)

end Integer

end ExprFront
