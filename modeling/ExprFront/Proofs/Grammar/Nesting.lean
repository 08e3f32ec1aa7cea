import Mathlib.Order.Bounds.Basic
import ExprFront.Grammar.Parse
import ExprFront.Proofs.Number.Integer

/-!
Places in an expression and the limits on them.

* `DepthLimit.Covers`: a limit allows each of the next so many levels below a depth. For a whole
  number this is one inequality (`covers_ofInt`), and `allows_ofInt` compares one depth with it. A
  limit that keeps to some depth can be written (`exists_text?`).
* `Limits.obstacle?`: what keeps a place from being entered, the depth limit before the stack;
  `Nesting.deeper_eq` reads the step to a deeper place off it.
-/

namespace ExprFront

/-! ### Depth limits -/

namespace DepthLimit

/-- A whole number as a limit allows the depths up to it. -/
lemma allows_ofInt {d : Int} {depth : Nat} : (ofInt d).allows depth = true ↔ (depth : Int) ≤ d := by
  have h : (ofInt d).allows depth = !decide (d < depth) :=
    congrArg (!·) (Quantity.below_ofInt d depth)
  rw [h, Bool.not_eq_true', decide_eq_false_iff_not, not_lt]

/-- A whole number is a depth limit if it is not below one. -/
lemma ofValue?_int (n : Int) :
    ofValue? (.scalar (.int n)) =
      if n < 1 then .error (.belowOne (.int n)) else .ok (ofInt n) := by
  have h : Quantity.below (.ofInt n) (.ofInt 1) = decide (n < 1) := Quantity.below_ofInt n 1
  rw [ofValue?, Scalar.quantity?]
  dsimp only
  rw [h]
  by_cases hn : n < 1 <;> simp [hn, ofInt]

/-- A limit allows each of the next levels below a depth. -/
def Covers (limit : DepthLimit) (depth levels : Nat) : Prop :=
  ∀ k, 0 < k → k ≤ levels → limit.allows (depth + k) = true

lemma covers_zero (limit : DepthLimit) (depth : Nat) : limit.Covers depth 0 := by
  intro k hk hle
  omega

lemma Covers.mono {limit : DepthLimit} {depth m n : Nat} (h : limit.Covers depth n)
    (hmn : m ≤ n) : limit.Covers depth m := fun k hk hle => h k hk (hle.trans hmn)

lemma covers_max {limit : DepthLimit} {depth m n : Nat} :
    limit.Covers depth (max m n) ↔ limit.Covers depth m ∧ limit.Covers depth n := by
  constructor
  · exact fun h => ⟨h.mono (le_max_left m n), h.mono (le_max_right m n)⟩
  · rintro ⟨hm, hn⟩ k hk hle
    by_cases h : k ≤ m
    · exact hm k hk h
    · exact hn k hk (by omega)

/-- One level more is the next level and all those below it. -/
lemma covers_succ {limit : DepthLimit} {depth levels : Nat} :
    limit.Covers depth (levels + 1) ↔
      limit.allows (depth + 1) = true ∧ limit.Covers (depth + 1) levels := by
  constructor
  · intro h
    refine ⟨h 1 (by omega) (by omega), fun k hk hle => ?_⟩
    rw [show depth + 1 + k = depth + (k + 1) by omega]
    exact h (k + 1) (by omega) (by omega)
  · rintro ⟨h1, h⟩ k hk hle
    by_cases hk1 : k = 1
    · rw [hk1]
      exact h1
    · have h2 := h (k - 1) (by omega) (by omega)
      rwa [show depth + 1 + (k - 1) = depth + k by omega] at h2

lemma covers_ofInt {d : Int} {depth levels : Nat} :
    (ofInt d).Covers depth levels ↔ levels = 0 ∨ ((depth + levels : Nat) : Int) ≤ d := by
  constructor
  · intro h
    by_cases h0 : levels = 0
    · exact Or.inl h0
    · exact Or.inr (allows_ofInt.mp (h levels (by omega) le_rfl))
  · rintro (h | h) k hk hle
    · omega
    · exact allows_ofInt.mpr (by omega)

/-- A limit that keeps to a depth that can be written can be written itself. Only a whole number far
below all depths cannot, and it does not even allow the first one. -/
lemma exists_text? {limit : DepthLimit} {depth : Nat} (hfirst : limit.allows 1 = true)
    (hdeep : limit.allows depth = false) (hd : depth < Integer.textBound) :
    ∃ text, limit.text? = some text := by
  obtain ⟨value⟩ := limit
  cases value with
  | int n =>
      have h1 : ((1 : Nat) : Int) ≤ n := allows_ofInt.mp hfirst
      have hn : ¬(depth : Int) ≤ n := by
        rw [← allows_ofInt, ofInt, hdeep]
        exact Bool.false_ne_true
      exact ⟨toString n, Integer.text?_eq_some_iff.mpr ⟨by omega, rfl⟩⟩
  | nil => exact ⟨_, rfl⟩
  | truth b => exact ⟨_, rfl⟩
  | double x => exact ⟨_, rfl⟩
  | text s => exact ⟨_, rfl⟩

end DepthLimit

/-- A whole number that can be written is in the message of a nesting that is too deep. -/
lemma Cause.message_tooDeep {d : Int} (h : Integer.text? d ≠ none) :
    (Cause.tooDeep (.int d)).message =
      "Expression nesting exceeds maximum depth of " ++ toString d ++ "." := by
  obtain ⟨text, htext⟩ := Option.ne_none_iff_exists'.mp h
  have hplain : (Scalar.int d).plain? = some (toString d) := by
    rw [(Integer.text?_eq_some_iff.mp htext).2]
    exact htext
  rw [message, hplain]

/-- The depths that the stack holds can be written. -/
lemma stackFrames_lt_textBound : stackFrames < Integer.textBound :=
  Integer.lt_textBound (show stackFrames < 10 ^ 4 by decide) (by decide)

/-! ### Places -/

/-- What keeps a place from being entered: it is too deep, or the stack has no room for it. -/
def Limits.obstacle? (limits : Limits) (n : Nesting) : Option Obstacle :=
  if limits.depth.allows n.depth then if limits.stack ≤ n.frames then some .stackFull else none
  else some (.fault (.tooDeep limits.depth.value))

/-- A place is kept from being entered for one of two reasons, and the depth comes first. -/
lemma Limits.obstacle?_eq_some {limits : Limits} {n : Nesting} {o : Obstacle}
    (h : limits.obstacle? n = some o) :
    (o = .fault (.tooDeep limits.depth.value) ∧ limits.depth.allows n.depth = false) ∨
      (o = .stackFull ∧ limits.depth.allows n.depth = true ∧ limits.stack ≤ n.frames) := by
  rw [obstacle?] at h
  split at h
  · next hd =>
      split at h
      · next hs => exact Or.inr ⟨by simpa using h.symm, hd, hs⟩
      · simp at h
  · next hd => exact Or.inl ⟨by simpa using h.symm, by simpa using hd⟩

/-- A place may be entered if it is not too deep and the stack has room for it. -/
lemma Limits.obstacle?_eq_none {limits : Limits} {n : Nesting} :
    limits.obstacle? n = none ↔ limits.depth.allows n.depth = true ∧ n.frames < limits.stack := by
  rw [obstacle?]
  split
  · next hd => simp [hd]
  · next hd => simp [hd]

namespace Nesting

/-- The place one level deeper, with the frames that this takes. -/
def inner (n : Nesting) (frames : Nat) : Nesting := ⟨n.depth + 1, n.frames + frames⟩

/-- The step to a deeper place succeeds exactly if nothing keeps the place from being entered. -/
lemma deeper_eq (limits : Limits) (n : Nesting) (frames : Nat) (ts : List Token) :
    n.deeper limits frames ts =
      match limits.obstacle? (n.inner frames) with
      | some o => .error ⟨o, ts⟩
      | none => .ok (n.inner frames) := by
  rw [deeper, Limits.obstacle?]
  by_cases hd : limits.depth.allows (n.depth + 1) = true
  · by_cases hs : limits.stack ≤ n.frames + frames <;> simp [inner, hd, hs]
  · simp [inner, hd]

lemma deeper_eq_ok {limits : Limits} {n m : Nesting} {frames : Nat} {ts : List Token}
    (h : n.deeper limits frames ts = .ok m) :
    limits.depth.allows (n.depth + 1) = true ∧ m = n.inner frames := by
  rw [deeper_eq] at h
  split at h
  · simp at h
  · next ho => exact ⟨(Limits.obstacle?_eq_none.mp ho).1, by simpa using h.symm⟩

end Nesting

end ExprFront
