import ExprFront.Proofs.Grammar.Pushdown

/-!
Runs of the scan.

* `Pushdown.advance` runs the scan over a prefix; `scan_append` splits a scan at a prefix, and
  `scan_eq_error` locates a failure: at the end, at a token that is refused, or after a token below
  which no place may be entered.
* Limits only decide whether the scan goes on, never where it goes (`advance_unique`), and a token
  that is refused itself is refused under all limits.
* Every state can be completed: `Pushdown.completion` has the operand that is due and a closing
  parenthesis for each open one, and it nests no deeper.
* `effect_fits` says once what a token can do, and `advance_everywhere` what a run can do to the
  places of a state: what carries over to each place that is entered holds of them all.
* A full stack is found at a place where what carries over holds (`exists_of_scan_stackFull`), so
  `scan_stackFull` bounds the frames by the depth: each level of depth takes at most the frames of a
  parenthesis.
-/

namespace ExprFront

namespace Pushdown

/-! ### Prefixes -/

/-- The state after a list of tokens, if none of them is refused. -/
def advance (limits : Limits) : Pushdown → List Token → Option Pushdown
  | s, [] => some s
  | s, t :: ts =>
    match s.step limits t with
    | .ok s' => s'.advance limits ts
    | .error _ => none

variable {limits limits' : Limits} {s s' : Pushdown} {t : Token} {us vs ts rest : List Token}
  {o : Obstacle}

lemma scan_append (h : s.advance limits us = some s') :
    s.scan limits (us ++ vs) = s'.scan limits vs := by
  induction us generalizing s with
  | nil =>
      obtain rfl : s = s' := by simpa [advance] using h
      rfl
  | cons t us ih =>
      rw [advance] at h
      split at h
      · next s₁ hs =>
          rw [List.cons_append, scan, hs]
          exact ih h
      · simp at h

lemma advance_append_singleton :
    s.advance limits (us ++ [t]) = some s' ↔
      ∃ s₁, s.advance limits us = some s₁ ∧ s₁.step limits t = .ok s' := by
  induction us generalizing s with
  | nil =>
      rw [List.nil_append, advance]
      cases hs : s.step limits t with
      | ok s₁ => simp [advance, hs]
      | error r => simp [advance, hs]
  | cons u us ih =>
      rw [List.cons_append, advance, advance]
      cases s.step limits u with
      | ok s₁ => exact ih
      | error r => simp

/-- A scan that succeeds passes over each prefix. -/
lemma exists_advance_of_scan_eq_ok (h : s.scan limits (us ++ vs) = .ok ()) :
    ∃ s', s.advance limits us = some s' ∧ s'.scan limits vs = .ok () := by
  induction us generalizing s with
  | nil => exact ⟨s, rfl, h⟩
  | cons t us ih =>
      rw [List.cons_append, scan] at h
      split at h
      · next s₁ hs =>
          obtain ⟨s', hadv, hrest⟩ := ih h
          exact ⟨s', by rw [advance, hs]; exact hadv, hrest⟩
      · simp at h
      · simp at h

/-- Where a scan fails: something is missing at the end, the next token is not taken, or the last
token is taken and nothing can follow it. -/
lemma scan_eq_error (h : s.scan limits ts = .error ⟨o, rest⟩) :
    ∃ us s', s.advance limits us = some s' ∧
      ((ts = us ∧ rest = [] ∧ s'.missing? = some o) ∨
        (∃ t more, rest = t :: more ∧ ts = us ++ rest ∧
          s'.step limits t = .error (.here o)) ∨
        ∃ t, ts = us ++ t :: rest ∧ s'.step limits t = .error (.next o)) := by
  induction ts generalizing s with
  | nil =>
      refine ⟨[], s, rfl, Or.inl ?_⟩
      rw [scan] at h
      split at h
      · next o' hm =>
          obtain ⟨rfl, rfl⟩ : o' = o ∧ [] = rest := by simpa using h
          exact ⟨rfl, rfl, hm⟩
      · simp at h
  | cons t ts ih =>
      rw [scan] at h
      split at h
      · next s₁ hs =>
          obtain ⟨us, s', hadv, hcases⟩ := ih h
          refine ⟨t :: us, s', by rw [advance, hs]; exact hadv, ?_⟩
          rcases hcases with ⟨rfl, hr, hm⟩ | ⟨u, more, hr, rfl, hu⟩ | ⟨u, rfl, hu⟩
          · exact Or.inl ⟨rfl, hr, hm⟩
          · exact Or.inr (Or.inl ⟨u, more, hr, rfl, hu⟩)
          · exact Or.inr (Or.inr ⟨u, rfl, hu⟩)
      · next o' hs =>
          obtain ⟨rfl, rfl⟩ : o' = o ∧ t :: ts = rest := by simpa using h
          exact ⟨[], s, rfl, Or.inr (Or.inl ⟨t, ts, rfl, rfl, hs⟩)⟩
      · next o' hs =>
          obtain ⟨rfl, rfl⟩ : o' = o ∧ ts = rest := by simpa using h
          exact ⟨[], s, rfl, Or.inr (Or.inr ⟨t, rfl, hs⟩)⟩

/-- A scan that fails leaves a suffix of its tokens. -/
lemma exists_of_scan_eq_error {f : Failure} (h : s.scan limits ts = .error f) :
    ∃ us, ts = us ++ f.rest := by
  obtain ⟨o, rest⟩ := f
  obtain ⟨us, s', -, hcases⟩ := scan_eq_error h
  rcases hcases with ⟨-, hr, -⟩ | ⟨t, more, -, hts, -⟩ | ⟨t, hts, -⟩
  · exact ⟨ts, by simp [hr]⟩
  · exact ⟨us, hts⟩
  · exact ⟨us ++ [t], by rw [hts, List.append_assoc]; rfl⟩

/-! ### What limits decide -/

/-- A step leads where its effect says, and only limits can keep it from doing so. -/
lemma step_eq_ok (h : s.step limits t = .ok s') :
    s.effect t = .go s' ∨
      ∃ place, s.effect t = .enter place s' ∧ limits.obstacle? place = none := by
  rw [step] at h
  cases he : s.effect t with
  | go s₁ =>
      rw [he] at h
      obtain rfl : s₁ = s' := by simpa [Effect.under] using h
      exact Or.inl rfl
  | enter place s₁ =>
      rw [he, Effect.under] at h
      split at h
      · simp at h
      · next ho =>
          obtain rfl : s₁ = s' := by simpa using h
          exact Or.inr ⟨place, rfl, ho⟩
  | refuse r =>
      rw [he] at h
      simp [Effect.under] at h

/-- A token that is not taken is not taken under any limits. -/
lemma effect_of_step_eq_here (h : s.step limits t = .error (.here o)) :
    s.effect t = .refuse (.here o) := by
  rw [step] at h
  cases he : s.effect t with
  | go s₁ =>
      rw [he] at h
      simp [Effect.under] at h
  | enter place s₁ =>
      rw [he, Effect.under] at h
      split at h <;> simp at h
  | refuse r =>
      rw [he] at h
      obtain rfl : r = .here o := by simpa [Effect.under] using h
      rfl

/-- Nothing can follow a token because of its payload, or because of the limits. -/
lemma effect_of_step_eq_next (h : s.step limits t = .error (.next o)) :
    s.effect t = .refuse (.next o) ∨
      ∃ place s', s.effect t = .enter place s' ∧ limits.obstacle? place = some o := by
  rw [step] at h
  cases he : s.effect t with
  | go s₁ =>
      rw [he] at h
      simp [Effect.under] at h
  | enter place s₁ =>
      rw [he, Effect.under] at h
      split at h
      · next o' ho =>
          obtain rfl : o' = o := by simpa using h
          exact Or.inr ⟨place, s₁, rfl, ho⟩
      · simp at h
  | refuse r =>
      rw [he] at h
      obtain rfl : r = .next o := by simpa [Effect.under] using h
      exact Or.inl rfl

lemma step_unique {s₁ s₂ : Pushdown} (h₁ : s.step limits t = .ok s₁)
    (h₂ : s.step limits' t = .ok s₂) : s₁ = s₂ := by
  rcases step_eq_ok h₁ with h | ⟨p, h, -⟩ <;> rcases step_eq_ok h₂ with h' | ⟨p', h', -⟩ <;>
    rw [h] at h'
  · exact Effect.go.inj h'
  · simp at h'
  · simp at h'
  · exact (Effect.enter.inj h').2

/-- Two scans of a prefix that get through it get to the same state, whatever the limits. -/
lemma advance_unique {s₁ s₂ : Pushdown} (h₁ : s.advance limits us = some s₁)
    (h₂ : s.advance limits' us = some s₂) : s₁ = s₂ := by
  induction us generalizing s with
  | nil => exact Option.some.inj (h₁.symm.trans h₂)
  | cons t us ih =>
      rw [advance] at h₁ h₂
      split at h₁
      · next a ha =>
          split at h₂
          · next b hb =>
              obtain rfl := step_unique ha hb
              exact ih h₁ h₂
          · simp at h₂
      · simp at h₁

/-- Limits that keep fewer places from being entered let a scan get as far. -/
lemma step_mono (hl : ∀ place, limits.obstacle? place = none → limits'.obstacle? place = none)
    (h : s.step limits t = .ok s') : s.step limits' t = .ok s' := by
  rw [step]
  rcases step_eq_ok h with he | ⟨place, he, ho⟩
  · rw [he]
    rfl
  · rw [he, Effect.under, hl place ho]

lemma advance_mono (hl : ∀ place, limits.obstacle? place = none → limits'.obstacle? place = none)
    (h : s.advance limits us = some s') : s.advance limits' us = some s' := by
  induction us generalizing s with
  | nil => exact h
  | cons t us ih =>
      rw [advance] at h
      split at h
      · next s₁ hs =>
          rw [advance, step_mono hl hs]
          exact ih h
      · simp at h

/-! ### What a token can do -/

/-- The places that a state holds. -/
def places : Pushdown → List Nesting
  | .operand place base outer => place :: base :: outer
  | .after base outer => base :: outer
  | .closed => []

/-- The frames that a level of nesting may take. -/
def TakesLevel (frames : Nat) : Prop :=
  Nesting.operatorFrames ≤ frames ∧ frames ≤ Nesting.parenthesisFrames

/-- What can be said of the effect of a token on a state. The places are kept, but for the one that
an opening parenthesis or a unary operator enters, right below one of them. A token that is not
taken breaks the grammar, and nothing can follow a token only because of its payload. -/
def Fits (s : Pushdown) (t : Token) : Effect → Prop
  | .go s' => ∀ m ∈ s'.places, m ∈ s.places
  | .enter place s' =>
    (t.type = .leftParen ∨ t.type.isUnary = true) ∧
      (∃ n ∈ s.places, ∃ frames, TakesLevel frames ∧ place = n.inner frames) ∧
      place ∈ s'.places ∧ ∀ m ∈ s'.places, m = place ∨ m ∈ s.places
  | .refuse (.here o) => ∃ c : Cause, o = .fault c ∧ c.kind ≠ .recursionLimit
  | .refuse (.next o) => ∃ kindName, o = .payload kindName ∧ literal? t = some (.error kindName)

lemma closingEffect_fits (base : Nesting) (outer : List Nesting) (t : Token) :
    (after base outer).Fits t (closingEffect outer t) := by
  cases outer with
  | nil =>
      rw [closingEffect]
      split
      · exact fun m hm => absurd hm List.not_mem_nil
      · exact ⟨_, rfl, by decide⟩
  | cons around outer =>
      rw [closingEffect]
      split
      · exact fun m hm => List.mem_cons_of_mem base hm
      · exact ⟨_, rfl, by simp [Cause.kind]⟩

lemma operandEffect_fits (place base : Nesting) (outer : List Nesting) (t : Token) :
    (operand place base outer).Fits t (operandEffect place base outer t) := by
  have hplace : place ∈ (operand place base outer).places := List.mem_cons_self
  rw [operandEffect]
  split
  · exact fun m hm => List.mem_cons_of_mem place hm
  · next kindName hk => exact ⟨kindName, rfl, hk⟩
  · split
    · next ht =>
        refine ⟨Or.inl ht, ⟨place, hplace, _, ⟨by decide, le_rfl⟩, rfl⟩, List.mem_cons_self, ?_⟩
        intro m hm
        rcases List.mem_cons.mp hm with rfl | hm
        · exact Or.inl rfl
        · rcases List.mem_cons.mp hm with rfl | hm
          · exact Or.inl rfl
          · exact Or.inr (List.mem_cons_of_mem place hm)
    · split
      · next ht =>
          refine ⟨Or.inr ht, ⟨place, hplace, _, ⟨le_rfl, by decide⟩, rfl⟩, List.mem_cons_self, ?_⟩
          intro m hm
          rcases List.mem_cons.mp hm with rfl | hm
          · exact Or.inl rfl
          · exact Or.inr (List.mem_cons_of_mem place hm)
      · exact ⟨_, rfl, by decide⟩

lemma effect_fits (s : Pushdown) (t : Token) : s.Fits t (s.effect t) := by
  cases s with
  | operand place base outer => exact operandEffect_fits place base outer t
  | after base outer =>
      rw [effect]
      split
      · intro m hm
        rcases List.mem_cons.mp hm with rfl | hm
        · exact List.mem_cons_self
        · exact hm
      · exact closingEffect_fits base outer t
  | closed => exact ⟨_, rfl, by decide⟩

lemma fits_of_effect_eq {e : Effect} (h : s.effect t = e) : s.Fits t e := by
  rw [← h]
  exact effect_fits s t

/-- What is missing at the end is never room for nesting. -/
lemma missing?_eq_some (h : s.missing? = some o) :
    ∃ c : Cause, o = .fault c ∧ c.kind ≠ .recursionLimit := by
  cases s with
  | operand place base outer =>
      obtain rfl : Obstacle.fault .expectExpression = o := by simpa [missing?] using h
      exact ⟨_, rfl, by decide⟩
  | after base outer =>
      cases outer with
      | nil => simp [missing?] at h
      | cons around outer =>
          obtain rfl : Obstacle.fault (.missingToken ")" "expression") = o := by
            simpa [missing?] using h
          exact ⟨_, rfl, by simp [Cause.kind]⟩
  | closed => simp [missing?] at h

/-- A token that is not taken breaks the grammar; it is not nested too deeply. -/
lemma exists_cause_of_here (h : s.step limits t = .error (.here o)) :
    ∃ c : Cause, o = .fault c ∧ c.kind ≠ .recursionLimit := by
  exact fits_of_effect_eq (effect_of_step_eq_here h)

/-- Nothing can follow a token for three reasons: its payload, the depth and the stack. -/
lemma step_eq_next_cases (h : s.step limits t = .error (.next o)) :
    (∃ kindName, o = .payload kindName ∧ literal? t = some (.error kindName)) ∨
      ∃ place s', s.effect t = .enter place s' ∧
        ((o = .fault (.tooDeep limits.depth.value) ∧ limits.depth.allows place.depth = false) ∨
          (o = .stackFull ∧ limits.depth.allows place.depth = true ∧
            limits.stack ≤ place.frames)) := by
  rcases effect_of_step_eq_next h with he | ⟨place, s', he, ho⟩
  · exact Or.inl (fits_of_effect_eq he)
  · exact Or.inr ⟨place, s', he, Limits.obstacle?_eq_some ho⟩

/-! ### Places along a run -/

/-- The places of a state satisfy a condition. -/
def Everywhere (P : Nesting → Prop) (s : Pushdown) : Prop := ∀ n ∈ s.places, P n

/-- A condition that carries over to each place that is entered is kept by a token. -/
lemma step_everywhere {P : Nesting → Prop}
    (hP : ∀ n frames, P n → TakesLevel frames →
      limits.obstacle? (n.inner frames) = none → P (n.inner frames))
    (hs : s.Everywhere P) (h : s.step limits t = .ok s') : s'.Everywhere P := by
  rcases step_eq_ok h with he | ⟨place, he, ho⟩
  · exact fun m hm => hs m (fits_of_effect_eq he m hm)
  · obtain ⟨-, ⟨n, hn, frames, hfr, rfl⟩, -, hall⟩ := fits_of_effect_eq he
    intro m hm
    rcases hall m hm with rfl | hm
    · exact hP n frames (hs n hn) hfr ho
    · exact hs m hm

/-- A condition that carries over to each place that is entered holds all along a run. -/
lemma advance_everywhere {P : Nesting → Prop}
    (hP : ∀ n frames, P n → TakesLevel frames →
      limits.obstacle? (n.inner frames) = none → P (n.inner frames))
    (hs : s.Everywhere P) (h : s.advance limits us = some s') : s'.Everywhere P := by
  induction us generalizing s with
  | nil =>
      obtain rfl : s = s' := by simpa [advance] using h
      exact hs
  | cons t us ih =>
      rw [advance] at h
      split at h
      · next s₁ hstep => exact ih (step_everywhere hP hs hstep) h
      · simp at h

/-- The frames at a place are no more than parentheses of its depth take. -/
def Bounded (n : Nesting) : Prop :=
  n.frames + Nesting.parenthesisFrames ≤ Nesting.parenthesisFrames * n.depth

lemma bounded_inner {n : Nesting} {frames : Nat} (hn : Bounded n) (hf : TakesLevel frames) :
    Bounded (n.inner frames) := by
  simp only [Bounded, Nesting.inner, TakesLevel, Nesting.parenthesisFrames] at hn hf ⊢
  omega

lemma start_bounded : start.Everywhere Bounded := by
  intro n hn
  obtain rfl : n = outset := by simpa [places, start] using hn
  rw [Bounded]
  decide

/-- A full stack is found at a place that the depth limit allows, and what carries over to each
place that is entered holds there. -/
lemma exists_of_scan_stackFull {P : Nesting → Prop}
    (hP : ∀ n frames, P n → TakesLevel frames → P (n.inner frames))
    (hs : s.Everywhere P) (h : s.scan limits ts = .error ⟨.stackFull, rest⟩) :
    ∃ n, P n ∧ limits.depth.allows n.depth = true ∧ limits.stack ≤ n.frames := by
  obtain ⟨us, s', hadv, hcases⟩ := scan_eq_error h
  have hs' := advance_everywhere (fun n frames hn hf _ => hP n frames hn hf) hs hadv
  rcases hcases with ⟨-, -, hm⟩ | ⟨t, more, -, -, ht⟩ | ⟨t, -, ht⟩
  · obtain ⟨c, hc, -⟩ := missing?_eq_some hm
    cases hc
  · obtain ⟨c, hc, -⟩ := exists_cause_of_here ht
    cases hc
  · rcases step_eq_next_cases ht with ⟨kindName, hk, -⟩ | ⟨place, s₁, he, hcases⟩
    · cases hk
    · obtain ⟨-, ⟨n, hn, frames, hfr, rfl⟩, -⟩ := fits_of_effect_eq he
      rcases hcases with ⟨hd, -⟩ | ⟨-, hallow, hfull⟩
      · cases hd
      · exact ⟨n.inner frames, hP n frames (hs' n hn) hfr, hallow, hfull⟩

/-- A full stack needs depth: some place that the depth limit allows takes all its frames. -/
lemma scan_stackFull (hb : s.Everywhere Bounded)
    (h : s.scan limits ts = .error ⟨.stackFull, rest⟩) :
    ∃ n : Nesting, limits.depth.allows n.depth = true ∧
      limits.stack + Nesting.parenthesisFrames ≤ Nesting.parenthesisFrames * n.depth := by
  obtain ⟨n, hn, hallow, hfull⟩ :=
    exists_of_scan_stackFull (fun n frames hn hf => bounded_inner hn hf) hb h
  refine ⟨n, hallow, ?_⟩
  calc limits.stack + Nesting.parenthesisFrames
      ≤ n.frames + Nesting.parenthesisFrames := Nat.add_le_add_right hfull _
    _ ≤ Nesting.parenthesisFrames * n.depth := hn

/-- Each level of a place takes at least the frames of an operator, and some frames are left. -/
def Shallow (stack : Nat) (n : Nesting) : Prop :=
  Nesting.operatorFrames * n.depth ≤ n.frames + Nesting.operatorFrames ∧ n.frames < stack

lemma shallow_inner (n : Nesting) (frames : Nat) (hn : Shallow limits.stack n)
    (hf : TakesLevel frames) (ho : limits.obstacle? (n.inner frames) = none) :
    Shallow limits.stack (n.inner frames) := by
  refine ⟨?_, (Limits.obstacle?_eq_none.mp ho).2⟩
  simp only [Shallow, Nesting.inner, TakesLevel, Nesting.operatorFrames] at hn hf ⊢
  omega

lemma start_shallow {stack : Nat} (h : 0 < stack) : start.Everywhere (Shallow stack) := by
  intro n hn
  obtain rfl : n = outset := by simpa [places, start] using hn
  exact ⟨by decide, h⟩

/-- A nesting beyond the depth limit is found right below a place where what carries over holds. -/
lemma exists_of_scan_tooDeep {P : Nesting → Prop} {c : Cause}
    (hP : ∀ n frames, P n → TakesLevel frames →
      limits.obstacle? (n.inner frames) = none → P (n.inner frames))
    (hs : s.Everywhere P) (h : s.scan limits ts = .error ⟨.fault c, rest⟩)
    (hc : c.kind = .recursionLimit) :
    c = .tooDeep limits.depth.value ∧ ∃ n, P n ∧ limits.depth.allows (n.depth + 1) = false := by
  obtain ⟨us, s', hadv, hcases⟩ := scan_eq_error h
  have hs' := advance_everywhere hP hs hadv
  rcases hcases with ⟨-, -, hm⟩ | ⟨t, more, -, -, ht⟩ | ⟨t, -, ht⟩
  · obtain ⟨c', heq, hkind⟩ := missing?_eq_some hm
    exact absurd (Obstacle.fault.inj heq ▸ hc) hkind
  · obtain ⟨c', heq, hkind⟩ := exists_cause_of_here ht
    exact absurd (Obstacle.fault.inj heq ▸ hc) hkind
  · rcases step_eq_next_cases ht with ⟨kindName, hk, -⟩ | ⟨place, s₁, he, hcases⟩
    · cases hk
    · obtain ⟨-, ⟨n, hn, frames, -, rfl⟩, -⟩ := fits_of_effect_eq he
      rcases hcases with ⟨heq, hdeep⟩ | ⟨heq, -⟩
      · exact ⟨Obstacle.fault.inj heq, n, hs' n hn, hdeep⟩
      · cases heq

/-! ### Completions -/

/-- A literal. -/
def operandToken : Token := ⟨.nil, "nil", .nil, 1⟩

/-- A closing parenthesis. -/
def closingToken : Token := ⟨.rightParen, ")", .nil, 1⟩

/-- The shortest text that completes a state: the operand that is due, and a closing parenthesis for
each open one. -/
def completion : Pushdown → List Token
  | .operand _ _ outer => operandToken :: outer.map fun _ => closingToken
  | .after _ outer => outer.map fun _ => closingToken
  | .closed => []

lemma scan_closing (limits : Limits) (base : Nesting) (outer : List Nesting) :
    (after base outer).scan limits (outer.map fun _ => closingToken) = .ok () := by
  induction outer generalizing base with
  | nil => rfl
  | cons around outer ih => exact ih around

/-- Every state is completed, under all limits. -/
lemma scan_completion (limits : Limits) (s : Pushdown) :
    s.scan limits s.completion = .ok () := by
  cases s with
  | operand place base outer => exact scan_closing limits base outer
  | after base outer => exact scan_closing limits base outer
  | closed => rfl

/-- A completion goes on to the end of the input. -/
lemma isEof_of_mem_completion (s : Pushdown) (h : t ∈ s.completion) : t.isEof = false := by
  have hmap : ∀ outer : List Nesting, t ∈ outer.map (fun _ => closingToken) → t.isEof = false := by
    intro outer ht
    obtain ⟨_, -, rfl⟩ := List.mem_map.mp ht
    rfl
  cases s with
  | operand place base outer =>
      rcases List.mem_cons.mp h with rfl | h
      · rfl
      · exact hmap outer h
  | after base outer => exact hmap outer h
  | closed => cases h

end Pushdown

end ExprFront
