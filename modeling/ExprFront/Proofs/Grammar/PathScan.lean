import Mathlib.Algebra.GroupWithZero.Nat
import ExprFront.Proofs.Grammar.DepthScan

/-!
What is pending along a fragment, and the frames that it takes.

`PathScan.run` goes over tokens from left to right and keeps the path of opening parentheses and
unary operators that are pending, whatever the limits are. It is the scan of places with a path for
each place (`PathScan.pushdown`): a place is as deep as its path is long, and takes the frames of
all tokens of the path (`Nesting.below`). So a fragment finds the stack full exactly after the
tokens at the end of which the frames of the path first reach the size of the stack
(`filledBy_of_fragment`, `fragment_of_filledBy`), and a stack with the frames of a parenthesis for
each token is never full (`stackHolds_of_length`).
-/

namespace ExprFront

/-! ### Paths -/

/-- The frames that an opening parenthesis or a unary operator takes while it is pending. -/
def TokenOf.frames (t : Token) : ℕ :=
  if t.type = .leftParen then Nesting.parenthesisFrames else Nesting.operatorFrames

/-- The frames of all tokens of a path. -/
def pathFrames (path : List Token) : ℕ := (path.map TokenOf.frames).sum

lemma TokenOf.frames_le (t : Token) : t.frames ≤ Nesting.parenthesisFrames := by
  rw [frames]
  split <;> decide

/-- No token of a path takes more frames than a parenthesis. -/
lemma pathFrames_le (path : List Token) :
    pathFrames path ≤ Nesting.parenthesisFrames * path.length := by
  induction path with
  | nil => exact Nat.zero_le _
  | cons t path ih =>
      have ht := t.frames_le
      simp only [pathFrames, List.map_cons, List.sum_cons, List.length_cons, Nat.mul_succ] at ih ⊢
      omega

/-- Where a scan stands, with the tokens that are pending there, from the outermost on. -/
inductive PathScan where
  /-- An operand is due below a path. The expression around it is below `base`, and `outer` has the
  paths of those around the open parentheses. -/
  | operand (path base : List Token) (outer : List (List Token))
  /-- An operand is complete. -/
  | after (base : List Token) (outer : List (List Token))
  /-- The expression is complete, with a semicolon. -/
  | closed

namespace PathScan

/-- What is pending. -/
def path : PathScan → List Token
  | .operand path _ _ => path
  | .after base _ => base
  | .closed => []

/-- All paths that are kept. -/
def paths : PathScan → List (List Token)
  | .operand path base outer => path :: base :: outer
  | .after base outer => base :: outer
  | .closed => []

/-- The scan over a token that is no binary operator, where an operand is complete. -/
def closingStep : List (List Token) → Token → Option PathScan
  | around :: outer, t => if t.type = .rightParen then some (.after around outer) else none
  | [], t => if t.type = .semicolon then some .closed else none

/-- The scan over one token, if it is taken. -/
def step : PathScan → Token → Option PathScan
  | .operand path base outer, t =>
    if t.type.isOperand then some (.after base outer)
    else if t.type = .leftParen then
      some (.operand (path ++ [t]) (path ++ [t]) (base :: outer))
    else if t.type.isUnary then some (.operand (path ++ [t]) base outer)
    else none
  | .after base outer, t =>
    if t.type.isBinary then some (.operand base base outer) else closingStep outer t
  | .closed, _ => none

/-- The scan over tokens, if all of them are taken. -/
def run : PathScan → List Token → Option PathScan
  | q, [] => some q
  | q, t :: ts =>
    match q.step t with
    | some q' => q'.run ts
    | none => none

/-- Before the first token nothing is pending. -/
def start : PathScan := .operand [] [] []

end PathScan

/-- What is pending after tokens takes all frames of the stack, but not before the last one of them,
and the depth limit allows it all along. -/
def Limits.FilledBy (limits : Limits) (us : List Token) : Prop :=
  (∃ q, PathScan.start.run us = some q ∧ limits.depth.allows (q.path.length + 1) = true ∧
    limits.stack ≤ pathFrames q.path) ∧
  ∀ vs q, vs <+: us → vs ≠ us → PathScan.start.run vs = some q →
    limits.depth.allows (q.path.length + 1) = true ∧ pathFrames q.path < limits.stack

/-! ### Places below paths -/

/-- The place below a path: one level below the outset for each of its tokens, with the frames of
all of them. -/
def Nesting.below (path : List Token) : Nesting := ⟨path.length + 1, pathFrames path⟩

lemma Nesting.below_append_singleton (path : List Token) (t : Token) :
    Nesting.below (path ++ [t]) = (Nesting.below path).inner t.frames := by
  simp [below, inner, pathFrames]

namespace PathScan

open Pushdown

/-- The places below the paths. -/
def pushdown : PathScan → Pushdown
  | .operand path base outer =>
    .operand (Nesting.below path) (Nesting.below base) (outer.map Nesting.below)
  | .after base outer => .after (Nesting.below base) (outer.map Nesting.below)
  | .closed => .closed

variable {q q' : PathScan} {t : Token} {us vs : List Token} {limits : Limits} {s : Pushdown}

lemma path_mem_paths (q : PathScan) : q.path = [] ∨ q.path ∈ q.paths := by
  cases q with
  | operand path base outer => exact Or.inr List.mem_cons_self
  | after base outer => exact Or.inr List.mem_cons_self
  | closed => exact Or.inl rfl

lemma places_pushdown (q : PathScan) : q.pushdown.places = q.paths.map Nesting.below := by
  cases q <;> rfl

/-- What a step on paths says of the effect of the token on the places. A token that is not taken is
refused. One that is taken leads to the places below the next paths; these are paths from before, or
there is a longer one, below which the effect enters. -/
def Mirrors (q : PathScan) (t : Token) : Option PathScan → Effect → Prop
  | none, e => ∃ o, e = .refuse (.here o)
  | some q', .go s => s = q'.pushdown ∧ ∀ path ∈ q'.paths, path ∈ q.paths
  | some q', .enter place s =>
    place = .below q'.path ∧ s = q'.pushdown ∧ ∃ path ∈ q.paths, q'.path = path ++ [t] ∧
      ∀ path ∈ q'.paths, path = q'.path ∨ path ∈ q.paths
  | some _, .refuse _ => False

lemma operand_mirrors (path base : List Token) (outer : List (List Token)) (ht : t.Admissible) :
    (operand path base outer).Mirrors t ((operand path base outer).step t)
      (operandEffect (.below path) (.below base) (outer.map Nesting.below) t) := by
  rw [step, operandEffect]
  by_cases ho : t.type.isOperand = true
  · obtain ⟨v, hv⟩ := exists_literal?_eq ht ho
    rw [if_pos ho, hv]
    exact ⟨rfl, fun p hp => List.mem_cons_of_mem path hp⟩
  · rw [if_neg ho, literal?_eq_none (by simpa using ho)]
    have hbelow := (Nesting.below_append_singleton path t).symm
    by_cases hp : t.type = .leftParen
    · rw [TokenOf.frames, if_pos hp] at hbelow
      simp only [if_pos hp, hbelow]
      refine ⟨rfl, rfl, path, List.mem_cons_self, rfl, ?_⟩
      simp +contextual [paths, PathScan.path]
    · rw [TokenOf.frames, if_neg hp] at hbelow
      simp only [if_neg hp, hbelow]
      by_cases hu : t.type.isUnary = true
      · rw [if_pos hu, if_pos hu]
        refine ⟨rfl, rfl, path, List.mem_cons_self, rfl, ?_⟩
        simp +contextual [paths, PathScan.path]
      · rw [if_neg hu, if_neg hu]
        exact ⟨_, rfl⟩

lemma closing_mirrors (base : List Token) (outer : List (List Token)) (t : Token) :
    (after base outer).Mirrors t (closingStep outer t)
      (closingEffect (outer.map Nesting.below) t) := by
  cases outer with
  | nil =>
      rw [closingStep, List.map_nil, closingEffect]
      split
      · exact ⟨rfl, fun p hp => absurd hp List.not_mem_nil⟩
      · exact ⟨_, rfl⟩
  | cons around outer =>
      rw [closingStep, List.map_cons, closingEffect]
      split
      · exact ⟨rfl, fun p hp => List.mem_cons_of_mem base hp⟩
      · exact ⟨_, rfl⟩

lemma effect_mirrors (q : PathScan) (ht : t.Admissible) :
    q.Mirrors t (q.step t) (q.pushdown.effect t) := by
  cases q with
  | operand path base outer => exact operand_mirrors path base outer ht
  | after base outer =>
      rw [step, pushdown, effect]
      split
      · exact ⟨rfl, fun p hp => by simpa [paths] using hp⟩
      · exact closing_mirrors base outer t
  | closed => exact ⟨_, rfl⟩

section Steps

variable (ht : t.Admissible)

include ht

/-- An effect that is no refusal is that of a token that is taken. -/
lemma exists_step_of_effect {e : Effect} (h : q.pushdown.effect t = e)
    (he : ∀ r, e ≠ .refuse r) : ∃ q', q.step t = some q' ∧ q.Mirrors t (some q') e := by
  have hmirrors := effect_mirrors q ht
  rw [h] at hmirrors
  cases hq : q.step t with
  | none =>
      rw [hq] at hmirrors
      obtain ⟨o, ho⟩ := hmirrors
      exact absurd ho (he _)
  | some q' =>
      rw [hq] at hmirrors
      exact ⟨q', rfl, hmirrors⟩

lemma exists_step_of_pushdown (h : q.pushdown.step limits t = .ok s) :
    ∃ q', q.step t = some q' ∧ s = q'.pushdown := by
  rcases step_eq_ok h with he | ⟨place, he, -⟩
  · obtain ⟨q', hq, hs, -⟩ := exists_step_of_effect ht he nofun
    exact ⟨q', hq, hs⟩
  · obtain ⟨q', hq, -, hs, -⟩ := exists_step_of_effect ht he nofun
    exact ⟨q', hq, hs⟩

/-- A token that is taken leads to the places below the next paths, or the place below the longer
path is not entered. -/
lemma step_pushdown (limits : Limits) (h : q.step t = some q') :
    q.pushdown.step limits t = .ok q'.pushdown ∧
        (limits.obstacle? (.below q'.path) = none ∨ ∀ path ∈ q'.paths, path ∈ q.paths) ∨
      ∃ o, limits.obstacle? (.below q'.path) = some o ∧
        q.pushdown.step limits t = .error (.next o) := by
  have hmirrors := effect_mirrors q ht
  rw [h] at hmirrors
  cases he : q.pushdown.effect t with
  | go s =>
      rw [he] at hmirrors
      obtain ⟨rfl, hpaths⟩ := hmirrors
      exact Or.inl ⟨by rw [Pushdown.step, he]; rfl, Or.inr hpaths⟩
  | enter place s =>
      rw [he] at hmirrors
      obtain ⟨rfl, rfl, -⟩ := hmirrors
      rw [Pushdown.step, he, Effect.under]
      cases ho : limits.obstacle? (.below q'.path) with
      | none => exact Or.inl ⟨rfl, Or.inl rfl⟩
      | some o => exact Or.inr ⟨o, rfl, rfl⟩
  | refuse r =>
      rw [he] at hmirrors
      exact hmirrors.elim

/-- The paths after a token are those from before, and one that is longer by the token. -/
lemma paths_of_step (h : q.step t = some q') :
    ∀ p ∈ q'.paths, p ∈ q.paths ∨ ∃ path ∈ q.paths, p = path ++ [t] := by
  have hmirrors := effect_mirrors q ht
  rw [h] at hmirrors
  cases he : q.pushdown.effect t with
  | go s =>
      rw [he] at hmirrors
      exact fun p hp => Or.inl (hmirrors.2 p hp)
  | enter place s =>
      rw [he] at hmirrors
      obtain ⟨-, -, path, hpath, hlonger, hall⟩ := hmirrors
      intro p hp
      rcases hall p hp with rfl | hp
      · exact Or.inr ⟨path, hpath, hlonger⟩
      · exact Or.inl hp
  | refuse r =>
      rw [he] at hmirrors
      exact hmirrors.elim

end Steps

/-! ### Runs -/

lemma run_append_singleton :
    q.run (us ++ [t]) = some q' ↔ ∃ q₁, q.run us = some q₁ ∧ q₁.step t = some q' := by
  induction us generalizing q with
  | nil =>
      rw [List.nil_append, run]
      cases hq : q.step t <;> simp [run, hq]
  | cons u us ih =>
      rw [List.cons_append, run, run]
      cases q.step u with
      | none => simp
      | some q₁ => exact ih

/-- No path is longer than the tokens that are read. -/
lemma length_le_of_run {k : ℕ} (hq : ∀ path ∈ q.paths, path.length ≤ k)
    (hus : ∀ u ∈ us, u.Admissible) (h : q.run us = some q') :
    ∀ path ∈ q'.paths, path.length ≤ k + us.length := by
  induction us generalizing q k with
  | nil =>
      obtain rfl := Option.some.inj h
      exact hq
  | cons t us ih =>
      rw [List.forall_mem_cons] at hus
      rw [run] at h
      split at h
      · next q₁ hstep =>
          have hlonger : ∀ path ∈ q₁.paths, path.length ≤ k + 1 := by
            intro p hp
            rcases paths_of_step hus.1 hstep p hp with hp | ⟨path, hpath, rfl⟩
            · exact (hq p hp).trans (Nat.le_succ k)
            · rw [List.length_append]
              exact Nat.succ_le_succ (hq path hpath)
          intro path hpath
          have hle := ih hlonger hus.2 h path hpath
          rw [List.length_cons]
          omega
      · cases h

lemma path_length_le (hus : ∀ u ∈ us, u.Admissible) (h : PathScan.start.run us = some q) :
    q.path.length ≤ us.length := by
  rcases q.path_mem_paths with hnil | hmem
  · rw [hnil]
    exact Nat.zero_le _
  · have hle := length_le_of_run (k := 0) (by simp [PathScan.start, paths]) hus h _ hmem
    rwa [Nat.zero_add] at hle

/-- Where the scan of places gets through, so does the one of paths, with the places below them. -/
lemma run_of_advance (hus : ∀ u ∈ us, u.Admissible) (h : q.pushdown.advance limits us = some s) :
    ∃ q', q.run us = some q' ∧ s = q'.pushdown := by
  induction us generalizing q with
  | nil => exact ⟨q, rfl, (Option.some.inj h).symm⟩
  | cons t us ih =>
      rw [List.forall_mem_cons] at hus
      rw [advance] at h
      split at h
      · next s₁ hstep =>
          obtain ⟨q₁, hq, rfl⟩ := exists_step_of_pushdown hus.1 hstep
          rw [run, hq]
          exact ih hus.2 h
      · cases h

/-- Where the scan of paths gets through within the limits, so does the one of places. -/
lemma advance_of_run (hus : ∀ u ∈ us, u.Admissible) (h : q.run us = some q')
    (hlimits : ∀ vs q₁, vs <+: us → vs ≠ [] → q.run vs = some q₁ →
      limits.obstacle? (.below q₁.path) = none) :
    q.pushdown.advance limits us = some q'.pushdown := by
  induction us generalizing q with
  | nil =>
      obtain rfl := Option.some.inj h
      rfl
  | cons t us ih =>
      rw [List.forall_mem_cons] at hus
      rw [run] at h
      split at h
      · next q₁ hstep =>
          have hrun (vs : List Token) : q.run (t :: vs) = q₁.run vs := by rw [run, hstep]
          have hnone := hlimits [t] q₁ (by simp) (List.cons_ne_nil t []) (hrun [])
          rcases step_pushdown hus.1 limits hstep with ⟨hok, -⟩ | ⟨o, ho, -⟩
          · rw [advance, hok]
            refine ih hus.2 h fun vs q₂ hvs _ hq₂ => ?_
            exact hlimits (t :: vs) q₂ (List.cons_prefix_cons.mpr ⟨rfl, hvs⟩)
              (List.cons_ne_nil t vs) ((hrun vs).trans hq₂)
          · cases hnone.symm.trans ho
      · cases h

lemma exists_advance_of_append {s' : Pushdown} (h : s.advance limits (us ++ vs) = some s') :
    ∃ s₁, s.advance limits us = some s₁ := by
  induction us generalizing s with
  | nil => exact ⟨s, rfl⟩
  | cons t us ih =>
      rw [List.cons_append, advance] at h
      split at h
      · next s₁ hstep =>
          rw [advance, hstep]
          exact ih h
      · cases h

/-- All along a scan of places that gets through, the paths are within the limits. -/
lemma within_of_advance (houtset : limits.obstacle? outset = none)
    (h : PathScan.start.pushdown.advance limits us = some q.pushdown) :
    (∀ path ∈ q.paths, limits.obstacle? (.below path) = none) ∧
      limits.obstacle? (.below q.path) = none := by
  have hstart : PathScan.start.pushdown.Everywhere fun n => limits.obstacle? n = none := by
    intro n hn
    obtain rfl : n = .below [] := by simpa [PathScan.start, pushdown, places] using hn
    exact houtset
  have hall := advance_everywhere (fun n frames _ _ hn => hn) hstart h
  have hpaths (path : List Token) (hpath : path ∈ q.paths) :
      limits.obstacle? (.below path) = none :=
    hall _ (places_pushdown q ▸ List.mem_map_of_mem hpath)
  refine ⟨hpaths, ?_⟩
  rcases q.path_mem_paths with hnil | hmem
  · rw [hnil]
    exact houtset
  · exact hpaths _ hmem

end PathScan

/-! ### Fragments -/

section Fragments

open Pushdown PathScan

variable {limits : Limits} {ts us rest : List Token}

/-- Where a fragment finds the stack full, the tokens up to there fill it. -/
lemma filledBy_of_fragment (hts : ∀ t ∈ ts, t.Admissible)
    (h : fragment limits ts = .error ⟨.stackFull, rest⟩) :
    ∃ us, ts = us ++ rest ∧ limits.FilledBy us := by
  have hs := fragment_eq_error_iff.mp h
  rw [scanFragment] at hs
  split at hs
  · next o ho =>
      obtain ⟨rfl, rfl⟩ : o = .stackFull ∧ ts = rest := by simpa using hs
      rcases Limits.obstacle?_eq_some ho with ⟨ho, -⟩ | ⟨-, hdepth, hfull⟩
      · cases ho
      · refine ⟨[], rfl, ⟨PathScan.start, rfl, hdepth, hfull⟩, fun vs q hvs hne _ => ?_⟩
        exact absurd (List.prefix_nil.mp hvs) hne
  · next houtset =>
      obtain ⟨us, s', hadv, hcases⟩ := scan_eq_error hs
      rcases hcases with ⟨-, -, hm⟩ | ⟨t, more, -, -, ht⟩ | ⟨t, rfl, ht⟩
      · obtain ⟨c, hc, -⟩ := missing?_eq_some hm
        cases hc
      · obtain ⟨c, hc, -⟩ := exists_cause_of_here ht
        cases hc
      · rw [List.forall_mem_append, List.forall_mem_cons] at hts
        obtain ⟨hus, htadm, -⟩ := hts
        obtain ⟨q, hq, rfl⟩ := run_of_advance (q := PathScan.start) hus hadv
        rcases step_eq_next_cases ht with ⟨k, hk, -⟩ | ⟨place, s₁, he, hcases⟩
        · cases hk
        · obtain ⟨q', hstep, rfl, -⟩ := exists_step_of_effect htadm he fun r hr => by cases hr
          rcases hcases with ⟨hc, -⟩ | ⟨-, hdepth, hfull⟩
          · cases hc
          · refine ⟨us ++ [t], by rw [List.append_assoc]; rfl,
              ⟨q', run_append_singleton.mpr ⟨q, hq, hstep⟩, hdepth, hfull⟩, ?_⟩
            -- before the last token the scan of places gets through
            intro vs q₁ hvs hne hq₁
            obtain ⟨ws, rfl⟩ := (List.prefix_concat_iff.mp hvs).resolve_left hne
            obtain ⟨s₂, hadv₁⟩ := exists_advance_of_append hadv
            obtain ⟨q₂, hq₂, rfl⟩ := run_of_advance (q := PathScan.start)
              (fun u hu => hus u (List.mem_append_left ws hu)) hadv₁
            obtain rfl : q₂ = q₁ := Option.some.inj (hq₂.symm.trans hq₁)
            exact Limits.obstacle?_eq_none.mp (within_of_advance houtset hadv₁).2

/-- Tokens that fill the stack stop a fragment that starts with them. -/
lemma fragment_of_filledBy (hus : ∀ u ∈ us, u.Admissible) (h : limits.FilledBy us)
    (rest : List Token) : fragment limits (us ++ rest) = .error ⟨.stackFull, rest⟩ := by
  obtain ⟨⟨q, hq, hdepth, hfull⟩, hbefore⟩ := h
  refine fragment_eq_error_iff.mpr ?_
  rw [scanFragment]
  have hwithin (vs : List Token) (q₁ : PathScan) (hvs : vs <+: us) (hne : vs ≠ us)
      (hq₁ : PathScan.start.run vs = some q₁) : limits.obstacle? (.below q₁.path) = none :=
    Limits.obstacle?_eq_none.mpr (hbefore vs q₁ hvs hne hq₁)
  have hnot : limits.obstacle? (.below q.path) = some .stackFull := by
    rw [Limits.obstacle?, Nesting.below, if_pos hdepth, if_pos hfull]
  rcases List.eq_nil_or_concat us with rfl | ⟨us, t, rfl⟩
  · obtain rfl := Option.some.inj hq
    have houtset : limits.obstacle? outset = some .stackFull := hnot
    rw [houtset]
    rfl
  · rw [List.concat_eq_append] at *
    have houtset : limits.obstacle? outset = none :=
      hwithin [] .start List.nil_prefix (by simp) rfl
    obtain ⟨q₁, hq₁, hstep⟩ := run_append_singleton.mp hq
    rw [List.forall_mem_append] at hus
    have hadv : PathScan.start.pushdown.advance limits us = some q₁.pushdown := by
      refine advance_of_run hus.1 hq₁ fun vs q₂ hvs _ hq₂ => ?_
      refine hwithin vs q₂ (hvs.trans (List.prefix_append us [t])) ?_ hq₂
      rintro rfl
      have hle := hvs.length_le
      rw [List.length_append, List.length_singleton] at hle
      omega
    rw [houtset, List.append_assoc]
    refine (scan_append hadv).trans ?_
    rcases step_pushdown (hus.2 t (by simp)) limits hstep with ⟨-, hin⟩ | ⟨o, ho, herror⟩
    · have hnone : limits.obstacle? (.below q.path) = none := by
        rcases hin with hnone | hin
        · exact hnone
        · rcases q.path_mem_paths with hnil | hmem
          · rw [hnil]
            exact houtset
          · exact (within_of_advance houtset hadv).1 _ (hin _ hmem)
      cases hnone.symm.trans hnot
    · obtain rfl : o = .stackFull := Option.some.inj (ho.symm.trans hnot)
      rw [List.singleton_append, scan, herror]

/-- With the frames of a parenthesis for each token, the stack has room. -/
lemma stackHolds_of_length (hts : ∀ t ∈ ts, t.Admissible)
    (h : Nesting.parenthesisFrames * ts.length < limits.stack) : StackHolds limits ts := by
  intro rest hf
  obtain ⟨us, rfl, ⟨q, hq, -, hfull⟩, -⟩ := filledBy_of_fragment hts hf
  rw [List.forall_mem_append] at hts
  have hlen : q.path.length ≤ (us ++ rest).length :=
    (path_length_le hts.1 hq).trans (List.prefix_append us rest).length_le
  have hframes : pathFrames q.path < limits.stack := by
    calc pathFrames q.path
        ≤ Nesting.parenthesisFrames * q.path.length := pathFrames_le q.path
      _ ≤ Nesting.parenthesisFrames * (us ++ rest).length := Nat.mul_le_mul_left _ hlen
      _ < limits.stack := h
  exact absurd hfull (not_le.mpr hframes)

end Fragments

end ExprFront
