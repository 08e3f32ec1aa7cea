import ExprFront.Proofs.Grammar.Acceptance
import ExprFront.Proofs.Grammar.Resumption

/-!
Faults are found as early as possible.

A list of tokens is viable under a depth limit if some continuation of it is accepted. The scan of a
fragment decides this: a prefix that it gets over is completed by the operand that is due and the
parentheses that are open (`viable_of_advance`), and one that it does not get over has no
continuation (`not_viable_of_step`), since where a scan gets does not depend on the limits. A fault
for the depth comes right after the token that nests, and one more level makes the prefix with it
viable (`viable_of_deeper`). `first_fault_earliest` puts the cases together.
-/

namespace ExprFront

/-- Some continuation is accepted under a depth limit. -/
def Viable (limit : DepthLimit) (us : List Token) : Prop :=
  ∃ vs eof e, eof.isEof = true ∧ Accepts limit (us ++ vs ++ [eof]) e

open Pushdown

section Viability

variable {limits : Limits} {limit : DepthLimit} {us vs : List Token} {t : Token} {s' : Pushdown}
  {o : Obstacle} {e : Expr}

/-! ### Prefixes of what is accepted -/

/-- The scan gets over each part of a fragment that is read. -/
lemma exists_advance_of_fragment_eq_ok (h : fragment limits (us ++ vs) = .ok (e, [])) :
    ∃ s', start.advance limits us = some s' ∧ s'.scan limits vs = .ok () := by
  have hs : scanFragment limits (us ++ vs) = .ok () := exists_fragment_eq_ok_iff.mp ⟨e, [], h⟩
  rw [scanFragment] at hs
  split at hs
  · simp at hs
  · exact exists_advance_of_scan_eq_ok hs

/-- What the scan of a fragment gets over is viable. -/
lemma viable_of_advance (ho : (Limits.withDepth limit).obstacle? outset = none)
    (hus : ∀ t ∈ us, t.isEof = false) (h : start.advance (.withDepth limit) us = some s') :
    Viable limit us := by
  have hscan : scanFragment (.withDepth limit) (us ++ s'.completion) = .ok () := by
    rw [scanFragment, ho]
    exact (scan_append h).trans (scan_completion _ s')
  obtain ⟨e, rest, hf⟩ := exists_fragment_eq_ok_iff.mpr hscan
  obtain ⟨rfl, -⟩ := fragment_eq_ok hf
  refine ⟨s'.completion, ⟨.eof, "", .nil, 1⟩, e, rfl,
    accepts_iff.mpr ⟨⟨⟨.eof, "", .nil, 1⟩, by simp, rfl⟩, ?_⟩⟩
  have hbody : ∀ t ∈ us ++ s'.completion, t.isEof = false := by
    intro t ht
    rcases List.mem_append.mp ht with ht | ht
    · exact hus t ht
    · exact s'.isEof_of_mem_completion ht
  rw [TokenStream.bodyOf_append hbody, TokenStream.bodyOf_cons_of_isEof rfl, List.append_nil]
  exact hf

/-- What the scan of a fragment does not get over is not viable, whatever the limits of the scan
were before the last token. -/
lemma not_viable_of_step (hus : ∀ u ∈ us ++ [t], u.isEof = false)
    (h : start.advance limits us = some s')
    (ht : ∀ s₁, s'.step (.withDepth limit) t ≠ .ok s₁) : ¬Viable limit (us ++ [t]) := by
  rintro ⟨vs, eof, e, -, ha⟩
  have hf := (accepts_iff.mp ha).2
  rw [List.append_assoc, TokenStream.bodyOf_append hus] at hf
  obtain ⟨s₂, hadv, -⟩ := exists_advance_of_fragment_eq_ok hf
  obtain ⟨s₁, h₁, hstep⟩ := advance_append_singleton.mp hadv
  obtain rfl := advance_unique h h₁
  exact ht s₂ hstep

/-- Up to a token that is not taken a list is viable, and with this token under no limit. -/
lemma viable_of_here (ho : (Limits.withDepth limit).obstacle? outset = none)
    (hus : ∀ u ∈ us ++ [t], u.isEof = false) (h : start.advance (.withDepth limit) us = some s')
    (ht : s'.step (.withDepth limit) t = .error (.here o)) :
    Viable limit us ∧ ∀ limit', ¬Viable limit' (us ++ [t]) := by
  refine ⟨viable_of_advance ho (fun u hu => hus u (List.mem_append_left [t] hu)) h, ?_⟩
  intro limit'
  refine not_viable_of_step hus h fun s₁ h₁ => ?_
  rw [step, effect_of_step_eq_here ht] at h₁
  cases h₁

/-- Up to a token that nothing can follow a list is viable, and with this token it is not. -/
lemma viable_of_next (ho : (Limits.withDepth limit).obstacle? outset = none)
    (hus : ∀ u ∈ us ++ [t], u.isEof = false) (h : start.advance (.withDepth limit) us = some s')
    (ht : s'.step (.withDepth limit) t = .error (.next o)) :
    Viable limit us ∧ ¬Viable limit (us ++ [t]) := by
  refine ⟨viable_of_advance ho (fun u hu => hus u (List.mem_append_left [t] hu)) h, ?_⟩
  refine not_viable_of_step hus h fun s₁ h₁ => ?_
  rw [ht] at h₁
  cases h₁

/-- A scan that misses something at the end has not got over a sentence. -/
lemma not_sentence_of_missing (h : start.advance limits us = some s') (hm : s'.missing? = some o) :
    ¬Sentence us e := by
  intro hsent
  have hf : fragment (.roomy (e.nest + 1)) (us ++ []) = .ok (e, []) := by
    rw [List.append_nil]
    exact hsent.fragment_roomy le_rfl
  obtain ⟨s₁, hadv, hend⟩ := exists_advance_of_fragment_eq_ok hf
  obtain rfl := advance_unique h hadv
  rw [scan, hm] at hend
  simp at hend

/-! ### One more level -/

/-- A place may be entered under a greater limit, too. -/
lemma obstacle?_withDepth_succ {d : Int} {place : Nesting}
    (h : (Limits.withDepth (.ofInt d)).obstacle? place = none) :
    (Limits.withDepth (.ofInt (d + 1))).obstacle? place = none := by
  obtain ⟨hd, hs⟩ := Limits.obstacle?_eq_none.mp h
  have hle : (place.depth : Int) ≤ d := DepthLimit.allows_ofInt.mp hd
  exact Limits.obstacle?_eq_none.mpr ⟨DepthLimit.allows_ofInt.mpr (by omega), hs⟩

/-- Where the next place is one level too deep, one more level makes the token that leads to it
viable, if the stack holds. -/
lemma viable_of_deeper {d : Int} {place : Nesting} {s₁ : Pushdown}
    (ho : (Limits.withDepth (.ofInt d)).obstacle? outset = none)
    (hus : ∀ u ∈ us ++ [t], u.isEof = false)
    (h : start.advance (.withDepth (.ofInt d)) us = some s') (he : s'.effect t = .enter place s₁)
    (hs : StackHolds (.withDepth (.ofInt (d + 1))) (us ++ t :: vs)) :
    Viable (.ofInt (d + 1)) (us ++ [t]) := by
  have ho' := obstacle?_withDepth_succ ho
  have hadv := advance_mono (fun _ => obstacle?_withDepth_succ) h
  -- the places of the state are within the limit, so the next one exceeds it by one at most
  have hstart : start.Everywhere fun n => (n.depth : Int) ≤ d := by
    intro n hn
    obtain rfl : n = outset := by simpa [places, start] using hn
    exact DepthLimit.allows_ofInt.mp (Limits.obstacle?_eq_none.mp ho).1
  have hdepth := advance_everywhere (fun n frames _ _ hn =>
    DepthLimit.allows_ofInt.mp (Limits.obstacle?_eq_none.mp hn).1) hstart h
  obtain ⟨-, ⟨n, hn, frames, -, rfl⟩, -⟩ := fits_of_effect_eq he
  have hallow : (DepthLimit.ofInt (d + 1)).allows (n.inner frames).depth = true := by
    have hle := hdepth n hn
    refine DepthLimit.allows_ofInt.mpr ?_
    simp only [Nesting.inner]
    omega
  have hstep : s'.step (.withDepth (.ofInt (d + 1))) t = .ok s₁ := by
    rw [step, he, Effect.under]
    split
    · next o hob =>
        rcases Limits.obstacle?_eq_some hob with ⟨-, hd⟩ | ⟨rfl, -, -⟩
        · rw [Limits.withDepth, hallow] at hd
          cases hd
        · refine absurd ?_ (hs vs)
          rw [fragment_eq_error_iff, scanFragment, ho']
          refine (scan_append hadv).trans ?_
          rw [scan, step, he, Effect.under, hob]
    · rfl
  exact viable_of_advance ho' hus (advance_append_singleton.mpr ⟨s', hadv, hstep⟩)

end Viability

/-- The tokens that nest. -/
lemma type_of_effect_eq_enter {t : Token} {s s' : Pushdown} {place : Nesting}
    (h : s.effect t = .enter place s') :
    t.type = .leftParen ∨ t.type = .bang ∨ t.type = .minus := by
  rcases (fits_of_effect_eq h).1 with ht | ht
  · exact Or.inl ht
  · right
    cases hty : t.type <;> simp [hty, TokenType.isUnary] at ht ⊢

/-! ### Where faults are found -/

/-- **Earliest faults**: let the first fault of a parse under a whole number as depth limit be at
position `k`, with room on the stack. If it is not for the depth, the tokens before it are viable
and those up to it are not under any limit; at the end of the input this means that they are no
sentence. If it is for the depth, it comes after an opening parenthesis or a unary operator. Then
the tokens before this one are viable, and with it they are not, but under the next limit they
are. The faults are those of a parse with a cursor, wherever the cursor is before. -/
theorem first_fault_earliest {d : Int} {ts : List Token} {s : TokenStream} (hd : 1 ≤ d)
    (hs : TokenStream.ofList? ts = some s)
    (hstack : d ≤ 64 ∨ StackHolds (.withDepth (.ofInt d)) (TokenStream.bodyOf ts))
    (hfaults : (s.parse (.withDepth (.ofInt d))).faults ≠ []) :
    (∀ start, Descent.parse ⟨ts, .withDepth (.ofInt d)⟩ start =
        s.parseOutcome (s.parse (.withDepth (.ofInt d)))) ∧
      ∃ o k c t, s.firstObstacle? (.withDepth (.ofInt d)) = some (o, k) ∧
        (s.parse (.withDepth (.ofInt d))).faults.head? = some ⟨c, t⟩ ∧ ts[k]? = some t ∧
        (c.kind ≠ .recursionLimit →
          Viable (.ofInt d) (ts.take k) ∧
            if t.isEof then ∀ e, ¬Sentence (ts.take k) e
            else ∀ limit, ¬Viable limit (ts.take (k + 1))) ∧
        (c.kind = .recursionLimit →
          ∃ u, 1 ≤ k ∧ ts[k - 1]? = some u ∧
            (u.type = .leftParen ∨ u.type = .bang ∨ u.type = .minus) ∧
            Viable (.ofInt d) (ts.take (k - 1)) ∧ ¬Viable (.ofInt d) (ts.take k) ∧
            (d ≤ 64 ∨ StackHolds (.withDepth (.ofInt (d + 1))) (TokenStream.bodyOf ts) →
              Viable (.ofInt (d + 1)) (ts.take k))) := by
  obtain ⟨⟨o, rest⟩, c, us, hf, hc, hus, hfirst, hhead⟩ := exists_first_failure hfaults
  have hts := TokenStream.eq_of_body_eq hs hus
  have ho := obstacle?_outset hd
  have hscan : start.scan (.withDepth (.ofInt d)) s.body = .error ⟨o, rest⟩ := by
    have h := fragment_eq_error_iff.mp hf
    rwa [scanFragment, ho] at h
  have htake : ts.take us.length = us := by rw [hts, List.take_left]
  have hget : ts[us.length]? = some (rest.headD s.eof) := by
    rw [hts]
    exact Recovery.getElem?_length_append us rest s.after s.eof
  rw [← TokenStream.body_eq_bodyOf hs] at hstack ⊢
  have hbody : ∀ t ∈ us ++ rest, t.isEof = false := hus ▸ s.body_not_eof
  refine ⟨parse_of_ofList? hs, o, us.length, c, rest.headD s.eof, hfirst, hhead, hget, ?_⟩
  obtain ⟨vs, s', hadv, hcases⟩ := scan_eq_error hscan
  rcases hcases with ⟨hvs, rfl, hm⟩ | ⟨t, more, rfl, hvs, hstep⟩ | ⟨t, hvs, hstep⟩
  · -- something is missing at the end
    obtain rfl : us = vs := by rw [← hvs, hus, List.append_nil]
    obtain ⟨c', rfl, hkind⟩ := missing?_eq_some hm
    obtain rfl : c' = c := Except.ok.inj hc
    refine ⟨fun _ => ?_, fun hk => absurd hk hkind⟩
    rw [htake, List.headD_nil, if_pos s.eof_isEof]
    exact ⟨viable_of_advance ho (by simpa using hbody) hadv,
      fun e => not_sentence_of_missing hadv hm⟩
  · -- the next token is not taken
    obtain rfl : us = vs := List.append_cancel_right (hus.symm.trans hvs)
    obtain ⟨c', rfl, hkind⟩ := exists_cause_of_here hstep
    obtain rfl : c' = c := Except.ok.inj hc
    refine ⟨fun _ => ?_, fun hk => absurd hk hkind⟩
    have ht : ¬t.isEof = true := by simpa using hbody t (by simp)
    have hts' : ts = us ++ [t] ++ (more ++ s.eof :: s.after) := by
      rw [hts]
      simp
    have htake' : ts.take (us.length + 1) = us ++ [t] := by
      rw [hts', ← List.length_singleton (a := t), ← List.length_append, List.take_left]
    rw [htake, htake', List.headD_cons, if_neg ht]
    rw [List.append_cons] at hbody
    exact viable_of_here ho (fun u hu => hbody u (List.mem_append_left more hu)) hadv hstep
  · -- nothing can follow the last token
    obtain rfl : us = vs ++ [t] := by
      rw [List.append_cons] at hvs
      exact List.append_cancel_right (hus.symm.trans hvs)
    rcases step_eq_next_cases hstep with ⟨k, rfl, -⟩ | ⟨place, s₁, he, ⟨rfl, -⟩ | ⟨rfl, -, -⟩⟩
    · cases hc
    · obtain rfl := Except.ok.inj hc
      refine ⟨fun hk => absurd rfl hk, fun _ => ?_⟩
      have hpred : (vs ++ [t]).length - 1 = vs.length := by simp
      have hts' : ts = vs ++ (t :: rest ++ s.eof :: s.after) := by simpa using hts
      have htake' : ts.take vs.length = vs := by rw [hts', List.take_left]
      have hbody' : ∀ u ∈ vs ++ [t], u.isEof = false :=
        fun u hu => hbody u (List.mem_append_left rest hu)
      obtain ⟨hviable, hnot⟩ := viable_of_next ho hbody' hadv hstep
      rw [htake, hpred, htake']
      refine ⟨t, by simp, ?_, type_of_effect_eq_enter he, hviable, hnot, fun hstack' => ?_⟩
      · rw [hts']
        exact Recovery.getElem?_length_append vs (t :: rest) s.after s.eof
      · have hroom : StackHolds (.withDepth (.ofInt (d + 1))) (vs ++ t :: rest) := by
          rw [← hvs]
          exact hstack'.elim (fun hle => stackHolds_of_le (by omega) _) id
        exact viable_of_deeper ho hbody' hadv he hroom
    · have hroom : StackHolds (.withDepth (.ofInt d)) s.body :=
        hstack.elim (fun hle => stackHolds_of_le (by omega) _) id
      exact absurd hf (hroom rest)

/-- A negation under the limit 1: nothing can follow its operator, which the limit 2 allows. -/
theorem negation_fault_earliest :
    let bang : Token := ⟨.bang, "!", .nil, 1⟩
    Viable (.ofInt 1) [] ∧ ¬Viable (.ofInt 1) [bang] ∧ Viable (.ofInt 2) [bang] := by
  intro bang
  have hs : TokenStream.ofList? [bang, operandToken, ⟨.eof, "", .nil, 1⟩] =
      some ⟨[bang, operandToken], ⟨.eof, "", .nil, 1⟩, [], by decide, rfl⟩ := rfl
  obtain ⟨-, o, k, c, t, hfirst, hhead, -, -, hdeep⟩ :=
    first_fault_earliest (d := 1) le_rfl hs (Or.inl (by decide)) (List.cons_ne_nil _ _)
  obtain rfl : k = 1 := (congrArg Prod.snd (Option.some.inj hfirst)).symm
  obtain rfl : c = .tooDeep (.int 1) := (congrArg Fault.cause (Option.some.inj hhead)).symm
  obtain ⟨u, -, -, -, hbefore, hnot, hnext⟩ := hdeep rfl
  exact ⟨hbefore, hnot, hnext (Or.inl (by decide))⟩

end ExprFront
