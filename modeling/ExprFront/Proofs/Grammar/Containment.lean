import ExprFront.Proofs.Grammar.CursorParse

/-!
What can go wrong in a parse.

A parse with a cursor breaks off for one reason only: a rule takes a number or a text whose payload
no literal can hold. Every other break is caught inside the parse or does not come up at all.
`Descent.passed` has the tokens that the rules of a parse pass over, so that `parse_contained` can
say which token it is: the first one among them that is not admissible. Along the scan of a fragment
this is plain, since the scan takes admissible tokens only (`admissible_of_step_eq_ok`).
-/

namespace ExprFront

open TokenStream

/-! ### Admissible tokens -/

section Admissible

variable {limits : Limits} {s s' : Pushdown} {t : Token} {us : List Token}

/-- A token that is not admissible is of a type with a payload, and its payload is refused. -/
lemma TokenOf.literal?_of_not_admissible (h : ¬TokenOf.Admissible t) :
    t.type ∈ [.number, .string] ∧ literal? t = some (.error t.payload.kindName) := by
  rw [TokenOf.Admissible, Classical.not_imp] at h
  obtain ⟨htype, hpayload⟩ := h
  have hmem : t.type ∈ [.number, .string] := List.mem_pair.mpr htype
  refine ⟨hmem, ?_⟩
  rw [literal?_of_payload hmem]
  cases hp : t.payload with
  | scalar v => exact absurd ⟨v, hp⟩ hpayload
  | _ => rfl

/-- A token whose payload is refused is not admissible. -/
lemma TokenOf.not_admissible_of_literal? {kindName : String}
    (h : literal? t = some (.error kindName)) :
    ¬TokenOf.Admissible t ∧ kindName = t.payload.kindName := by
  have hnot : ¬TokenOf.Admissible t := fun ha => ha.literal?_ne kindName h
  refine ⟨hnot, ?_⟩
  have heq := (TokenOf.literal?_of_not_admissible hnot).2
  exact Except.error.inj (Option.some.inj (h.symm.trans heq))

namespace Pushdown

/-- No state takes a token that is not admissible. -/
lemma exists_refusal (h : ¬t.Admissible) (s : Pushdown) : ∃ r, s.effect t = .refuse r := by
  obtain ⟨hmem, hliteral⟩ := TokenOf.literal?_of_not_admissible h
  have htype : ∀ ty ∈ [TokenType.number, .string],
      ty.isBinary = false ∧ ty ≠ .rightParen ∧ ty ≠ .semicolon := by decide
  obtain ⟨hbinary, hparen, hsemicolon⟩ := htype t.type hmem
  cases s with
  | operand place base outer => exact ⟨_, by rw [effect, operandEffect, hliteral]⟩
  | after base outer =>
      rw [effect, if_neg (by simp [hbinary])]
      cases outer with
      | nil => exact ⟨_, if_neg hsemicolon⟩
      | cons around outer => exact ⟨_, if_neg hparen⟩
  | closed => exact ⟨_, rfl⟩

lemma admissible_of_enter {place : Nesting} (h : s.effect t = .enter place s') :
    t.Admissible := by
  by_contra hnot
  obtain ⟨r, hr⟩ := exists_refusal hnot s
  rw [hr] at h
  cases h

lemma admissible_of_step_eq_ok (h : s.step limits t = .ok s') : t.Admissible := by
  rcases step_eq_ok h with he | ⟨place, he, -⟩
  · by_contra hnot
    obtain ⟨r, hr⟩ := exists_refusal hnot s
    rw [hr] at he
    cases he
  · exact admissible_of_enter he

/-- The scan takes admissible tokens only. -/
lemma admissible_of_advance (h : s.advance limits us = some s') : ∀ u ∈ us, u.Admissible := by
  induction us generalizing s with
  | nil => exact fun u hu => absurd hu List.not_mem_nil
  | cons t us ih =>
      rw [advance] at h
      split at h
      · next s₁ hs => exact List.forall_mem_cons.mpr ⟨admissible_of_step_eq_ok hs, ih h⟩
      · cases h

end Pushdown

end Admissible

/-! ### Fragments -/

section Fragments

variable {limits : Limits} {ts : List Token} {e : Expr} {f : Failure}

lemma admissible_of_fragment_eq_ok {rest : List Token} (h : fragment limits ts = .ok (e, rest)) :
    ∀ t ∈ ts, t.Admissible := by
  have hs := exists_fragment_eq_ok_iff.mp ⟨e, rest, h⟩
  rw [Pushdown.scanFragment] at hs
  split at hs
  · cases hs
  · rw [← List.append_nil ts] at hs
    obtain ⟨s', hadv, -⟩ := Pushdown.exists_advance_of_scan_eq_ok hs
    exact Pushdown.admissible_of_advance hadv

/-- A fragment that fails has passed over admissible tokens, but for the last one where the payload
of that one is the obstacle. -/
lemma admissible_of_fragment_eq_error (h : fragment limits ts = .error f) :
    ∃ us, ts = us ++ f.rest ∧
      ((∀ kindName, f.obstacle ≠ .payload kindName) ∧ (∀ u ∈ us, u.Admissible) ∨
        ∃ vs t, us = vs ++ [t] ∧ (∀ u ∈ vs, u.Admissible) ∧ ¬t.Admissible ∧
          f.obstacle = .payload t.payload.kindName) := by
  have hs := fragment_eq_error_iff.mp h
  rw [Pushdown.scanFragment] at hs
  split at hs
  · next o ho =>
      obtain rfl : (⟨o, ts⟩ : Failure) = f := by simpa using hs
      refine ⟨[], rfl, Or.inl ⟨?_, by simp⟩⟩
      rcases Limits.obstacle?_eq_some ho with ⟨rfl, -⟩ | ⟨rfl, -⟩ <;> simp
  · obtain ⟨o, rest⟩ := f
    obtain ⟨us, s', hadv, hcases⟩ := Pushdown.scan_eq_error hs
    have hus := Pushdown.admissible_of_advance hadv
    rcases hcases with ⟨rfl, rfl, hm⟩ | ⟨t, more, -, rfl, ht⟩ | ⟨t, rfl, ht⟩
    · obtain ⟨c, rfl, -⟩ := Pushdown.missing?_eq_some hm
      exact ⟨ts, (List.append_nil ts).symm, Or.inl ⟨by simp, hus⟩⟩
    · obtain ⟨c, rfl, -⟩ := Pushdown.exists_cause_of_here ht
      exact ⟨us, rfl, Or.inl ⟨by simp, hus⟩⟩
    · refine ⟨us ++ [t], by rw [List.append_assoc]; rfl, ?_⟩
      rcases Pushdown.step_eq_next_cases ht with ⟨k, rfl, hk⟩ | ⟨place, s₁, he, hcases⟩
      · obtain ⟨hnot, rfl⟩ := TokenOf.not_admissible_of_literal? hk
        exact Or.inr ⟨us, t, rfl, hus, hnot, rfl⟩
      · have ht : t.Admissible := Pushdown.admissible_of_enter he
        refine Or.inl ⟨?_, List.forall_mem_append.mpr ⟨hus, by simpa using ht⟩⟩
        rcases hcases with ⟨rfl, -⟩ | ⟨rfl, -⟩ <;> simp

end Fragments

/-! ### The tokens that rules pass over -/

/-- The tokens that the rules of a parse pass over, in order, one fragment after the other. Those
that are skipped after a fault are not among them. -/
def Descent.passed (d : Descent) : (steps : Nat) → Cursor → List Token
  | 0, _ => []
  | steps + 1, c =>
    let here := (d.tokens.take (d.fragment c).2.position).drop c.position
    match (d.turn none >>= fun _ => d.atEnd) c with
    | (.ok false, c) => here ++ passed d steps c
    | _ => here

section Passed

variable {s : TokenStream} {limits : Limits} {before : List Fault} {ts us : List Token} {e : Expr}
  {f : Failure} {c : Cause}

/-- The tokens between two rests of the body. -/
lemma TokenStream.between_eq {rest : List Token} (hts : us ++ rest <:+ s.body) :
    (s.toList.take (s.position rest)).drop (s.position (us ++ rest)) = us := by
  obtain ⟨ws, hws⟩ := hts
  have hsplit : s.body = ws ++ us ++ rest := by rw [List.append_assoc, hws]
  rw [position_eq hsplit, position_eq hws.symm, toList, hsplit, List.append_assoc (ws ++ us),
    List.take_left, List.drop_left]

/-- What a fragment passes over, from where it starts to where it leaves the cursor. -/
lemma passed_here {rest : List Token} (hts : ts <:+ s.body) (hus : ts = us ++ rest)
    (h : ((s.descent limits).fragment (s.cursor ts 0 before)).2.position = s.position rest) :
    ((s.descent limits).tokens.take
        ((s.descent limits).fragment (s.cursor ts 0 before)).2.position).drop
      (s.cursor ts 0 before).position = us := by
  rw [h]
  rw [hus] at hts ⊢
  exact between_eq hts

lemma passed_succ_of_ok (hts : ts <:+ s.body) (hf : fragment limits ts = .ok (e, []))
    (steps : Nat) : (s.descent limits).passed (steps + 1) (s.cursor ts 0 before) = ts := by
  have hposition : ((s.descent limits).fragment (s.cursor ts 0 before)).2.position =
      s.position [] := by
    rw [fragment_outcome hts, hf]
    rfl
  rw [Descent.passed, passed_here hts (List.append_nil ts).symm hposition,
    Method.bind_of_ok (turn_of_ok hts hf), Descent.atEnd_cursor List.nil_suffix, List.isEmpty_nil]

lemma fragment_position_of_error (hts : ts <:+ s.body) (hf : fragment limits ts = .error f) :
    ((s.descent limits).fragment (s.cursor ts 0 before)).2.position = s.position f.rest := by
  rw [fragment_outcome hts, hf]
  rfl

lemma passed_succ_of_error (hts : ts <:+ s.body) (hus : ts = us ++ f.rest)
    (hf : fragment limits ts = .error f) (hc : f.obstacle.cause limits = .ok c) (steps : Nat) :
    (s.descent limits).passed (steps + 1) (s.cursor ts 0 before) =
      if Recovery.afterSemicolon f.rest = [] then us
      else us ++ (s.descent limits).passed steps
        (s.cursor (Recovery.afterSemicolon f.rest) 0 (before ++ [⟨c, s.next f.rest⟩])) := by
  have hnext : Recovery.afterSemicolon f.rest <:+ s.body :=
    (Recovery.afterSemicolon_suffix f.rest).trans (suffix_of_fragment_eq_error hf hts)
  rw [Descent.passed, passed_here hts hus (fragment_position_of_error hts hf),
    Method.bind_of_ok (turn_of_error hts hf hc), Descent.atEnd_cursor hnext]
  cases Recovery.afterSemicolon f.rest <;> rfl

lemma passed_succ_of_ending {ending : Ending} (hts : ts <:+ s.body) (hus : ts = us ++ f.rest)
    (hf : fragment limits ts = .error f) (hc : f.obstacle.cause limits = .error ending)
    (steps : Nat) :
    (s.descent limits).passed (steps + 1) (s.cursor ts 0 before) = us := by
  rw [Descent.passed, passed_here hts hus (fragment_position_of_error hts hf),
    Method.bind_of_error (turn_of_ending hts hf hc)]

/-- The rules of a parse pass over admissible tokens, but for the last one where its payload ends
the parse. -/
lemma passed_admissible (s : TokenStream) (limits : Limits) :
    ∀ (steps : Nat) (ts : List Token) (before : List Fault), ts <:+ s.body → ts.length < steps →
      let passed := (s.descent limits).passed steps (s.cursor ts 0 before)
      let r := fragments limits s.eof steps ts
      (∀ t ∈ passed, t.Admissible) ∧ (∀ kindName, r.verdict ≠ .broken (.payload kindName)) ∨
        ∃ us t kindName, passed = us ++ [t] ∧ (∀ u ∈ us, u.Admissible) ∧ ¬t.Admissible ∧
          r.verdict = .broken (.payload kindName) ∧ t :: r.rest <:+ s.body := by
  intro steps
  induction steps with
  | zero => intro ts before _ hsteps; omega
  | succ steps ih =>
      intro ts before hts hsteps passed r
      cases hf : fragment limits ts with
      | ok p =>
          obtain ⟨e, rest⟩ := p
          obtain ⟨rfl, -⟩ := fragment_eq_ok hf
          have hr : r = ⟨[], .accepted e, []⟩ := fragments_succ_of_ok hf steps
          have hpassed : passed = ts := passed_succ_of_ok hts hf steps
          refine Or.inl ⟨hpassed ▸ admissible_of_fragment_eq_ok hf, fun k hk => ?_⟩
          rw [hr] at hk
          cases hk
      | error f =>
          obtain ⟨us, hus, hcases⟩ := admissible_of_fragment_eq_error hf
          cases hc : f.obstacle.cause limits with
          | error ending =>
              have hr : r = ⟨[], .broken ending, f.rest⟩ := fragments_succ_of_ending hf hc steps
              have hpassed : passed = us := passed_succ_of_ending hts hus hf hc steps
              rw [hr, hpassed]
              rcases Obstacle.cases_of_cause hc with ⟨k, hk, rfl⟩ | ⟨hfull, -, rfl⟩
              · rcases hcases with ⟨hno, -⟩ | ⟨vs, t, hsplit, hvs, hnot, -⟩
                · exact absurd hk (hno k)
                · refine Or.inr ⟨vs, t, k, hsplit, hvs, hnot, rfl, ?_⟩
                  rw [hus, hsplit, List.append_assoc] at hts
                  exact (List.suffix_append vs _).trans hts
              · rcases hcases with ⟨-, hadm⟩ | ⟨vs, t, -, -, -, hpayload⟩
                · exact Or.inl ⟨hadm, fun k => nofun⟩
                · cases hfull.symm.trans hpayload
          | ok c =>
              have hr : r = _ := fragments_succ_of_error hf hc steps
              have hpassed : passed = _ := passed_succ_of_error hts hus hf hc steps
              have hadm : ∀ u ∈ us, u.Admissible := by
                rcases hcases with ⟨-, hadm⟩ | ⟨vs, t, -, -, -, hpayload⟩
                · exact hadm
                · rw [hpayload] at hc
                  cases hc
              by_cases hn : Recovery.afterSemicolon f.rest = []
              · rw [if_pos hn] at hr hpassed
                refine Or.inl ⟨hpassed ▸ hadm, fun k hk => ?_⟩
                rw [hr] at hk
                cases hk
              · have hlt := length_next_fragment_lt hf hn
                have hnext : Recovery.afterSemicolon f.rest <:+ s.body :=
                  (Recovery.afterSemicolon_suffix f.rest).trans
                    (suffix_of_fragment_eq_error hf hts)
                rw [if_neg hn] at hr hpassed
                rw [hr, hpassed]
                rcases ih (Recovery.afterSemicolon f.rest) (before ++ [⟨c, s.next f.rest⟩]) hnext
                  (by omega) with ⟨hall, hv⟩ | ⟨ws, t, k, hws, hall, hnot, hv, hsuffix⟩
                · refine Or.inl ⟨List.forall_mem_append.mpr ⟨hadm, hall⟩, fun k hk => ?_⟩
                  exact hv k (Report.verdict_after_eq_broken.mp hk)
                · refine Or.inr ⟨us ++ ws, t, k, ?_, List.forall_mem_append.mpr ⟨hadm, hall⟩,
                    hnot, Report.verdict_after_eq_broken.mpr hv, hsuffix⟩
                  rw [hws, List.append_assoc]

end Passed

/-! ### Outcomes of a parse -/

/-- A parse gives a result: an expression and no fault, or no expression and at least one fault. -/
def Descent.Returns (d : Descent) (c : Cursor) : Prop :=
  ∃ r c', d.parse c = (.ok r, c') ∧
    ((∃ e : Expr, r.expression = some (.expression e.weaken)) ∧ r.faults = [] ∨
      r.expression = none ∧ r.faults ≠ [])

/-- A parse that is not ended by a payload gives a result, unless it is broken off because the depth
limit cannot be written. -/
lemma returns_of_verdict (s : TokenStream) (limits : Limits) (c : Cursor)
    (h : ∀ kindName, (s.parse limits).verdict ≠ .broken (.payload kindName)) :
    (s.descent limits).Returns c ∨ ((s.descent limits).parse c).1 = .error .unwritten := by
  have hparse := parse_follows s limits c
  rcases fragments_cases limits s.eof (s.body.length + 1) s.body (Nat.lt_succ_self _) with
    ⟨e, -, hr⟩ | ⟨mishaps, hne, hr⟩ | ⟨mishaps, ending, rest, hr⟩
  · rw [TokenStream.parse, hr] at hparse
    exact Or.inl ⟨_, _, hparse, Or.inl ⟨⟨e, rfl⟩, rfl⟩⟩
  · rw [TokenStream.parse, hr] at hparse
    exact Or.inl ⟨_, _, hparse, Or.inr ⟨rfl, by simpa [Report.faults] using hne⟩⟩
  · cases ending with
    | payload kindName => exact absurd (by rw [TokenStream.parse, hr]) (h kindName)
    | unwritten =>
        rw [TokenStream.parse, hr] at hparse
        exact Or.inr (congrArg Prod.fst hparse)

/-- Over admissible tokens a parse gives a result, unless it is broken off because the depth limit
cannot be written. -/
lemma returns_of_admissible {s : TokenStream} {limits : Limits}
    (hadm : ∀ t ∈ s.body, t.Admissible) (c : Cursor) :
    (s.descent limits).Returns c ∨ ((s.descent limits).parse c).1 = .error .unwritten := by
  refine returns_of_verdict s limits c fun kindName hv => ?_
  rcases fragments_verdict limits s.eof _ s.body (Nat.lt_succ_self _) hadm with
    ⟨e, -, hr⟩ | ⟨f, -, ⟨hr, -⟩ | hr⟩
  · rw [TokenStream.parse, hr] at hv
    cases hv
  · cases hr.symm.trans hv
  · cases hr.symm.trans hv

/-- **What a parse can come to**: it is broken off because the depth limit cannot be written exactly
if it has too many digits and some fragment finds the stack full. But for this, a parse of
admissible tokens gives a result. Over any tokens its rules pass over admissible ones only, or it
breaks off with the message of the payload of a token that no literal can hold, which is the last
token that its rules pass over and the first one of them that is not admissible. -/
theorem parse_contained (limits : Limits) {ts : List Token} (h : ∃ t ∈ ts, t.isEof = true)
    (c : Cursor) :
    let d : Descent := ⟨ts, limits⟩
    let passed := d.passed (ts.length + 1) {}
    ((d.parse c).1 = .error .unwritten ↔
        limits.depth.text? = none ∧ Overflows limits (bodyOf ts)) ∧
      ((∀ t ∈ bodyOf ts, t.Admissible) → d.Returns c ∨ (d.parse c).1 = .error .unwritten) ∧
      ((d.Returns c ∨ (d.parse c).1 = .error .unwritten) ∧ (∀ t ∈ passed, t.Admissible) ∨
        ∃ us t e c', passed = us ++ [t] ∧ (∀ u ∈ us, u.Admissible) ∧ ¬t.Admissible ∧
          t ∈ bodyOf ts ∧ d.parse c = (.error (.refused e), c') ∧
          e = .literalHolds t.payload ∧
          e.message = "Literal cannot hold " ++ t.payload.kindName) := by
  obtain ⟨s, hs, hb⟩ := exists_ofList?_eq h
  obtain rfl := toList_ofList? hs
  intro d passed
  have hsteps : s.body.length < s.toList.length + 1 := by
    rw [toList, List.length_append]
    omega
  have hfront : s.cursor s.body 0 [] = {} := by
    rw [cursor, position_body]
  have hbound : fragments limits s.eof (s.toList.length + 1) s.body = s.parse limits :=
    fragments_bound limits s.eof _ _ s.body hsteps (Nat.lt_succ_self _)
  have hcases := passed_admissible s limits (s.toList.length + 1) s.body [] List.suffix_rfl hsteps
  rw [hfront, hbound] at hcases
  refine ⟨hb ▸ parse_eq_unwritten_iff s limits c, ?_⟩
  rcases hcases with ⟨hall, hverdict⟩ | ⟨us, t, kindName, hpassed, hus, hnot, hverdict, hsuffix⟩
  · have hreturns := returns_of_verdict s limits c hverdict
    exact ⟨fun _ => hreturns, Or.inl ⟨hreturns, hall⟩⟩
  · have hmem : t ∈ bodyOf s.toList := hb ▸ hsuffix.subset List.mem_cons_self
    have hparse : d.parse c =
        (.error (.refused (.literalHolds t.payload)), s.cursor (s.parse limits).rest 0
          (s.parse limits).faults) := by
      refine (parse_follows s limits c).trans ?_
      rw [parseOutcome, hverdict]
      exact congrArg (fun u : Token => (Except.error (Break.refused (.literalHolds u.payload)), _))
        (previous_of_cons hsuffix)
    exact ⟨fun hadm => absurd (hadm t hmem) hnot,
      Or.inr ⟨us, t, _, _, hpassed, hus, hnot, hmem, hparse, rfl, rfl⟩⟩

/-- The case of a number whose payload is a list. -/
theorem parse_contained_list :
    let t : Token := ⟨.number, "1", .list [], 1⟩
    let ts : List Token := [t, ⟨.eof, "", .nil, 1⟩]
    let d : Descent := ⟨ts, .withDepth .standard⟩
    (∃ t ∈ ts, t.isEof = true) ∧
      ∃ c', d.parse {} = (.error (.refused (.literalHolds (.list []))), c') := by
  intro t ts d
  have hend : ∃ t ∈ ts, t.isEof = true := ⟨⟨.eof, "", .nil, 1⟩, by simp [ts], rfl⟩
  refine ⟨hend, ?_⟩
  rcases (parse_contained (.withDepth .standard) hend {}).2.2 with ⟨-, hall⟩ |
    ⟨us, u, e, c', -, -, -, hmem, hparse, rfl, -⟩
  · have hpassed : d.passed 3 {} = [t] := rfl
    obtain ⟨v, hv⟩ := hall t (hpassed ▸ List.mem_singleton_self t) (Or.inl rfl)
    cases hv
  · obtain rfl : u = t := List.mem_singleton.mp hmem
    exact ⟨c', hparse⟩

end ExprFront
