import ExprFront.Proofs.Grammar.PushdownRun
import ExprFront.Reading

/-!
Fragments and reports.

A parse is a run over fragments. `fragments_succ_of_ok`, `fragments_succ_of_ending` and
`fragments_succ_of_error` are its equations: a fragment is read, ends the parse early, or leaves a
cause. A fragment that fails leaves a suffix of its tokens (`exists_of_fragment_eq_error`), so each
fragment starts with fewer tokens than the one before. `fragments_verdict` says how a parse of
admissible tokens ends: with the expression of the first fragment and no mishap, or rejected and
with one, or early. The last happens exactly if the depth limit cannot be written and some fragment
finds the stack full (`Overflows`, `fragments_unwritten_iff`).
-/

namespace ExprFront

/-! ### Streams -/

namespace TokenStream

/-- The tokens before the first end of the input. -/
def bodyOf (ts : List Token) : List Token := ts.takeWhile fun t => !t.isEof

lemma bodyOf_append {us vs : List Token} (h : ∀ t ∈ us, t.isEof = false) :
    bodyOf (us ++ vs) = us ++ bodyOf vs :=
  List.takeWhile_append_of_pos (by simpa using h)

lemma bodyOf_cons_of_isEof {t : Token} (h : t.isEof = true) (ts : List Token) :
    bodyOf (t :: ts) = [] := by simp [bodyOf, h]

lemma ofList?_append {us after : List Token} {eof : Token} (hus : ∀ t ∈ us, t.isEof = false)
    (heof : eof.isEof = true) :
    ofList? (us ++ eof :: after) = some ⟨us, eof, after, hus, heof⟩ := by
  induction us with
  | nil => rw [List.nil_append, ofList?, dif_pos heof]
  | cons t us ih =>
      have ht : ¬t.isEof = true := by simpa using hus t List.mem_cons_self
      rw [List.cons_append, ofList?, dif_neg ht, ih fun u hu => hus u (List.mem_cons_of_mem t hu)]
      rfl

/-- A list with an end of the input is taken apart there. -/
lemma exists_ofList?_eq {ts : List Token} (h : ∃ t ∈ ts, t.isEof = true) :
    ∃ s, ofList? ts = some s ∧ s.body = bodyOf ts := by
  induction ts with
  | nil => simp at h
  | cons t ts ih =>
      by_cases ht : t.isEof = true
      · exact ⟨_, by rw [ofList?, dif_pos ht], (bodyOf_cons_of_isEof ht ts).symm⟩
      · obtain ⟨u, hu, heof⟩ := h
        have hmem : u ∈ ts := by
          rcases List.mem_cons.mp hu with rfl | hu
          · exact absurd heof ht
          · exact hu
        obtain ⟨s, hs, hb⟩ := ih ⟨u, hmem, heof⟩
        refine ⟨cons t ht s, by rw [ofList?, dif_neg ht, hs]; rfl, ?_⟩
        change t :: s.body = bodyOf (t :: ts)
        simp [bodyOf, ht, hb]

lemma body_eq_bodyOf {ts : List Token} {s : TokenStream} (h : ofList? ts = some s) :
    s.body = bodyOf ts := by
  have hmem : s.eof ∈ ts := by
    rw [← toList_ofList? h]
    simp [toList]
  obtain ⟨s', hs', hb⟩ := exists_ofList?_eq ⟨s.eof, hmem, s.eof_isEof⟩
  obtain rfl : s = s' := Option.some.inj (h.symm.trans hs')
  exact hb

/-- A list that is taken apart goes on after each part of its body. -/
lemma eq_of_body_eq {ts us rest : List Token} {s : TokenStream} (h : ofList? ts = some s)
    (hb : s.body = us ++ rest) : ts = us ++ (rest ++ s.eof :: s.after) := by
  rw [← toList_ofList? h, toList, ← List.append_assoc, ← hb]

/-- The position of a rest is the number of tokens before it. -/
lemma position_eq {us rest : List Token} {s : TokenStream} (hb : s.body = us ++ rest) :
    s.position rest = us.length := by
  rw [position, hb, List.length_append, Nat.add_sub_cancel]

/-- The token at the position of a rest is the next one. -/
lemma getElem?_toList {us rest : List Token} {s : TokenStream} (hb : s.body = us ++ rest) :
    s.toList[us.length]? = some (s.next rest) := by
  rw [toList, hb, List.append_assoc, List.getElem?_append_right le_rfl, Nat.sub_self]
  cases rest <;> rfl

end TokenStream

/-! ### Fragments -/

/-- A token that a literal can be read from, if it is of a type with a payload. -/
def TokenOf.Admissible (t : Token) : Prop :=
  t.type = .number ∨ t.type = .string → ∃ v, t.payload = .scalar v

lemma TokenOf.Admissible.literal?_ne {t : Token} (h : t.Admissible) (kindName : String) :
    literal? t ≠ some (.error kindName) := by
  intro hl
  rw [literal?] at hl
  split at hl
  · simp at hl
  · simp at hl
  · simp at hl
  · next ht =>
      obtain ⟨v, hv⟩ := h (Or.inl ht)
      simp [hv] at hl
  · next ht =>
      obtain ⟨v, hv⟩ := h (Or.inr ht)
      simp [hv] at hl
  · simp at hl

section Fragments

variable {limits : Limits} {ts rest : List Token} {e : Expr}

lemma fragment_eq_error_iff {f : Failure} :
    fragment limits ts = .error f ↔ Pushdown.scanFragment limits ts = .error f := by
  rw [scanFragment_eq]
  cases fragment limits ts <;> simp [bind, Except.bind]

lemma exists_fragment_eq_ok_iff :
    (∃ e rest, fragment limits ts = .ok (e, rest)) ↔ Pushdown.scanFragment limits ts = .ok () := by
  rw [scanFragment_eq]
  cases hf : fragment limits ts with
  | error f => simp [bind, Except.bind]
  | ok p => simpa [bind, Except.bind] using ⟨p.1, p.2, rfl⟩

/-- A fragment is an expression with at most one semicolon, and nothing after it. -/
lemma fragment_eq_ok (h : fragment limits ts = .ok (e, rest)) :
    rest = [] ∧ ∃ more, RuleName.expression.rule limits ts = .ok (e, more) ∧
      optionalSemicolon more = [] := by
  rw [fragment_eq] at h
  obtain ⟨⟨e', more⟩, hr, hend⟩ := bind_eq_ok_iff.mp h
  obtain ⟨rfl, rfl, hs⟩ := closeFragment_eq_ok hend
  exact ⟨rfl, more, hr, hs⟩

/-- A fragment that fails leaves a suffix of its tokens. -/
lemma exists_of_fragment_eq_error {f : Failure} (h : fragment limits ts = .error f) :
    ∃ us, ts = us ++ f.rest := by
  have hs := fragment_eq_error_iff.mp h
  rw [Pushdown.scanFragment] at hs
  split at hs
  · next o ho =>
      obtain rfl : (⟨o, ts⟩ : Failure) = f := by simpa using hs
      exact ⟨[], rfl⟩
  · exact Pushdown.exists_of_scan_eq_error hs

/-- Over admissible tokens the scan refuses no payload. -/
lemma Pushdown.scan_ne_payload {s : Pushdown} (hts : ∀ t ∈ ts, t.Admissible) (kindName : String) :
    s.scan limits ts ≠ .error ⟨.payload kindName, rest⟩ := by
  intro h
  obtain ⟨us, s', -, hcases⟩ := scan_eq_error h
  rcases hcases with ⟨-, -, hm⟩ | ⟨t, more, -, -, ht⟩ | ⟨t, rfl, ht⟩
  · obtain ⟨c, hc, -⟩ := missing?_eq_some hm
    cases hc
  · obtain ⟨c, hc, -⟩ := exists_cause_of_here ht
    cases hc
  · rcases step_eq_next_cases ht with ⟨k, -, hk⟩ | ⟨place, s₁, -, ⟨h, -⟩ | ⟨h, -⟩⟩
    · exact (hts t (by simp)).literal?_ne k hk
    · cases h
    · cases h

/-- Over admissible tokens no payload is refused. -/
lemma fragment_ne_payload (hts : ∀ t ∈ ts, t.Admissible) (kindName : String) :
    fragment limits ts ≠ .error ⟨.payload kindName, rest⟩ := by
  intro h
  have hs := fragment_eq_error_iff.mp h
  rw [Pushdown.scanFragment] at hs
  split at hs
  · next o ho =>
      obtain ⟨rfl, -⟩ : o = .payload kindName ∧ ts = rest := by simpa using hs
      rcases Limits.obstacle?_eq_some ho with ⟨h, -⟩ | ⟨h, -⟩ <;> cases h
  · exact Pushdown.scan_ne_payload hts kindName hs

/-- The depths that a stack holds can be written. -/
lemma Pushdown.Shallow.depth_lt {stack : Nat} {n : Nesting} (hn : Shallow stack n)
    (hstack : stack ≤ stackFrames) : n.depth + 1 < Integer.textBound := by
  have hbound := stackFrames_lt_textBound
  have hframes : 3 ≤ stackFrames := by decide
  simp only [Shallow, Nesting.operatorFrames] at hn
  omega

/-- A fault for the depth has the limit, which keeps to a depth that the stack would hold. -/
lemma fragment_tooDeep {c : Cause} (ho : limits.obstacle? Pushdown.outset = none)
    (h : fragment limits ts = .error ⟨.fault c, rest⟩) (hc : c.kind = .recursionLimit) :
    c = .tooDeep limits.depth.value ∧
      ∃ n, Pushdown.Shallow limits.stack n ∧ limits.depth.allows (n.depth + 1) = false := by
  have hs := fragment_eq_error_iff.mp h
  rw [Pushdown.scanFragment, ho] at hs
  exact Pushdown.exists_of_scan_tooDeep Pushdown.shallow_inner
    (Pushdown.start_shallow (Limits.obstacle?_eq_none.mp ho).2) hs hc

/-- A full stack is reported like a nesting beyond the limit, if the limit can be written. -/
lemma Obstacle.cause_stackFull (h : limits.depth.text? ≠ none) :
    stackFull.cause limits = .ok (.tooDeep limits.depth.value) :=
  if_pos (Option.isSome_iff_ne_none.mpr h)

/-- Only a full stack has no cause, where the limit cannot be written, and a payload. -/
lemma Obstacle.cause_eq_unwritten_iff {o : Obstacle} :
    o.cause limits = .error .unwritten ↔ o = .stackFull ∧ limits.depth.text? = none := by
  cases o with
  | fault c => exact iff_of_false nofun fun h => nomatch h.1
  | payload kindName => exact iff_of_false nofun fun h => nomatch h.1
  | stackFull =>
      cases h : limits.depth.text? with
      | none => simp [cause, h]
      | some text => simp [cause, h]

/-- Over admissible tokens a fragment that fails has a cause, unless the limit is to be written and
cannot be. -/
lemma cause_cases {f : Failure} (hts : ∀ t ∈ ts, t.Admissible)
    (h : fragment limits ts = .error f) :
    (∃ c, f.obstacle.cause limits = .ok c) ∨ f.obstacle.cause limits = .error .unwritten := by
  obtain ⟨o, rest⟩ := f
  cases o with
  | fault c => exact Or.inl ⟨c, rfl⟩
  | stackFull =>
      by_cases htext : limits.depth.text? = none
      · exact Or.inr (Obstacle.cause_eq_unwritten_iff.mpr ⟨rfl, htext⟩)
      · exact Or.inl ⟨_, Obstacle.cause_stackFull htext⟩
  | payload kindName => exact absurd h (fragment_ne_payload hts kindName)

end Fragments

/-- The cause of a fault for the depth is the limit, which can be written. -/
lemma cause_of_recursionLimit {limit : DepthLimit} {ts : List Token} {f : Failure} {c : Cause}
    (hfirst : limit.allows 1 = true) (h : fragment (.withDepth limit) ts = .error f)
    (hc : f.obstacle.cause (.withDepth limit) = .ok c) (hkind : c.kind = .recursionLimit) :
    c = .tooDeep limit.value ∧ ∃ text, limit.text? = some text := by
  obtain ⟨o, rest⟩ := f
  cases o with
  | payload kindName => cases hc
  | stackFull =>
      rw [Obstacle.cause] at hc
      split at hc
      · next htext =>
          exact ⟨(Except.ok.inj hc).symm, Option.isSome_iff_exists.mp htext⟩
      · cases hc
  | fault c' =>
      obtain rfl : c' = c := Except.ok.inj hc
      have houtset : (Limits.withDepth limit).obstacle? Pushdown.outset = none :=
        Limits.obstacle?_eq_none.mpr ⟨hfirst, show 0 < stackFrames by decide⟩
      obtain ⟨rfl, n, hn, hdeep⟩ := fragment_tooDeep houtset h hkind
      exact ⟨rfl, DepthLimit.exists_text? hfirst hdeep (hn.depth_lt le_rfl)⟩

/-! ### Recovery -/

namespace Recovery

/-- What comes after the next semicolon is a suffix that starts after a semicolon, or empty. -/
lemma afterSemicolon_cases (ts : List Token) :
    (∃ us t, ts = us ++ t :: afterSemicolon ts ∧ t.type = .semicolon ∧
        ∀ u ∈ us, u.type ≠ .semicolon) ∨
      afterSemicolon ts = [] ∧ ∀ u ∈ ts, u.type ≠ .semicolon := by
  induction ts with
  | nil => exact Or.inr ⟨rfl, by simp⟩
  | cons t ts ih =>
      rw [afterSemicolon]
      by_cases ht : t.type = .semicolon
      · rw [if_pos ht]
        exact Or.inl ⟨[], t, rfl, ht, by simp⟩
      · rw [if_neg ht]
        rcases ih with ⟨us, u, hts, hu, hus⟩ | ⟨hnil, hts⟩
        · refine Or.inl ⟨t :: us, u, by rw [List.cons_append, ← hts], hu, ?_⟩
          exact List.forall_mem_cons.mpr ⟨ht, hus⟩
        · exact Or.inr ⟨hnil, List.forall_mem_cons.mpr ⟨ht, hts⟩⟩

lemma length_afterSemicolon_lt {ts : List Token} (h : afterSemicolon ts ≠ []) :
    (afterSemicolon ts).length < ts.length := by
  rcases afterSemicolon_cases ts with ⟨us, t, hts, -, -⟩ | ⟨hnil, -⟩
  · have hlen := congrArg List.length hts
    rw [List.length_append, List.length_cons] at hlen
    omega
  · exact absurd hnil h

lemma mem_of_mem_afterSemicolon {t : Token} {ts : List Token} (h : t ∈ afterSemicolon ts) :
    t ∈ ts := by
  rcases afterSemicolon_cases ts with ⟨us, u, hts, -, -⟩ | ⟨hnil, -⟩
  · rw [hts]
    simp [h]
  · simp [hnil] at h

end Recovery

/-! ### Reports -/

/-- A fault before a report does not change whether and how the parse ends early. -/
lemma Report.verdict_after_eq_broken {mishap : Mishap} {r : Report} {ending : Ending} :
    (r.after mishap).verdict = .broken ending ↔ r.verdict = .broken ending := by
  rw [after]
  cases r.verdict <;> simp

/-- Some fragment of a parse finds the stack full. -/
inductive Overflows (limits : Limits) : List Token → Prop
  | here {ts rest} (h : fragment limits ts = .error ⟨.stackFull, rest⟩) : Overflows limits ts
  | later {ts c rest} (h : fragment limits ts = .error ⟨.fault c, rest⟩)
    (hn : Recovery.afterSemicolon rest ≠ [])
    (hnext : Overflows limits (Recovery.afterSemicolon rest)) : Overflows limits ts

section Reports

variable {limits : Limits} {eof : Token} {ts rest : List Token} {e : Expr} {f : Failure} {c : Cause}

/-- A fault where a fragment fails, and what is passed over there. -/
def Failure.mishap (f : Failure) (c : Cause) (eof : Token) : Mishap :=
  ⟨⟨c, f.rest.headD eof⟩, f.rest.length - (Recovery.afterSemicolon f.rest).length⟩

lemma fragments_succ_of_ok (h : fragment limits ts = .ok (e, rest)) (bound : Nat) :
    fragments limits eof (bound + 1) ts = ⟨[], .accepted e, []⟩ := by
  obtain ⟨rfl, -⟩ := fragment_eq_ok h
  rw [fragments, h]

/-- A fragment that fails without a cause ends the parse. -/
lemma fragments_succ_of_ending {ending : Ending} (h : fragment limits ts = .error f)
    (hc : f.obstacle.cause limits = .error ending) (bound : Nat) :
    fragments limits eof (bound + 1) ts = ⟨[], .broken ending, f.rest⟩ := by
  simp only [fragments, h, hc]

lemma fragments_succ_of_error (h : fragment limits ts = .error f)
    (hc : f.obstacle.cause limits = .ok c) (bound : Nat) :
    fragments limits eof (bound + 1) ts =
      if Recovery.afterSemicolon f.rest = [] then ⟨[f.mishap c eof], .rejected, []⟩
      else
        (fragments limits eof bound (Recovery.afterSemicolon f.rest)).after (f.mishap c eof) := by
  rw [fragments, h]
  simp only [hc, List.isEmpty_iff]
  rfl

/-- The next fragment has fewer tokens. -/
lemma length_next_fragment_lt (h : fragment limits ts = .error f)
    (hne : Recovery.afterSemicolon f.rest ≠ []) :
    (Recovery.afterSemicolon f.rest).length < ts.length := by
  obtain ⟨us, hts⟩ := exists_of_fragment_eq_error h
  have hlt := Recovery.length_afterSemicolon_lt hne
  have hle := congrArg List.length hts
  rw [List.length_append] at hle
  omega

/-- A bound above the number of tokens is never used up. -/
lemma fragments_bound (limits : Limits) (eof : Token) :
    ∀ (bound bound' : Nat) (ts : List Token), ts.length < bound → ts.length < bound' →
      fragments limits eof bound ts = fragments limits eof bound' ts := by
  intro bound
  induction bound with
  | zero => intro bound' ts hb; omega
  | succ bound ih =>
      intro bound' ts hb hb'
      obtain ⟨bound', rfl⟩ := Nat.exists_eq_succ_of_ne_zero (n := bound') (by omega)
      cases hf : fragment limits ts with
      | ok p => rw [fragments_succ_of_ok hf, fragments_succ_of_ok hf]
      | error f =>
          cases hc : f.obstacle.cause limits with
          | error ending => rw [fragments_succ_of_ending hf hc, fragments_succ_of_ending hf hc]
          | ok c =>
              rw [fragments_succ_of_error hf hc, fragments_succ_of_error hf hc]
              split
              · rfl
              · next hne =>
                  have hlt := length_next_fragment_lt hf hne
                  rw [ih bound' _ (by omega) (by omega)]

lemma not_overflows_of_ok {p : Expr × List Token} (h : fragment limits ts = .ok p) :
    ¬Overflows limits ts := by
  intro ho
  cases ho with
  | here h' => cases h.symm.trans h'
  | later h' => cases h.symm.trans h'

/-- A fragment that fails finds the stack full, or it has a fault and a later fragment does. -/
lemma overflows_iff_of_error (h : fragment limits ts = .error f) :
    Overflows limits ts ↔ f.obstacle = .stackFull ∨ (∃ c, f.obstacle = .fault c) ∧
      Recovery.afterSemicolon f.rest ≠ [] ∧ Overflows limits (Recovery.afterSemicolon f.rest) := by
  constructor
  · intro ho
    cases ho with
    | here h' =>
        obtain rfl := Except.error.inj (h.symm.trans h')
        exact Or.inl rfl
    | later h' hn hnext =>
        obtain rfl := Except.error.inj (h.symm.trans h')
        exact Or.inr ⟨⟨_, rfl⟩, hn, hnext⟩
  · obtain ⟨o, rest⟩ := f
    rintro (rfl | ⟨⟨c, rfl⟩, hn, hnext⟩)
    · exact .here h
    · exact .later h hn hnext

/-- A parse ends early at the depth limit exactly if this cannot be written and some fragment finds
the stack full. -/
lemma fragments_unwritten_iff (limits : Limits) (eof : Token) :
    ∀ (bound : Nat) (ts : List Token), ts.length < bound →
      ((fragments limits eof bound ts).verdict = .broken .unwritten ↔
        limits.depth.text? = none ∧ Overflows limits ts) := by
  intro bound
  induction bound with
  | zero => intro ts hb; omega
  | succ bound ih =>
      intro ts hb
      cases hf : fragment limits ts with
      | ok p =>
          rw [fragments_succ_of_ok hf]
          exact iff_of_false nofun fun ⟨_, ho⟩ => not_overflows_of_ok hf ho
      | error f =>
          rw [overflows_iff_of_error hf]
          obtain ⟨o, rest⟩ := f
          cases o with
          | payload kindName =>
              rw [fragments_succ_of_ending hf rfl]
              exact iff_of_false (by simp) (by simp)
          | stackFull =>
              by_cases htext : limits.depth.text? = none
              · rw [fragments_succ_of_ending hf (Obstacle.cause_eq_unwritten_iff.mpr ⟨rfl, htext⟩)]
                exact iff_of_true rfl ⟨htext, Or.inl rfl⟩
              · rw [fragments_succ_of_error hf (Obstacle.cause_stackFull htext)]
                refine iff_of_false (fun hv => htext ?_) fun h => htext h.1
                split at hv
                · cases hv
                · next hn =>
                    have hlt := length_next_fragment_lt hf hn
                    exact ((ih _ (by omega)).mp (Report.verdict_after_eq_broken.mp hv)).1
          | fault c =>
              rw [fragments_succ_of_error hf rfl]
              split
              · next hn => exact iff_of_false nofun (by simp [hn])
              · next hn =>
                  have hlt := length_next_fragment_lt hf hn
                  rw [Report.verdict_after_eq_broken, ih _ (by omega)]
                  simp [hn]

/-- How a parse of admissible tokens ends: with the expression of the first fragment and without a
mishap, or rejected and with one, or early because the depth limit cannot be written. -/
lemma fragments_verdict (limits : Limits) (eof : Token) :
    ∀ (bound : Nat) (ts : List Token), ts.length < bound → (∀ t ∈ ts, t.Admissible) →
      (∃ e, fragment limits ts = .ok (e, []) ∧
          fragments limits eof bound ts = ⟨[], .accepted e, []⟩) ∨
        ∃ f, fragment limits ts = .error f ∧
          ((fragments limits eof bound ts).verdict = .rejected ∧
              (fragments limits eof bound ts).mishaps ≠ [] ∨
            (fragments limits eof bound ts).verdict = .broken .unwritten) := by
  intro bound
  induction bound with
  | zero => intro ts hb; omega
  | succ bound ih =>
      intro ts hb hts
      cases hf : fragment limits ts with
      | ok p =>
          obtain ⟨e, rest⟩ := p
          obtain ⟨rfl, -⟩ := fragment_eq_ok hf
          exact Or.inl ⟨e, rfl, fragments_succ_of_ok hf bound⟩
      | error f =>
          refine Or.inr ⟨f, rfl, ?_⟩
          rcases cause_cases hts hf with ⟨c, hc⟩ | hc
          · rw [fragments_succ_of_error hf hc]
            split
            · exact Or.inl ⟨rfl, by simp⟩
            · next hne =>
                have hlt := length_next_fragment_lt hf hne
                obtain ⟨us, hus⟩ := exists_of_fragment_eq_error hf
                have hnext : ∀ t ∈ Recovery.afterSemicolon f.rest, t.Admissible := by
                  intro t ht
                  refine hts t ?_
                  rw [hus]
                  exact List.mem_append_right us (Recovery.mem_of_mem_afterSemicolon ht)
                rcases ih _ (by omega) hnext with ⟨e, -, hr⟩ | ⟨f', -, ⟨hv, -⟩ | hv⟩
                · exact Or.inl ⟨by rw [hr]; rfl, by simp [Report.after]⟩
                · exact Or.inl ⟨by simp [Report.after, hv], by simp [Report.after]⟩
                · exact Or.inr (Report.verdict_after_eq_broken.mpr hv)
          · exact Or.inr (by rw [fragments_succ_of_ending hf hc])

end Reports

end ExprFront
