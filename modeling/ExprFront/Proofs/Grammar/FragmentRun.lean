import Mathlib.Data.List.Chain
import ExprFront.Proofs.Grammar.Resumption

/-!
The fragments of a parse in a row.

A parse goes through fragments until one is read, fails without a semicolon after it, or ends the
parse early (`FragmentRun`). The results of a run determine the report: a bound on the number of
fragments is never used up from the length of the run on (`FragmentRun.fragments_add`), and the
faults are those of the results (`FragmentRun.faults_eq`). So the faults for the depth have the
depth limit in words (`TokenStream.message_of_recursionLimit`).

`faults_apart`: each fragment but the first one takes a semicolon of its own, so the faults of a
parse are at increasing positions with a semicolon between each two.
-/

namespace ExprFront

/-! ### Runs -/

/-- The results of the fragments of a parse, in order, over tokens that are not yet read. -/
inductive FragmentRun (limits : Limits) : List Token → List Parsed → Prop where
  | read {ts p} (h : fragment limits ts = .ok p) : FragmentRun limits ts [.ok p]
  /-- The parse ends early. -/
  | broken {ts f ending} (h : fragment limits ts = .error f)
      (hc : f.obstacle.cause limits = .error ending) : FragmentRun limits ts [.error f]
  | last {ts f c} (h : fragment limits ts = .error f) (hc : f.obstacle.cause limits = .ok c)
      (hn : Recovery.afterSemicolon f.rest = []) : FragmentRun limits ts [.error f]
  | next {ts f c rs} (h : fragment limits ts = .error f) (hc : f.obstacle.cause limits = .ok c)
      (hn : Recovery.afterSemicolon f.rest ≠ [])
      (hr : FragmentRun limits (Recovery.afterSemicolon f.rest) rs) :
      FragmentRun limits ts (.error f :: rs)

/-- The fault that is reported for the result of a fragment, after the position of its token. -/
def TokenStream.faultAt? (limits : Limits) (s : TokenStream) : Parsed → Option (Nat × Fault)
  | .ok _ => none
  | .error f =>
    match f.obstacle.cause limits with
    | .ok c => some (s.position f.rest, ⟨c, s.next f.rest⟩)
    | .error _ => none

section Runs

variable {limits : Limits} {ts : List Token} {rs : List Parsed} {f : Failure} {c : Cause}

lemma TokenStream.faultAt?_eq_some (hc : f.obstacle.cause limits = .ok c) (s : TokenStream) :
    s.faultAt? limits (.error f) = some (s.position f.rest, ⟨c, s.next f.rest⟩) := by
  rw [faultAt?, hc]

lemma TokenStream.faultAt?_eq_none {ending : Ending}
    (hc : f.obstacle.cause limits = .error ending) (s : TokenStream) :
    s.faultAt? limits (.error f) = none := by
  rw [faultAt?, hc]

lemma TokenStream.exists_cause_of_faultAt? {s : TokenStream} {p : Nat × Fault}
    (h : s.faultAt? limits (.error f) = some p) :
    ∃ c, f.obstacle.cause limits = .ok c ∧ (s.position f.rest, ⟨c, s.next f.rest⟩) = p := by
  rw [faultAt?] at h
  split at h
  · next c hc => exact ⟨c, hc, Option.some.inj h⟩
  · cases h

/-- Every parse runs to an end. -/
lemma exists_fragmentRun (limits : Limits) (ts : List Token) : ∃ rs, FragmentRun limits ts rs := by
  induction hk : ts.length using Nat.strong_induction_on generalizing ts with
  | _ k ih =>
      cases hf : fragment limits ts with
      | ok p => exact ⟨_, .read hf⟩
      | error f =>
          cases hc : f.obstacle.cause limits with
          | error ending => exact ⟨_, .broken hf hc⟩
          | ok c =>
              by_cases hn : Recovery.afterSemicolon f.rest = []
              · exact ⟨_, .last hf hc hn⟩
              · have hlt := length_next_fragment_lt hf hn
                obtain ⟨rs, hr⟩ := ih _ (hk ▸ hlt) _ rfl
                exact ⟨_, .next hf hc hn hr⟩

/-- The results of a run are those of fragments that start where the tokens are not yet read. -/
lemma FragmentRun.exists_of_mem (h : FragmentRun limits ts rs) :
    ∀ r ∈ rs, ∃ us, us <:+ ts ∧ fragment limits us = r := by
  have hhead {us : List Token} {r r' : Parsed} (hr : fragment limits us = r) (hmem : r' ∈ [r]) :
      ∃ vs, vs <:+ us ∧ fragment limits vs = r' :=
    ⟨us, List.suffix_rfl, hr.trans (List.mem_singleton.mp hmem).symm⟩
  induction h with
  | read h => exact fun r hr => hhead h hr
  | broken h hc => exact fun r hr => hhead h hr
  | last h hc hn => exact fun r hr => hhead h hr
  | @next ts f c rs h hc hn hr ih =>
      intro r hmem
      rcases List.mem_cons.mp hmem with rfl | hmem
      · exact ⟨ts, List.suffix_rfl, h⟩
      · obtain ⟨us, hus, hr⟩ := ih r hmem
        obtain ⟨vs, hvs⟩ := exists_of_fragment_eq_error h
        refine ⟨us, hus.trans ((Recovery.afterSemicolon_suffix f.rest).trans ?_), hr⟩
        exact hvs ▸ List.suffix_append vs f.rest

/-- Some fragment of a parse finds the stack full exactly if one of a run does. -/
lemma FragmentRun.overflows_iff (h : FragmentRun limits ts rs) :
    Overflows limits ts ↔ ∃ f : Failure, .error f ∈ rs ∧ f.obstacle = .stackFull := by
  induction h with
  | read h => exact iff_of_false (not_overflows_of_ok h) (by simp)
  | broken h hc =>
      rw [overflows_iff_of_error h]
      rcases Obstacle.cases_of_cause hc with ⟨kindName, ho, -⟩ | ⟨ho, -, -⟩ <;> simp [ho]
  | last h hc hn =>
      rw [overflows_iff_of_error h]
      simp [hn]
  | @next ts f c rs h hc hn hr ih =>
      rw [overflows_iff_of_error h, ih]
      cases ho : f.obstacle with
      | fault c => simp [hn, ho]
      | payload kindName =>
          rw [ho] at hc
          cases hc
      | stackFull => simp [ho]

/-- A bound above the number of fragments is never used up. -/
lemma FragmentRun.fragments_add (h : FragmentRun limits ts rs) (eof : Token) (k : Nat) :
    fragments limits eof (k + rs.length) ts = fragments limits eof rs.length ts := by
  induction h with
  | read h => exact (fragments_succ_of_ok h k).trans (fragments_succ_of_ok h 0).symm
  | broken h hc =>
      exact (fragments_succ_of_ending h hc k).trans (fragments_succ_of_ending h hc 0).symm
  | last h hc hn =>
      exact ((fragments_succ_of_error h hc k).trans (if_pos hn)).trans
        ((fragments_succ_of_error h hc 0).trans (if_pos hn)).symm
  | @next ts f c rs h hc hn hr ih =>
      rw [List.length_cons, ← Nat.add_assoc, fragments_succ_of_error h hc,
        fragments_succ_of_error h hc, ih]

/-- The faults of a parse are those of its fragments. -/
lemma FragmentRun.faults_eq {s : TokenStream} (h : FragmentRun limits ts rs) :
    (fragments limits s.eof rs.length ts).faults =
      (rs.filterMap (s.faultAt? limits)).map Prod.snd := by
  induction h with
  | read h =>
      rw [List.length_singleton, fragments_succ_of_ok h 0]
      rfl
  | broken h hc =>
      rw [List.length_singleton, fragments_succ_of_ending h hc 0,
        List.filterMap_cons_none (TokenStream.faultAt?_eq_none hc s)]
      rfl
  | last h hc hn =>
      rw [List.length_singleton, fragments_succ_of_error h hc 0, if_pos hn,
        List.filterMap_cons_some (TokenStream.faultAt?_eq_some hc s)]
      rfl
  | next h hc hn hr ih =>
      rw [List.length_cons, fragments_succ_of_error h hc, if_neg hn,
        List.filterMap_cons_some (TokenStream.faultAt?_eq_some hc s), List.map_cons, ← ih]
      rfl

/-! ### Semicolons -/

/-- What comes after the next semicolon has a semicolon less. -/
lemma Recovery.countP_afterSemicolon_lt (hn : Recovery.afterSemicolon ts ≠ []) :
    (Recovery.afterSemicolon ts).countP (fun t => t.type = .semicolon) <
      ts.countP fun t => t.type = .semicolon := by
  rcases Recovery.afterSemicolon_cases ts with ⟨us, t, hts, ht, -⟩ | ⟨hnil, -⟩
  · have hcount := congrArg (List.countP fun t : Token => t.type = .semicolon) hts
    rw [List.countP_append, List.countP_cons_of_pos (by simpa using ht)] at hcount
    omega
  · exact absurd hnil hn

/-- Each fragment but the first one takes a semicolon. -/
lemma FragmentRun.length_le (h : FragmentRun limits ts rs) :
    rs.length ≤ 1 + ts.countP fun t => t.type = .semicolon := by
  induction h with
  | read h => exact Nat.le_add_right 1 _
  | broken h hc => exact Nat.le_add_right 1 _
  | last h hc hn => exact Nat.le_add_right 1 _
  | next h hc hn hr ih =>
      obtain ⟨us, hus⟩ := exists_of_fragment_eq_error h
      have hlt := Recovery.countP_afterSemicolon_lt hn
      have hcount := congrArg (List.countP fun t : Token => t.type = .semicolon) hus
      rw [List.countP_append] at hcount
      rw [List.length_cons]
      omega

/-- A parse reads as many fragments as there are in a run. -/
lemma FragmentRun.parse_eq {s : TokenStream} (h : FragmentRun limits s.body rs) :
    s.parse limits = fragments limits s.eof rs.length s.body := by
  have hbound : rs.length ≤ s.body.length + 1 := by
    have hle := h.length_le
    have hcount := List.countP_le_length (p := fun t : Token => t.type = .semicolon)
      (l := s.body)
    omega
  rw [TokenStream.parse, ← Nat.sub_add_cancel hbound]
  exact h.fragments_add s.eof _

/-- A list of tokens has a semicolon at a position from one on and before another. -/
def SemicolonBetween (ts : List Token) (p q : Nat) : Prop :=
  ∃ k t, p ≤ k ∧ k < q ∧ ts[k]? = some t ∧ t.type = .semicolon

lemma SemicolonBetween.lt {p q : Nat} (h : SemicolonBetween ts p q) : p < q := by
  obtain ⟨k, t, hp, hq, -⟩ := h
  omega

/-- A fragment that fails does so at a token of its own, or at the end of the input. -/
lemma TokenStream.le_position_of_error {s : TokenStream} {us : List Token}
    (h : fragment limits ts = .error f) (hb : s.body = us ++ ts) :
    us.length ≤ s.position f.rest ∧ s.position f.rest ≤ s.body.length ∧
      s.toList[s.position f.rest]? = some (s.next f.rest) := by
  obtain ⟨vs, hvs⟩ := exists_of_fragment_eq_error h
  have hsplit : s.body = us ++ vs ++ f.rest := by rw [hb, hvs, List.append_assoc]
  have hlen := congrArg List.length hsplit
  rw [position_eq hsplit]
  simp only [List.length_append] at hlen ⊢
  refine ⟨by omega, by omega, ?_⟩
  rw [← List.length_append]
  exact getElem?_toList hsplit

/-- A fragment that fails leaves a semicolon between its fault and the next fragment. -/
lemma TokenStream.semicolonBetween_of_error {s : TokenStream} {us : List Token}
    (h : fragment limits ts = .error f) (hb : s.body = us ++ ts)
    (hn : Recovery.afterSemicolon f.rest ≠ []) :
    ∃ vs, s.body = vs ++ Recovery.afterSemicolon f.rest ∧ us.length ≤ vs.length ∧
      SemicolonBetween s.toList (s.position f.rest) vs.length := by
  obtain ⟨vs, hvs⟩ := exists_of_fragment_eq_error h
  rcases Recovery.afterSemicolon_cases f.rest with ⟨ws, t, hws, ht, -⟩ | ⟨hnil, -⟩
  · have hsplit : s.body = us ++ vs ++ ws ++ (t :: Recovery.afterSemicolon f.rest) := by
      rw [hb, hvs, List.append_assoc, List.append_assoc, ← hws]
    have hposition : s.position f.rest = (us ++ vs).length :=
      position_eq (by rw [hb, hvs, List.append_assoc])
    refine ⟨us ++ vs ++ ws ++ [t], by rw [hsplit]; simp, by simp,
      (us ++ vs ++ ws).length, t, ?_, by simp, getElem?_toList hsplit, ht⟩
    rw [hposition]
    exact (List.prefix_append (us ++ vs) ws).length_le
  · exact absurd hnil hn

/-- What a run does to the faults of a stream, once some of its tokens are passed over: none of them
is before these tokens, each is at its token, and there is a semicolon between each two. -/
lemma FragmentRun.faults_apart_from {s : TokenStream} (h : FragmentRun limits ts rs)
    {us : List Token} (hb : s.body = us ++ ts) :
    (∀ p ∈ rs.filterMap (s.faultAt? limits),
        us.length ≤ p.1 ∧ p.1 ≤ s.body.length ∧ s.toList[p.1]? = some p.2.token) ∧
      (rs.filterMap (s.faultAt? limits)).IsChain fun p q => SemicolonBetween s.toList p.1 q.1 := by
  induction h generalizing us with
  | read h => exact ⟨by simp [TokenStream.faultAt?], .nil⟩
  | broken h hc =>
      rw [List.filterMap_cons_none (TokenStream.faultAt?_eq_none hc s)]
      exact ⟨by simp, .nil⟩
  | last h hc hn =>
      rw [List.filterMap_cons_some (TokenStream.faultAt?_eq_some hc s)]
      refine ⟨fun p hp => ?_, .singleton _⟩
      obtain rfl := List.mem_singleton.mp hp
      exact TokenStream.le_position_of_error h hb
  | next h hc hn hr ih =>
      obtain ⟨vs, hvs, hle, hbetween⟩ := TokenStream.semicolonBetween_of_error h hb hn
      obtain ⟨hall, hchain⟩ := ih hvs
      rw [List.filterMap_cons_some (TokenStream.faultAt?_eq_some hc s)]
      constructor
      · intro p hp
        rcases List.mem_cons.mp hp with rfl | hp
        · exact TokenStream.le_position_of_error h hb
        · obtain ⟨hfrom, hto, hget⟩ := hall p hp
          exact ⟨hle.trans hfrom, hto, hget⟩
      · refine List.isChain_cons.mpr ⟨fun q hq => ?_, hchain⟩
        obtain ⟨k, t, hk, hlt, ht⟩ := hbetween
        exact ⟨k, t, hk, hlt.trans_le (hall q (List.mem_of_mem_head? hq)).1, ht⟩

end Runs

/-- A fault for the depth has the limit in its message. Where a depth is beyond the limit and where
the stack is full, the limit can be written. -/
lemma TokenStream.message_of_recursionLimit {limit : DepthLimit} (s : TokenStream)
    (hfirst : limit.allows 1 = true) {f : Fault} (hf : f ∈ (s.parse (.withDepth limit)).faults)
    (hkind : f.toError.kind = .recursionLimit) :
    ∃ text, limit.text? = some text ∧
      f.toError.message = "Expression nesting exceeds maximum depth of " ++ text ++ "." := by
  obtain ⟨rs, hr⟩ := exists_fragmentRun (.withDepth limit) s.body
  rw [hr.parse_eq, hr.faults_eq] at hf
  obtain ⟨p, hp, rfl⟩ := List.mem_map.mp hf
  obtain ⟨r, hmem, hat⟩ := List.mem_filterMap.mp hp
  obtain ⟨us, -, hfragment⟩ := hr.exists_of_mem r hmem
  cases r with
  | ok parsed => cases hat
  | error failure =>
      obtain ⟨c, hc, rfl⟩ := TokenStream.exists_cause_of_faultAt? hat
      obtain ⟨rfl, text, htext⟩ := cause_of_recursionLimit hfirst hfragment hc hkind
      refine ⟨text, htext, ?_⟩
      change Cause.message (.tooDeep limit.value) = _
      rw [Cause.message, show limit.value.plain? = some text from htext]

/-- **No cascades**: a parse goes through a run of fragments, at most one more than there are
semicolons before the end of the input, and reads no further with a greater bound. Its faults are
those of the fragments, one for each at most. They are at increasing positions, none of them after
the end of the input and only the last one there, and between each two there is a semicolon. This is
what a parse with a cursor comes to, wherever the cursor is before. -/
theorem faults_apart (limits : Limits) {ts : List Token} {s : TokenStream}
    (hs : TokenStream.ofList? ts = some s) :
    (∀ start, Descent.parse ⟨ts, limits⟩ start = s.parseOutcome (s.parse limits)) ∧
      ∃ rs, FragmentRun limits (TokenStream.bodyOf ts) rs ∧
        rs.length ≤ 1 + (TokenStream.bodyOf ts).countP (fun t => t.type = .semicolon) ∧
        s.parse limits = fragments limits s.eof rs.length (TokenStream.bodyOf ts) ∧
        (s.parse limits).faults = (rs.filterMap (s.faultAt? limits)).map Prod.snd ∧
        (∀ p ∈ rs.filterMap (s.faultAt? limits),
          ts[p.1]? = some p.2.token ∧ p.1 ≤ (TokenStream.bodyOf ts).length) ∧
        ((rs.filterMap (s.faultAt? limits)).map Prod.fst).Pairwise (· < ·) ∧
        ((rs.filterMap (s.faultAt? limits)).map Prod.fst).IsChain (SemicolonBetween ts) ∧
        ∀ p ∈ (rs.filterMap (s.faultAt? limits)).dropLast,
          p.1 < (TokenStream.bodyOf ts).length := by
  rw [← TokenStream.body_eq_bodyOf hs]
  obtain ⟨rs, hr⟩ := exists_fragmentRun limits s.body
  have hle := hr.length_le
  obtain ⟨hall, hchain⟩ := hr.faults_apart_from (show s.body = [] ++ s.body from rfl)
  rw [TokenStream.toList_ofList? hs] at hall hchain
  have hparse := hr.parse_eq
  have hpairwise : ((rs.filterMap (s.faultAt? limits)).map Prod.fst).Pairwise (· < ·) := by
    rw [← List.isChain_iff_pairwise, List.isChain_map]
    exact hchain.imp fun _ _ h => h.lt
  refine ⟨parse_of_ofList? hs, rs, hr, hle, hparse, by rw [hparse, hr.faults_eq],
    fun p hp => ?_, hpairwise, (List.isChain_map Prod.fst).mpr hchain, fun p hp => ?_⟩
  · obtain ⟨-, hto, hget⟩ := hall p hp
    exact ⟨hget, hto⟩
  · -- the last fault is after all others, and not after the end of the input
    have hne : rs.filterMap (s.faultAt? limits) ≠ [] := by
      intro hnil
      simp [hnil] at hp
    have hlast := (hall _ (List.getLast_mem hne)).2.1
    rw [← List.dropLast_append_getLast hne, List.map_append, List.pairwise_append] at hpairwise
    have hlt := hpairwise.2.2 p.1 (List.mem_map_of_mem hp) _ (List.mem_singleton_self _)
    exact hlt.trans_le hlast

/-- Two closing parentheses that nothing opens, each before a semicolon: two fragments. -/
theorem closing_faults_apart :
    let ts : List Token := [Pushdown.closingToken, ⟨.semicolon, ";", .nil, 1⟩,
      Pushdown.closingToken, ⟨.semicolon, ";", .nil, 1⟩, ⟨.eof, "", .nil, 1⟩]
    ∃ s rs, TokenStream.ofList? ts = some s ∧
      FragmentRun (.withDepth .standard) (TokenStream.bodyOf ts) rs ∧ rs.length ≤ 3 ∧
      (s.parse (.withDepth .standard)).faults.length = 2 ∧
      ((rs.filterMap (s.faultAt? (.withDepth .standard))).map Prod.fst).IsChain
        (SemicolonBetween ts) := by
  intro ts
  have hs : TokenStream.ofList? ts =
      some ⟨ts.take 4, ⟨.eof, "", .nil, 1⟩, [], by decide, rfl⟩ := rfl
  obtain ⟨-, rs, hr, hle, -, -, -, -, hchain, -⟩ := faults_apart (.withDepth .standard) hs
  exact ⟨_, rs, hs, hr, hle, rfl, hchain⟩

end ExprFront
