import ExprFront.Proofs.Grammar.CursorParse

/-!
Recovery: parsing goes on after a fault as if it started there.

* `TokenStream.firstObstacle?`: what stops the first fragment of a stream, and where.
* `faults_eq_cons`: after the first fault come those of the list from the next boundary on, parsed
  afresh. Neither the depth nor the stack of the fragment that failed is left over, whatever stopped
  it.
-/

namespace ExprFront

/-- What stops the first fragment of a stream, and the position of the next token then. -/
def TokenStream.firstObstacle? (limits : Limits) (s : TokenStream) : Option (Obstacle × Nat) :=
  match fragment limits s.body with
  | .ok _ => none
  | .error f => some (f.obstacle, s.position f.rest)

lemma TokenStream.firstObstacle?_eq_some {limits : Limits} {s : TokenStream} {f : Failure}
    (h : fragment limits s.body = .error f) :
    s.firstObstacle? limits = some (f.obstacle, s.position f.rest) := by
  rw [firstObstacle?, h]

/-! ### Faults -/

section Faults

variable {limits : Limits} {ts : List Token} {s : TokenStream}

/-- If parsing has a fault, the first one is at the token where the first fragment is stopped. -/
lemma exists_first_failure (hfaults : (s.parse limits).faults ≠ []) :
    ∃ f c us, fragment limits s.body = .error f ∧ f.obstacle.cause limits = .ok c ∧
      s.body = us ++ f.rest ∧
      s.firstObstacle? limits = some (f.obstacle, us.length) ∧
      (s.parse limits).faults.head? = some ⟨c, f.rest.headD s.eof⟩ := by
  cases hf : fragment limits s.body with
  | ok p =>
      obtain ⟨e, rest⟩ := p
      exact absurd (by rw [TokenStream.parse, fragments_succ_of_ok hf]; rfl) hfaults
  | error f =>
      obtain ⟨us, hus⟩ := exists_of_fragment_eq_error hf
      cases hc : f.obstacle.cause limits with
      | error ending =>
          exact absurd (by rw [TokenStream.parse, fragments_succ_of_ending hf hc]; rfl) hfaults
      | ok c =>
          refine ⟨f, c, us, rfl, hc, hus, ?_, ?_⟩
          · rw [TokenStream.firstObstacle?_eq_some hf, TokenStream.position_eq hus]
          · rw [TokenStream.parse, fragments_succ_of_error hf hc]
            split <;> rfl

/-- A parse of admissible tokens that has a fault is rejected, unless it ends early because the
depth limit cannot be written. -/
lemma verdict_of_faults (hs : TokenStream.ofList? ts = some s)
    (hadm : ∀ t ∈ TokenStream.bodyOf ts, t.Admissible) (hfaults : (s.parse limits).faults ≠ []) :
    (s.parse limits).verdict = .rejected ∨
      limits.depth.text? = none ∧ (s.parse limits).verdict = .broken .unwritten := by
  rw [← TokenStream.body_eq_bodyOf hs] at hadm
  rcases fragments_verdict limits s.eof _ s.body (Nat.lt_succ_self _) hadm with
    ⟨e, -, hr⟩ | ⟨f, hf, ⟨hv, -⟩ | hv⟩
  · exact absurd (by rw [TokenStream.parse, hr]; rfl) hfaults
  · exact Or.inl hv
  · exact Or.inr ⟨((fragments_unwritten_iff _ _ _ _ (Nat.lt_succ_self _)).mp hv).1, hv⟩

/-- A parse with a cursor, of the tokens of a stream. -/
lemma parse_of_ofList? (hs : TokenStream.ofList? ts = some s) (c : Cursor) :
    Descent.parse ⟨ts, limits⟩ c = s.parseOutcome (s.parse limits) := by
  rw [← TokenStream.toList_ofList? hs]
  exact parse_follows s limits c

/-- **Recovery**: if parsing has a fault, the first one is at the token where the first fragment is
stopped. The faults after it are those of the tokens from the next boundary on, parsed by
themselves; at the end of the input there are none. Parsing then has no expression, and it ends
early exactly if parsing these tokens does, which takes a depth limit that cannot be written. This
is what a parse with a cursor comes to, both of all tokens and of those from the boundary on. -/
theorem faults_eq_cons (hs : TokenStream.ofList? ts = some s)
    (hadm : ∀ t ∈ TokenStream.bodyOf ts, t.Admissible) (hfaults : (s.parse limits).faults ≠ []) :
    ∃ o p c t k u, s.firstObstacle? limits = some (o, p) ∧ o.cause limits = .ok c ∧
      ts[p]? = some t ∧ Recovery.ResumesAt ts p k ∧ ts[k]? = some u ∧
      ((s.parse limits).verdict = .rejected ∨
        limits.depth.text? = none ∧ (s.parse limits).verdict = .broken .unwritten) ∧
      (∀ start, Descent.parse ⟨ts, limits⟩ start = s.parseOutcome (s.parse limits)) ∧
      if u.isEof then (s.parse limits).verdict = .rejected ∧ (s.parse limits).faults = [⟨c, t⟩]
      else ∃ s', TokenStream.ofList? (ts.drop k) = some s' ∧
        (∀ start, Descent.parse ⟨ts.drop k, limits⟩ start = s'.parseOutcome (s'.parse limits)) ∧
        ((s.parse limits).verdict = .broken .unwritten ↔
          (s'.parse limits).verdict = .broken .unwritten) ∧
        (s.parse limits).faults = ⟨c, t⟩ :: (s'.parse limits).faults := by
  obtain ⟨f, c, us, hf, hc, hus, hfirst, -⟩ := exists_first_failure hfaults
  have hts := TokenStream.eq_of_body_eq hs hus
  have hrest : ∀ t ∈ f.rest, t.isEof = false := by
    intro t ht
    refine s.body_not_eof t ?_
    rw [hus]
    exact List.mem_append_right us ht
  obtain ⟨vs, hvs, hk⟩ := Recovery.resumesAt_afterSemicolon s.eof_isEof hrest us
  obtain ⟨next, hnext⟩ : ∃ next, next = Recovery.afterSemicolon f.rest := ⟨_, rfl⟩
  rw [← hnext] at hvs
  have hsplit : ts = us ++ vs ++ (next ++ s.eof :: s.after) := by
    rw [hts, hvs]
    simp
  have hlen : us.length + vs.length = (us ++ vs).length := List.length_append.symm
  have hparse : s.parse limits =
      if next = [] then ⟨[f.mishap c s.eof], .rejected, []⟩
      else (fragments limits s.eof s.body.length next).after (f.mishap c s.eof) := by
    rw [hnext]
    exact fragments_succ_of_error hf hc s.body.length
  refine ⟨f.obstacle, us.length, c, f.rest.headD s.eof, us.length + vs.length, next.headD s.eof,
    hfirst, hc, ?_, ?_, ?_, verdict_of_faults hs hadm hfaults, parse_of_ofList? hs, ?_⟩
  · rw [hts]
    exact Recovery.getElem?_length_append us f.rest s.after s.eof
  · rw [hts]
    exact hk
  · rw [hsplit, hlen]
    exact Recovery.getElem?_length_append (us ++ vs) next s.after s.eof
  · rw [hparse]
    cases next with
    | nil =>
        rw [List.headD_nil, if_pos s.eof_isEof, if_pos rfl]
        exact ⟨rfl, rfl⟩
    | cons u next =>
        have hbody : ∀ t ∈ u :: next, t.isEof = false := by
          intro t ht
          refine hrest t ?_
          rw [hvs]
          exact List.mem_append_right vs ht
        have hu : ¬u.isEof = true := by simpa using hbody u List.mem_cons_self
        rw [List.headD_cons, if_neg hu, if_neg (List.cons_ne_nil u next)]
        have hshort : (u :: next).length < s.body.length := by
          rw [hnext]
          exact length_next_fragment_lt hf (by rw [← hnext]; simp)
        have hlist : TokenStream.ofList? (ts.drop (us.length + vs.length)) =
            some ⟨u :: next, s.eof, s.after, hbody, s.eof_isEof⟩ := by
          rw [hsplit, hlen, List.drop_left]
          exact TokenStream.ofList?_append hbody s.eof_isEof
        rw [fragments_bound limits s.eof s.body.length ((u :: next).length + 1) _ hshort
          (Nat.lt_succ_self _)]
        exact ⟨_, hlist, parse_of_ofList? hlist, Report.verdict_after_eq_broken, rfl⟩

/-- The fault at a closing parenthesis that nothing opens, with a text after it. -/
theorem faults_closing_eq_cons :
    let ts : List Token := [Pushdown.closingToken, ⟨.semicolon, ";", .nil, 1⟩,
      Pushdown.operandToken, ⟨.eof, "", .nil, 1⟩]
    ∃ s, TokenStream.ofList? ts = some s ∧ (s.parse (.withDepth .standard)).faults ≠ [] ∧
      ∃ p c t k u, ts[p]? = some t ∧ Recovery.ResumesAt ts p k ∧ ts[k]? = some u ∧
        (s.parse (.withDepth .standard)).faults.head? = some ⟨c, t⟩ := by
  intro ts
  have hadm : ∀ t ∈ TokenStream.bodyOf ts, t.Admissible := by
    simp [ts, TokenStream.bodyOf, TokenOf.isEof, TokenOf.Admissible, Pushdown.closingToken,
      Pushdown.operandToken]
  obtain ⟨s, hs⟩ : ∃ s, TokenStream.ofList? ts = some s := ⟨_, rfl⟩
  have hne : (s.parse (.withDepth .standard)).faults ≠ [] := by
    obtain rfl := Option.some.inj hs
    exact List.cons_ne_nil _ _
  obtain ⟨o, p, c, t, k, u, -, -, ht, hk, hu, -, -, hfaults⟩ := faults_eq_cons hs hadm hne
  refine ⟨s, hs, hne, p, c, t, k, u, ht, hk, hu, ?_⟩
  split at hfaults
  · rw [hfaults.2]
    rfl
  · obtain ⟨s', -, -, -, hcons⟩ := hfaults
    rw [hcons]
    rfl

end Faults

end ExprFront
