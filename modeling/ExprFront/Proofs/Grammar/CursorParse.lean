import ExprFront.Proofs.Grammar.CursorRules

/-!
A parse and single calls with a cursor.

The loop over fragments comes to the report on the tokens that are left (`turns_follows`), so that
a parse from any cursor comes to the report on the whole stream (`parse_follows`): an expression,
faults, or a break that ends a parse early, which is a payload that no literal can hold or a depth
limit that cannot be written.
`call_follows` puts the calls together: with all levels closed and the position in the body or at
its end, a call gives the answer of the step of a session on lists and leaves the cursor where the
session stands.
-/

namespace ExprFront

open TokenStream

/-! ### Ends of a parse -/

section Ends

variable {limits : Limits} {ending : Ending}

/-- A parse ends early at a payload, or at a full stack where the limit cannot be written. -/
lemma Obstacle.cases_of_cause {o : Obstacle} (h : o.cause limits = .error ending) :
    (∃ kindName, o = .payload kindName ∧ ending = .payload kindName) ∨
      o = .stackFull ∧ limits.depth.text? = none ∧ ending = .unwritten := by
  cases o with
  | fault c => cases h
  | payload kindName => exact Or.inl ⟨kindName, rfl, (Except.error.inj h).symm⟩
  | stackFull =>
      by_cases htext : limits.depth.text? = none
      · have hc := cause_eq_unwritten_iff.mpr ⟨rfl, htext⟩
        exact Or.inr ⟨rfl, htext, Except.error.inj (h.symm.trans hc)⟩
      · cases h.symm.trans (cause_stackFull htext)

/-- How a parse ends, whatever the tokens are: with the expression of the first fragment and without
a fault, with faults at the end of the input, or early. -/
lemma fragments_cases (limits : Limits) (eof : Token) :
    ∀ (bound : Nat) (ts : List Token), ts.length < bound →
      (∃ e, fragment limits ts = .ok (e, []) ∧
          fragments limits eof bound ts = ⟨[], .accepted e, []⟩) ∨
        (∃ mishaps, mishaps ≠ [] ∧ fragments limits eof bound ts = ⟨mishaps, .rejected, []⟩) ∨
        ∃ mishaps ending rest,
          fragments limits eof bound ts = ⟨mishaps, .broken ending, rest⟩ := by
  intro bound
  induction bound with
  | zero => intro ts hb; omega
  | succ bound ih =>
      intro ts hb
      cases hf : fragment limits ts with
      | ok p =>
          obtain ⟨e, rest⟩ := p
          obtain ⟨rfl, -⟩ := fragment_eq_ok hf
          exact Or.inl ⟨e, rfl, fragments_succ_of_ok hf bound⟩
      | error f =>
          refine Or.inr ?_
          cases hc : f.obstacle.cause limits with
          | error ending =>
              exact Or.inr ⟨[], ending, f.rest, fragments_succ_of_ending hf hc bound⟩
          | ok c =>
              rw [fragments_succ_of_error hf hc]
              split
              · exact Or.inl ⟨_, List.cons_ne_nil _ _, rfl⟩
              · next hne =>
                  have hlt := length_next_fragment_lt hf hne
                  rcases ih (Recovery.afterSemicolon f.rest) (by omega) with
                    ⟨e, -, hr⟩ | ⟨mishaps, -, hr⟩ | ⟨mishaps, k, rest, hr⟩
                  · exact Or.inl ⟨_, List.cons_ne_nil _ _, by rw [hr]; rfl⟩
                  · exact Or.inl ⟨_, List.cons_ne_nil _ _, by rw [hr]; rfl⟩
                  · exact Or.inr ⟨_, k, rest, by rw [hr]; rfl⟩

end Ends

/-! ### The loop -/

/-- What breaks a parse off where it ends early before a rest of the body. -/
def TokenStream.endAt (s : TokenStream) (rest : List Token) : Ending → Break
  | .payload kindName => s.breakAt rest (.payload kindName)
  | .unwritten => .unwritten

/-- What a report on the tokens that are left comes to for the loop: the expression, unless there
are faults from before, or what breaks it off, with all faults recorded. -/
def TokenStream.loopOutcome (s : TokenStream) (before : List Fault) (r : Report) :
    Except Break (Option Value) × Cursor :=
  let result :=
    match r.verdict with
    | .accepted e => .ok (if before.isEmpty then some (.expression e.weaken) else none)
    | .rejected => .ok none
    | .broken ending => .error (s.endAt r.rest ending)
  (result, s.cursor r.rest 0 (before ++ r.faults))

/-- A fault before the report counts as one from before. -/
lemma loopOutcome_after (s : TokenStream) (before : List Fault) (mishap : Mishap) (r : Report) :
    s.loopOutcome (before ++ [mishap.fault]) r = s.loopOutcome before (r.after mishap) := by
  obtain ⟨mishaps, verdict, rest⟩ := r
  cases verdict <;> simp [loopOutcome, Report.after, Report.faults]

section Loop

variable {s : TokenStream} {limits : Limits} {before : List Fault} {ts : List Token} {e : Expr}
  {f : Failure} {c : Cause}

/-- A fault is recorded, and parsing goes on after the next semicolon. -/
lemma giveUp_cursor (hts : ts <:+ s.body) (levels : Int) (f : Fault) :
    (s.descent limits).giveUp f (s.cursor ts levels before) =
      (.ok (), s.cursor (Recovery.afterSemicolon ts) levels (before ++ [f])) := by
  have hrecord : (Method.change fun c => { c with faults := c.faults ++ [f] } : Parsing Unit)
      (s.cursor ts levels before) = (.ok (), s.cursor ts levels (before ++ [f])) := rfl
  rw [Descent.giveUp, Method.bind_of_ok hrecord, Descent.recover_cursor hts]

/-- Where a fragment fails, what is left of it is a rest of the body. -/
lemma suffix_of_fragment_eq_error (hf : fragment limits ts = .error f) (hts : ts <:+ s.body) :
    f.rest <:+ s.body := by
  obtain ⟨us, hus⟩ := exists_of_fragment_eq_error hf
  exact (hus ▸ List.suffix_append us f.rest).trans hts

/-- A fragment before a rest of the body, with all levels closed. -/
lemma fragment_outcome (hts : ts <:+ s.body) :
    (s.descent limits).fragment (s.cursor ts 0 before) =
      s.outcome 0 before (fragment limits ts) :=
  fragment_follows s limits ts before hts hts.length_le

lemma turn_of_ok (hts : ts <:+ s.body) (hf : fragment limits ts = .ok (e, [])) :
    (s.descent limits).turn none (s.cursor ts 0 before) =
      (.ok (if before.isEmpty then some (.expression e.weaken) else none),
        s.cursor [] 0 before) := by
  rw [Descent.turn, fragment_outcome hts, hf]
  simp [outcome, cursor]

/-- A fragment that fails for a cause is given up. -/
lemma turn_of_error (hts : ts <:+ s.body) (hf : fragment limits ts = .error f)
    (hc : f.obstacle.cause limits = .ok c) :
    (s.descent limits).turn none (s.cursor ts 0 before) =
      (.ok none, s.cursor (Recovery.afterSemicolon f.rest) 0
        (before ++ [⟨c, s.next f.rest⟩])) := by
  have hrest := suffix_of_fragment_eq_error hf hts
  obtain ⟨o, rest⟩ := f
  rw [Descent.turn, fragment_outcome hts, hf]
  cases o with
  | payload kindName => simp [Obstacle.cause] at hc
  | fault cause =>
      obtain rfl : cause = c := Except.ok.inj hc
      exact Method.bind_of_ok (giveUp_cursor hrest 0 _)
  | stackFull =>
      by_cases htext : limits.depth.text? = none
      · cases hc.symm.trans (Obstacle.cause_eq_unwritten_iff.mpr ⟨rfl, htext⟩)
      · obtain rfl := Except.ok.inj ((Obstacle.cause_stackFull htext).symm.trans hc)
        have hsome : (s.descent limits).limits.depth.text?.isSome = true :=
          Option.isSome_iff_ne_none.mpr htext
        refine (Method.bind_of_ok (Descent.peek_cursor hrest)).trans ?_
        rw [if_pos hsome]
        exact Method.bind_of_ok (giveUp_cursor hrest 0 _)

/-- A fragment that fails without a cause breaks the parse off. -/
lemma turn_of_ending {ending : Ending} (hts : ts <:+ s.body)
    (hf : fragment limits ts = .error f) (hc : f.obstacle.cause limits = .error ending) :
    (s.descent limits).turn none (s.cursor ts 0 before) =
      (.error (s.endAt f.rest ending), s.cursor f.rest 0 before) := by
  have hrest := suffix_of_fragment_eq_error hf hts
  obtain ⟨o, rest⟩ := f
  rw [Descent.turn, fragment_outcome hts, hf]
  rcases Obstacle.cases_of_cause hc with ⟨kindName, rfl, rfl⟩ | ⟨rfl, htext, rfl⟩
  · rfl
  · refine (Method.bind_of_ok (Descent.peek_cursor hrest)).trans ?_
    rw [if_neg (by simp [descent, htext])]
    rfl

/-- The loop over fragments comes to the report on the tokens that are left, if it has more steps
than there are tokens. -/
lemma turns_follows (s : TokenStream) (limits : Limits) :
    ∀ (steps : Nat) (ts : List Token) (before : List Fault), ts <:+ s.body → ts.length < steps →
      (s.descent limits).turns steps none (s.cursor ts 0 before) =
        s.loopOutcome before (fragments limits s.eof steps ts) := by
  intro steps
  induction steps with
  | zero => intro ts before _ hsteps; omega
  | succ steps ih =>
      intro ts before hts hsteps
      rw [Descent.turns]
      cases hf : fragment limits ts with
      | ok p =>
          obtain ⟨e, rest⟩ := p
          obtain ⟨rfl, -⟩ := fragment_eq_ok hf
          rw [Method.bind_of_ok (turn_of_ok hts hf),
            Method.bind_of_ok (Descent.atEnd_cursor List.nil_suffix), fragments_succ_of_ok hf]
          simp [loopOutcome, Report.faults, pure]
      | error f =>
          cases hc : f.obstacle.cause limits with
          | error ending =>
              rw [Method.bind_of_error (turn_of_ending hts hf hc),
                fragments_succ_of_ending hf hc]
              simp [loopOutcome, Report.faults]
          | ok c =>
              have hnext : Recovery.afterSemicolon f.rest <:+ s.body :=
                (Recovery.afterSemicolon_suffix f.rest).trans
                  (suffix_of_fragment_eq_error hf hts)
              rw [Method.bind_of_ok (turn_of_error hts hf hc),
                Method.bind_of_ok (Descent.atEnd_cursor hnext), fragments_succ_of_error hf hc]
              by_cases hn : Recovery.afterSemicolon f.rest = []
              · rw [if_pos hn, hn]
                rfl
              · have hlt := length_next_fragment_lt hf hn
                rw [if_neg hn, if_neg (by simpa using hn), ih _ _ hnext (by omega)]
                exact loopOutcome_after s before (f.mishap c s.eof) _

end Loop

/-! ### A parse -/

/-- What a report comes to for a parse: an expression, faults, or what breaks it off. -/
def TokenStream.parseOutcome (s : TokenStream) (r : Report) :
    Except Break Descent.Result × Cursor :=
  let result :=
    match r.verdict with
    | .accepted e => .ok ⟨some (.expression e.weaken), []⟩
    | .rejected => .ok ⟨none, r.faults⟩
    | .broken ending => .error (s.endAt r.rest ending)
  (result, s.cursor r.rest 0 r.faults)

/-- **A parse with a cursor** comes to the report on the stream, wherever the cursor is before. -/
theorem parse_follows (s : TokenStream) (limits : Limits) (c : Cursor) :
    (s.descent limits).parse c = s.parseOutcome (s.parse limits) := by
  have hfront : (Method.change fun _ => {} : Parsing Unit) c =
      (.ok (), s.cursor s.body 0 []) := by
    rw [cursor, position_body]
    rfl
  have hsteps : s.body.length < (s.descent limits).tokens.length + 1 := by
    change s.body.length < s.toList.length + 1
    rw [toList, List.length_append]
    omega
  have hturns := turns_follows s limits _ s.body [] List.suffix_rfl hsteps
  rw [fragments_bound limits s.eof _ (s.body.length + 1) s.body hsteps (Nat.lt_succ_self _)]
    at hturns
  rw [Descent.parse, Method.bind_of_ok hfront, TokenStream.parse]
  rcases fragments_cases limits s.eof (s.body.length + 1) s.body (Nat.lt_succ_self _) with
    ⟨e, -, hr⟩ | ⟨mishaps, hne, hr⟩ | ⟨mishaps, ending, rest, hr⟩
  · rw [hr] at hturns ⊢
    exact Method.bind_of_ok hturns
  · obtain ⟨mishap, mishaps, rfl⟩ := List.exists_cons_of_ne_nil hne
    rw [hr] at hturns ⊢
    exact Method.bind_of_ok hturns
  · rw [hr] at hturns ⊢
    exact Method.bind_of_error hturns

/-- A parse with a cursor is broken off because the depth limit cannot be written exactly if it
cannot, and some fragment finds the stack full. -/
lemma parse_eq_unwritten_iff (s : TokenStream) (limits : Limits) (c : Cursor) :
    ((s.descent limits).parse c).1 = .error .unwritten ↔
      limits.depth.text? = none ∧ Overflows limits s.body := by
  rw [parse_follows, parseOutcome,
    ← fragments_unwritten_iff limits s.eof _ s.body (Nat.lt_succ_self _), TokenStream.parse]
  cases hv : (fragments limits s.eof (s.body.length + 1) s.body).verdict with
  | accepted e => exact iff_of_false nofun nofun
  | rejected => exact iff_of_false nofun nofun
  | broken ending =>
      cases ending with
      | payload kindName => exact iff_of_false nofun nofun
      | unwritten => exact iff_of_true rfl rfl

/-! ### Readings -/

/-- What a reading comes to for a caller: its expression, if there is one, and its faults. -/
def Reading.result (r : Reading) : Descent.Result :=
  ⟨r.expression?.map fun e => .expression e.weaken, r.report.faults⟩

section Readings

variable {s : TokenStream} (limit : DepthLimit)

/-- A reading of admissible tokens has an expression and no fault, or faults and no expression, or
it ends early because the depth limit cannot be written. -/
lemma ofStream_cases (hadm : ∀ t ∈ s.body, t.Admissible) :
    (∃ e, (Reading.ofStream limit s).expression? = some e ∧
        s.parse (.withDepth limit) = ⟨[], .accepted e, []⟩) ∨
      (Reading.ofStream limit s).expression? = none ∧
        ((s.parse (.withDepth limit)).verdict = .rejected ∧
            (Reading.ofStream limit s).report.faults ≠ [] ∨
          (s.parse (.withDepth limit)).verdict = .broken .unwritten) := by
  rcases fragments_verdict (.withDepth limit) s.eof _ s.body (Nat.lt_succ_self _) hadm with
    ⟨e, -, hr⟩ | ⟨f, -, ⟨hv, hne⟩ | hv⟩
  · refine Or.inl ⟨e, ?_, hr⟩
    rw [Reading.expression?, Reading.ofStream, TokenStream.parse, hr]
  · refine Or.inr ⟨?_, Or.inl ⟨hv, mt List.map_eq_nil_iff.mp hne⟩⟩
    rw [Reading.expression?, Reading.ofStream, TokenStream.parse, hv]
  · refine Or.inr ⟨?_, Or.inr hv⟩
    rw [Reading.expression?, Reading.ofStream, TokenStream.parse, hv]

/-- A parse with a cursor, of the tokens of a reading, comes to the report of the reading. -/
lemma parse_of_readTokens {limit : DepthLimit} {ts : List Token} {r : Reading}
    (h : readTokens limit ts = some r) (c : Cursor) :
    Descent.parse ⟨ts, .withDepth limit⟩ c = r.stream.parseOutcome r.report := by
  obtain ⟨s, hs, rfl⟩ := Option.map_eq_some_iff.mp h
  rw [← TokenStream.toList_ofList? hs]
  exact parse_follows s _ c

/-- A parse with a cursor, of the tokens of a reading, gives its result, unless it is broken off
because the depth limit cannot be written. -/
lemma parse_cases (hadm : ∀ t ∈ s.body, t.Admissible) (c : Cursor) :
    ((s.descent (.withDepth limit)).parse c).1 = .ok (Reading.ofStream limit s).result ∨
      ((s.descent (.withDepth limit)).parse c).1 = .error .unwritten ∧ limit.text? = none ∧
        Overflows (.withDepth limit) s.body := by
  have hunwritten := parse_eq_unwritten_iff s (.withDepth limit) c
  rw [Reading.result]
  rw [parse_follows] at hunwritten ⊢
  rcases ofStream_cases limit hadm with ⟨e, he, hr⟩ | ⟨hnone, ⟨hr, -⟩ | hr⟩
  · rw [he, Reading.ofStream, hr]
    exact Or.inl rfl
  · rw [hnone, parseOutcome, hr]
    exact Or.inl rfl
  · have herror : (s.parseOutcome (s.parse (.withDepth limit))).1 = .error .unwritten := by
      rw [parseOutcome, hr]
      rfl
    exact Or.inr ⟨herror, hunwritten.mp herror⟩

end Readings

/-! ### Calls -/

namespace ParseSession

/-- The cursor where a session stands, with all levels closed. -/
def cursor (q : ParseSession) : Cursor := ⟨q.position, 0, q.faults⟩

/-- The break at the payload of the token before the position. -/
def refusal (q : ParseSession) : Break := .refused (.literalHolds q.previous.payload)

/-- What an answer comes to as the reply to a call, after which the session stands as given. -/
def reply (q : ParseSession) : Answer → Except Break Descent.Reply
  | .report ⟨mishaps, verdict, _⟩ =>
    match verdict with
    | .accepted e => .ok (.result ⟨some (.expression e.weaken), []⟩)
    | .rejected => .ok (.result ⟨none, mishaps.map Mishap.fault⟩)
    | .broken (.payload _) => .error q.refusal
    | .broken .unwritten => .error .unwritten
  | .expression e => .ok (.node (.expression e.weaken))
  | .token t => .ok (.token t)
  | .truth b => .ok (.truth b)
  | .done => .ok .done
  | .fault f => .error (.fault f)
  | .payloadRefused _ => .error q.refusal
  | .stackFull => .error .stackFull

section Calls

variable {q : ParseSession}

lemma cursor_eq (h : q.position ≤ q.stream.body.length) :
    q.cursor = q.stream.cursor q.rest 0 q.faults := by
  rw [cursor, TokenStream.cursor, rest, position_drop h]

lemma rest_suffix (q : ParseSession) : q.rest <:+ q.stream.body := List.drop_suffix _ _

/-- A rule that is followed is followed where a session stands. -/
lemma run_follows {m : Parsing Value} {rule : Rule}
    (hm : Follows q.stream q.stream.body.length 0 m rule)
    (h : q.position ≤ q.stream.body.length) :
    (Descent.Reply.node <$> m) q.cursor =
      ((q.run rule).2.reply (q.run rule).1, (q.run rule).2.cursor) := by
  have hfollows := hm q.rest q.faults q.rest_suffix q.rest_suffix.length_le
  rw [cursor_eq h, run]
  cases hr : rule q.rest with
  | ok p =>
      rw [hr] at hfollows
      exact Method.map_of_ok hfollows
  | error f =>
      obtain ⟨o, rest⟩ := f
      rw [hr] at hfollows
      cases o <;> exact Method.map_of_error hfollows

/-- Over one token, a call gives the token that the session is then behind. -/
lemma advance_follows (limits : Limits) (h : q.position ≤ q.stream.body.length) :
    (q.stream.descent limits).advance q.cursor = (.ok q.advance.previous, q.advance.cursor) := by
  have hsuffix := q.rest_suffix
  rw [cursor_eq h]
  cases hr : q.rest with
  | nil =>
      rw [Descent.advance_nil, advance, hr, previous, cursor]
      rfl
  | cons t ts =>
      rw [hr] at hsuffix
      rw [Descent.advance_cons hsuffix, advance, hr]
      exact congrArg (fun u => (Except.ok u, _)) (previous_of_cons hsuffix).symm

/-- **Calls follow the steps of a session**: where a session stands, with all levels closed, a call
gives the answer of the step and leaves the cursor where the session then stands. -/
theorem call_follows (q : ParseSession) (h : q.position ≤ q.stream.body.length) (step : Step) :
    (q.stream.descent q.limits).call step q.cursor =
      ((q.step step).2.reply (q.step step).1, (q.step step).2.cursor) := by
  have hsuffix := q.rest_suffix
  have hcheck (type : TokenType) : (q.stream.descent q.limits).check type q.cursor =
      (.ok (q.check type), q.cursor) := by
    rw [cursor_eq h]
    exact Descent.check_cursor hsuffix type
  have hpeek : (q.stream.descent q.limits).peek q.cursor = (.ok q.next, q.cursor) := by
    rw [cursor_eq h]
    exact Descent.peek_cursor hsuffix
  cases step with
  | parse =>
      have hparse := parse_follows q.stream q.limits q.cursor
      rw [ParseSession.step]
      cases hr : q.stream.parse q.limits with
      | mk mishaps verdict rest =>
          rw [hr] at hparse
          cases verdict with
          | accepted e => exact Method.map_of_ok hparse
          | rejected => exact Method.map_of_ok hparse
          | broken ending => cases ending <;> exact Method.map_of_error hparse
  | rule name => exact run_follows (rule_follows q.stream q.limits name) h
  | fragment => exact run_follows (fragment_follows q.stream q.limits) h
  | accept types =>
      have haccept : (q.stream.descent q.limits).accept types q.cursor =
          if types.any q.check then (.ok true, q.advance.cursor) else (.ok false, q.cursor) := by
        rw [cursor_eq h]
        exact Descent.accept_cursor hsuffix types
      rw [ParseSession.step]
      split at haccept
      · next hany =>
          rw [if_pos hany]
          exact Method.map_of_ok haccept
      · next hany =>
          rw [if_neg hany]
          exact Method.map_of_ok haccept
  | check type => exact Method.map_of_ok (hcheck type)
  | atEnd =>
      have hend : (q.stream.descent q.limits).atEnd q.cursor =
          (.ok q.rest.isEmpty, q.cursor) := by
        rw [cursor_eq h]
        exact Descent.atEnd_cursor hsuffix
      exact Method.map_of_ok hend
  | advance => exact Method.map_of_ok (advance_follows q.limits h)
  | next => exact Method.map_of_ok hpeek
  | previous => exact Method.map_of_ok (Descent.previous_apply q.limits h)
  | require type expected context =>
      rw [ParseSession.step]
      cases hc : q.check type with
      | true =>
          refine Method.map_of_ok ?_
          rw [Descent.require, Method.bind_of_ok (hcheck type), hc]
          exact advance_follows q.limits h
      | false =>
          refine Method.map_of_error ?_
          rw [Descent.require, Method.bind_of_ok (hcheck type), hc]
          exact Method.bind_of_ok hpeek
  | recover =>
      have hrecover : (q.stream.descent q.limits).recover q.cursor =
          (.ok (), (q.moveTo (Recovery.afterSemicolon q.rest)).cursor) := by
        rw [cursor_eq h]
        exact Descent.recover_cursor hsuffix
      exact Method.map_of_ok hrecover

end Calls

end ParseSession

end ExprFront
