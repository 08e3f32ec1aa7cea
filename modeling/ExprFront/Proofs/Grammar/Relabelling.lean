import Mathlib.Data.List.GetD
import ExprFront.Proofs.Grammar.Correspondence
import ExprFront.Proofs.Grammar.DepthScan

/-!
The parser commutes with a change of texts and lines.

A relabelling (`Relabelling`) changes the texts and the lines of tokens and leaves their types and
payloads. It is a correspondence of each token with its image, under which reports correspond
exactly if one is the image of the other (`Relabelling.report_eq`). Tokens of the same types, too,
correspond (`Correspondence.types`) once their payloads fit, so that the types alone decide what is
accepted, in which shape, and where the faults are. `reading_relabelled` has both.
-/

namespace ExprFront

/-! ### Relabellings -/

/-- A tree with another token for each operator. -/
def Tree.relabel {P H : Type} (f : TokenOf P → TokenOf P) : Tree P H → Tree P H
  | .literal value => .literal value
  | .grouping inner => .grouping (inner.relabel f)
  | .unary operator operand => .unary (f operator) (operand.relabel f)
  | .binary left operator right => .binary (left.relabel f) (f operator) (right.relabel f)
  | .bare mark => .bare mark

lemma Tree.weaken_relabel (f : Token → Token) (e : Expr) :
    ((e.relabel f).weaken : OpenExpr) = e.weaken.relabel f := by
  induction e with
  | literal value => rfl
  | grouping inner ih => exact congrArg grouping ih
  | unary operator operand ih => exact congrArg (unary (f operator)) ih
  | binary left operator right ihl ihr =>
      rw [relabel, weaken, weaken, relabel, ihl, ihr]
  | bare mark => exact mark.elim

/-- A change of tokens that keeps their types and payloads. -/
structure Relabelling where
  toFun : Token → Token
  type_eq : ∀ t, (toFun t).type = t.type
  payload_eq : ∀ t, (toFun t).payload = t.payload

namespace Relabelling

instance : CoeFun Relabelling fun _ => Token → Token := ⟨toFun⟩

variable (f : Relabelling)

lemma isEof_eq (t : Token) : (f t).isEof = t.isEof := by
  rw [TokenOf.isEof, f.type_eq, TokenOf.isEof]

lemma literal?_eq (t : Token) : literal? (f t) = literal? t := by
  rw [literal?, f.type_eq, f.payload_eq, literal?]

/-- A stream with other tokens. -/
def stream (s : TokenStream) : TokenStream where
  body := s.body.map f
  eof := f s.eof
  after := s.after.map f
  body_not_eof := by
    intro t ht
    obtain ⟨u, hu, rfl⟩ := List.mem_map.mp ht
    rw [f.isEof_eq, s.body_not_eof u hu]
  eof_isEof := by rw [f.isEof_eq, s.eof_isEof]

/-- The same fault at another token. -/
def fault (g : Fault) : Fault := ⟨g.cause, f g.token⟩

/-- The same end, with other operators in the expression. -/
def verdict : Verdict → Verdict
  | .accepted e => .accepted (e.relabel f)
  | .rejected => .rejected
  | .broken ending => .broken ending

/-- A report about other tokens. -/
def report (r : Report) : Report where
  mishaps := r.mishaps.map fun m => ⟨f.fault m.fault, m.skipped⟩
  verdict := f.verdict r.verdict
  rest := r.rest.map f

/-- A reading of other tokens. -/
def reading (r : Reading) : Reading := ⟨f.stream r.stream, f.report r.report⟩

/-- A value with other operators, if it is an expression. -/
def value : Value → Value
  | .expression e => .expression (e.relabel f)
  | v => v

/-- What comes of a parse of other tokens. -/
def result (r : Descent.Result) : Descent.Result :=
  ⟨r.expression.map f.value, r.faults.map f.fault⟩

/-- The same cursor, with faults at other tokens. -/
def cursor (c : Cursor) : Cursor := { c with faults := c.faults.map f.fault }

/-! ### A token and its image -/

/-- Each token corresponds to its image, and each scalar to itself. -/
def correspondence : Correspondence where
  token t u := u = f t
  scalar := Eq
  type_eq := by
    rintro t _ rfl
    exact (f.type_eq t).symm
  literals := by
    rintro t _ rfl
    rw [f.literal?_eq]
    cases literal? t with
    | none => exact .nothing
    | some r =>
        cases r with
        | error kindName => exact .refused kindName
        | ok v => exact .scalars rfl

variable {f}

lemma tokens_iff {ts us : List Token} : f.correspondence.Tokens ts us ↔ us = ts.map f := by
  constructor
  · intro h
    induction h with
    | nil => rfl
    | cons ht _ ih => rw [List.map_cons, ← ih, ht]
  · rintro rfl
    rw [Correspondence.Tokens, List.forall₂_map_right_iff]
    exact List.forall₂_same.mpr fun t _ => rfl

lemma tree_eq {e e' : Expr} (h : f.correspondence.Trees e e') : e' = e.relabel f := by
  induction h with
  | literal h => rw [Tree.relabel, h]
  | grouping _ ih => rw [Tree.relabel, ih]
  | unary ht _ ih => rw [Tree.relabel, ih, ht]
  | binary _ ht _ ihl ihr => rw [Tree.relabel, ihl, ihr, ht]

lemma mishaps_eq {ms ms' : List Mishap} (h : List.Forall₂ f.correspondence.Mishaps ms ms') :
    ms' = ms.map fun m => ⟨f.fault m.fault, m.skipped⟩ := by
  induction h with
  | nil => rfl
  | @cons m m' ms ms' hm _ ih =>
      obtain ⟨⟨cause, token⟩, skipped⟩ := m
      obtain ⟨⟨cause', token'⟩, skipped'⟩ := m'
      obtain ⟨hcause, htoken, hskipped⟩ := hm
      dsimp only at hcause htoken hskipped
      rw [List.map_cons, ← ih, hcause, htoken, hskipped]
      rfl

lemma verdict_eq {v v' : Verdict} (h : f.correspondence.Verdicts v v') : v' = f.verdict v := by
  cases h with
  | accepted he => rw [verdict, tree_eq he]
  | rejected => rfl
  | broken ending => rfl

/-- Reports that correspond are a report and its image. -/
lemma report_eq {r r' : Report} (h : f.correspondence.Reports r r') : r' = f.report r := by
  rw [report, ← mishaps_eq h.mishaps, ← verdict_eq h.verdict, ← tokens_iff.mp h.rest]

lemma places_eq {ps ps' : List (ℕ × Fault)} (h : List.Forall₂ f.correspondence.Places ps ps') :
    ps' = ps.map fun p => (p.1, f.fault p.2) := by
  induction h with
  | nil => rfl
  | @cons p p' ps ps' hp _ ih =>
      obtain ⟨position, cause, token⟩ := p
      obtain ⟨position', cause', token'⟩ := p'
      obtain ⟨hposition, hcause, htoken⟩ := hp
      dsimp only at hposition hcause htoken
      rw [List.map_cons, ← ih, ← hposition, ← hcause, htoken]
      rfl

/-! ### Streams and parses -/

lemma ofList?_map {ts : List Token} {s : TokenStream} (h : TokenStream.ofList? ts = some s) :
    TokenStream.ofList? (ts.map f) = some (f.stream s) := by
  have hts := TokenStream.toList_ofList? h
  rw [← hts, TokenStream.toList, List.map_append, List.map_cons]
  exact TokenStream.ofList?_append (f.stream s).body_not_eof (f.stream s).eof_isEof

lemma streams (s : TokenStream) : f.correspondence.Streams s (f.stream s) :=
  ⟨tokens_iff.mpr rfl, rfl⟩

/-- A parse of the images gives the image of the report. -/
lemma parse_stream (limits : Limits) (s : TokenStream) :
    (f.stream s).parse limits = f.report (s.parse limits) :=
  report_eq (Correspondence.parse_respects limits (streams s))

lemma reading_ofStream (limit : DepthLimit) (s : TokenStream) :
    Reading.ofStream limit (f.stream s) = f.reading (.ofStream limit s) := by
  rw [Reading.ofStream, parse_stream]
  rfl

lemma expression?_reading (r : Reading) :
    (f.reading r).expression? = r.expression?.map fun e => e.relabel f := by
  obtain ⟨stream, mishaps, verdict, rest⟩ := r
  cases verdict <;> rfl

lemma faults_report (r : Report) : (f.report r).faults = r.faults.map f.fault := by
  rw [Report.faults, Report.faults, report, List.map_map, List.map_map]
  rfl

/-- The faults over the images are at the same positions. -/
lemma faultsAt_stream {limits : Limits} {s : TokenStream} {ps : List (ℕ × Fault)}
    (h : s.FaultsAt limits ps) :
    (f.stream s).FaultsAt limits (ps.map fun p => (p.1, f.fault p.2)) := by
  obtain ⟨ps', hps', hplaces⟩ := Correspondence.faultsAt_respects (streams s) h
  rwa [← places_eq hplaces]

/-! ### Cursors -/

lemma previous_stream (s : TokenStream) (position : ℕ) :
    (f.stream s).previous position = f (s.previous position) := by
  cases position with
  | zero =>
      change (s.after.map f).getLastD (f s.eof) = f (s.after.getLastD s.eof)
      rw [List.getLastD_map]
  | succ n =>
      change (s.body.map f).getD n (f s.eof) = f (s.body.getD n s.eof)
      rw [List.getD_map]

/-- The image of a rest of the body is at the same position. -/
lemma position_stream (s : TokenStream) (rest : List Token) :
    (f.stream s).position (rest.map f) = s.position rest :=
  ((streams s).position_eq (tokens_iff.mpr rfl)).symm

/-- What ends a parse early is the same before and after. -/
lemma endAt_stream (s : TokenStream) (rest : List Token) (ending : Ending) :
    (f.stream s).endAt (rest.map f) ending = s.endAt rest ending := by
  cases ending with
  | payload kindName =>
      simp only [TokenStream.endAt, TokenStream.breakAt, position_stream, previous_stream,
        f.payload_eq]
  | unwritten => rfl

/-- A parse of the images with a cursor comes to the image of the result. -/
lemma parse_descent (limits : Limits) (s : TokenStream) (c : Cursor) :
    ((f.stream s).descent limits).parse c =
      (((s.descent limits).parse c).1.map f.result, f.cursor ((s.descent limits).parse c).2) := by
  rw [parse_follows, parse_follows, parse_stream]
  generalize s.parse limits = r
  have hcursor : (f.stream s).cursor (f.report r).rest 0 (f.report r).faults =
      f.cursor (s.cursor r.rest 0 r.faults) := by
    rw [TokenStream.cursor, faults_report, report, position_stream]
    rfl
  rw [TokenStream.parseOutcome, TokenStream.parseOutcome, hcursor]
  obtain ⟨mishaps, verdict, rest⟩ := r
  cases verdict with
  | accepted e =>
      change (Except.ok (Descent.Result.mk (some (.expression (e.relabel f).weaken)) []), _) = _
      rw [Tree.weaken_relabel]
      rfl
  | rejected =>
      change (Except.ok (Descent.Result.mk none (f.report ⟨mishaps, .rejected, rest⟩).faults),
        _) = _
      rw [faults_report]
      rfl
  | broken ending =>
      change (Except.error ((f.stream s).endAt (rest.map f) ending), _) = _
      rw [endAt_stream]
      rfl

end Relabelling

/-! ### Types alone -/

/-- Tokens of one type, both with a payload that fits it. -/
def Correspondence.types : Correspondence where
  token t u := t.type = u.type ∧ t.Admissible ∧ u.Admissible
  scalar _ _ := True
  type_eq h := h.1
  literals := by
    rintro t u ⟨htype, ht, hu⟩
    by_cases ho : t.type.isOperand = true
    · obtain ⟨v, hv⟩ := exists_literal?_eq ht ho
      obtain ⟨w, hw⟩ := exists_literal?_eq hu (htype ▸ ho)
      rw [hv, hw]
      exact .scalars trivial
    · rw [Bool.not_eq_true] at ho
      rw [literal?_eq_none ho, literal?_eq_none (htype ▸ ho)]
      exact .nothing

lemma TokenStream.isEof_eq_of_type_eq {t u : Token} (h : t.type = u.type) : t.isEof = u.isEof := by
  rw [TokenOf.isEof, h, TokenOf.isEof]

lemma TokenOf.admissible_of_isEof {t : Token} (h : t.isEof = true) : t.Admissible := by
  intro htype
  rw [isEof, beq_iff_eq] at h
  simp [h] at htype

lemma tokens_types {ts us : List Token} (h : us.map TokenOf.type = ts.map TokenOf.type)
    (hts : ∀ t ∈ ts, t.Admissible) (hus : ∀ u ∈ us, u.Admissible) :
    Correspondence.types.Tokens ts us := by
  induction ts generalizing us with
  | nil =>
      obtain rfl := List.map_eq_nil_iff.mp h
      exact .nil
  | cons t ts ih =>
      obtain ⟨u, us, rfl, hu, h⟩ := List.map_eq_cons_iff.mp h
      rw [List.forall_mem_cons] at hts hus
      exact .cons ⟨hu.symm, hts.1, hus.1⟩ (ih h hts.2 hus.2)

/-- Lists with the same types are taken apart alike. -/
lemma exists_streams_types {ts us : List Token} {s : TokenStream}
    (hs : TokenStream.ofList? ts = some s) (htypes : us.map TokenOf.type = ts.map TokenOf.type)
    (hts : ∀ t ∈ s.body, t.Admissible) (hus : ∀ u ∈ TokenStream.bodyOf us, u.Admissible) :
    ∃ s', TokenStream.ofList? us = some s' ∧ Correspondence.types.Streams s s' := by
  rw [← TokenStream.toList_ofList? hs, TokenStream.toList, List.map_append, List.map_cons]
    at htypes
  obtain ⟨body, rest, rfl, hbody, hrest⟩ := List.map_eq_append_iff.mp htypes
  obtain ⟨eof, after, rfl, heof, -⟩ := List.map_eq_cons_iff.mp hrest
  have hend : eof.isEof = true := (TokenStream.isEof_eq_of_type_eq heof).trans s.eof_isEof
  have hnot : ∀ u ∈ body, u.isEof = false := by
    intro u hu
    obtain ⟨t, ht, htu⟩ := List.mem_map.mp (hbody ▸ List.mem_map_of_mem (f := TokenOf.type) hu)
    exact (TokenStream.isEof_eq_of_type_eq htu).symm.trans (s.body_not_eof t ht)
  have hs' : TokenStream.ofList? (body ++ eof :: after) = some ⟨body, eof, after, hnot, hend⟩ :=
    TokenStream.ofList?_append hnot hend
  rw [← TokenStream.body_eq_bodyOf hs'] at hus
  exact ⟨_, hs', tokens_types hbody hts hus, heof.symm,
    TokenOf.admissible_of_isEof s.eof_isEof, TokenOf.admissible_of_isEof hend⟩

/-- Faults with the same causes at the same positions. -/
lemma map_eq_of_places {K : Correspondence} {ps ps' : List (ℕ × Fault)}
    (h : List.Forall₂ K.Places ps ps') :
    ps'.map (fun p => (p.1, p.2.cause)) = ps.map fun p => (p.1, p.2.cause) := by
  induction h with
  | nil => rfl
  | cons hp _ ih => rw [List.map_cons, List.map_cons, ih, hp.position, hp.cause]

/-! ### Readings -/

/-- **The parser commutes with a change of texts and lines**: over changed tokens it gives the same
tree with changed operators, or the same faults, in all their words, at the changed tokens and at
the same positions, and leaves the same cursor. A parse is broken off on both or on neither, and
only because the depth limit cannot be written. The types of tokens decide alone whether there is an
expression, which shape it has, and what faults there are at which positions. -/
theorem reading_relabelled (limit : DepthLimit) (f : Relabelling) {ts : List Token}
    (heof : ∃ t ∈ ts, t.isEof = true) (hadm : ∀ t ∈ TokenStream.bodyOf ts, t.Admissible) :
    let limits := Limits.withDepth limit
    ∃ r ps, readTokens limit ts = some r ∧
      r.stream.FaultsAt limits ps ∧ r.report.faults = ps.map Prod.snd ∧
      (∀ p ∈ ps, ts[p.1]? = some p.2.token) ∧
      (readTokens limit (ts.map f) = some (f.reading r) ∧
        (f.reading r).expression? = r.expression?.map (fun e => e.relabel f) ∧
        (f.reading r).report.faults.map Fault.toError =
          r.report.faults.map (fun g => { g.toError with token := f g.token }) ∧
        (f.reading r).stream.FaultsAt limits (ps.map fun p => (p.1, f.fault p.2))) ∧
      (∀ c, ∃ outcome c', Descent.parse ⟨ts, limits⟩ c = (outcome, c') ∧
        Descent.parse ⟨ts.map f, limits⟩ c = (outcome.map f.result, f.cursor c') ∧
        (outcome = .ok r.result ∨ outcome = .error .unwritten ∧ limit.text? = none ∧
          Overflows limits (TokenStream.bodyOf ts))) ∧
      ∀ us, us.map TokenOf.type = ts.map TokenOf.type →
        (∀ u ∈ TokenStream.bodyOf us, u.Admissible) →
        ∃ r' ps', readTokens limit us = some r' ∧
          Correspondence.types.Verdicts r.report.verdict r'.report.verdict ∧
          r'.stream.FaultsAt limits ps' ∧ r'.report.faults = ps'.map Prod.snd ∧
          ps'.map (fun p => (p.1, p.2.cause)) = ps.map fun p => (p.1, p.2.cause) := by
  intro limits
  obtain ⟨s, hs, hb⟩ := TokenStream.exists_ofList?_eq heof
  rw [← hb] at hadm
  obtain ⟨ps, hps⟩ := s.exists_faultsAt limits
  have hat := hps.getElem?
  have hread {us : List Token} {s' : TokenStream} (h : TokenStream.ofList? us = some s') :
      readTokens limit us = some (.ofStream limit s') := by rw [readTokens, h]; rfl
  rw [TokenStream.toList_ofList? hs] at hat
  refine ⟨.ofStream limit s, ps, hread hs, hps, hps.faults_eq, hat, ⟨?_, ?_, ?_, ?_⟩, ?_, ?_⟩
  · rw [hread (Relabelling.ofList?_map hs), Relabelling.reading_ofStream]
  · exact Relabelling.expression?_reading _
  · rw [Relabelling.reading, Relabelling.faults_report, List.map_map]
    rfl
  · exact Relabelling.faultsAt_stream hps
  · intro c
    have himage := Relabelling.parse_descent (f := f) limits s c
    rw [← TokenStream.toList_ofList? (Relabelling.ofList?_map (f := f) hs), ← hb,
      ← TokenStream.toList_ofList? hs]
    exact ⟨_, _, rfl, himage, parse_cases limit hadm c⟩
  · intro us htypes hus
    obtain ⟨s', hs', hstreams⟩ := exists_streams_types hs htypes hadm hus
    obtain ⟨ps', hps', hplaces⟩ := Correspondence.faultsAt_respects hstreams hps
    exact ⟨.ofStream limit s', ps', hread hs',
      (Correspondence.parse_respects limits hstreams).verdict, hps', hps'.faults_eq,
      map_eq_of_places hplaces⟩

/-- The case of a closing parenthesis that nothing opens, before an expression, with other texts a
line below. -/
theorem reading_relabelled_below :
    let f : Relabelling :=
      ⟨fun t => { t with lexeme := "_", line := t.line + 1 }, fun _ => rfl, fun _ => rfl⟩
    let ts : List Token := [Pushdown.closingToken, ⟨.semicolon, ";", .nil, 1⟩,
      ⟨.minus, "-", .nil, 1⟩, Pushdown.operandToken, ⟨.eof, "", .nil, 1⟩]
    ∃ r, readTokens .standard ts = some r ∧ readTokens .standard (ts.map f) = some (f.reading r) ∧
      r.report.faults = [⟨.expectExpression, Pushdown.closingToken⟩] ∧
      (f.reading r).report.faults.map Fault.toError =
        [{ (Fault.mk .expectExpression Pushdown.closingToken).toError with
          token := ⟨.rightParen, "_", .nil, 2⟩ }] := by
  intro f ts
  have hend : ∃ t ∈ ts, t.isEof = true := ⟨⟨.eof, "", .nil, 1⟩, by simp [ts], rfl⟩
  have hadm : ∀ t ∈ TokenStream.bodyOf ts, t.Admissible := by
    simp [ts, TokenStream.bodyOf, TokenOf.isEof, TokenOf.Admissible, Pushdown.closingToken,
      Pushdown.operandToken]
  obtain ⟨r, ps, hr, -, -, -, ⟨himage, -, herrors, -⟩, -⟩ :=
    reading_relabelled .standard f hend hadm
  have hfaults : r.report.faults = [⟨.expectExpression, Pushdown.closingToken⟩] := by
    obtain rfl := Option.some.inj hr
    rfl
  refine ⟨r, hr, himage, hfaults, ?_⟩
  rw [herrors, hfaults]
  rfl

end ExprFront
