import ExprFront.Proofs.Expr.Printing
import ExprFront.Proofs.Grammar.Completeness
import ExprFront.Proofs.Grammar.Containment

/-!
What a rule does from any cursor.

* How a rule fails: right away, or as a scan does that starts where the rule stands
  (`ruleAt_eq_error`). So it leaves a suffix of its tokens, it refuses no payload of admissible
  tokens, and it finds the stack full only where a place takes all its frames.
* How far a rule reads: where no operator of its levels follows, a phrase does not go on
  (`Derives.eq_nil_of_append`). If it did, one list of tokens would be read in two ways by a rule
  with room for both trees.
* `rule_reads_longest` adds soundness and completeness, for a cursor with any levels open.
-/

namespace ExprFront

open Pushdown

/-! ### How a rule fails -/

/-- At a place no more frames are in use than its levels take if they are all parentheses. -/
def Nesting.Sparing (n : Nesting) : Prop := n.frames ≤ Nesting.parenthesisFrames * n.depth

lemma Nesting.Sparing.inner {n : Nesting} {frames : Nat} (hn : n.Sparing)
    (hf : frames ≤ Nesting.parenthesisFrames) : (n.inner frames).Sparing := by
  simp only [Nesting.Sparing, Nesting.inner, Nesting.parenthesisFrames] at hn hf ⊢
  omega

section Failures

variable {limits : Limits} {n : Nesting} {name : RuleName} {ts rest : List Token} {f : Failure}

lemma level_traced (limits : Limits) (n : Nesting) (outer : List Nesting) (l : Level)
    (ts : List Token) : (l.rule (unary limits n)).TracedAt limits n n outer ts :=
  levelRule_traced (unary_sound limits n)
    (fun us _ => unary_traced limits us.length n n outer us le_rfl) l ts le_rfl

/-- A scan fails as the rule does that it goes along with. -/
lemma Rule.TracedAt.scan_eq_error {rule : Rule} {outer : List Nesting}
    (h : rule.TracedAt limits n n outer ts) (hr : rule ts = .error f) :
    (operand n n outer).scan limits ts = .error f := by
  rw [h, hr]
  rfl

lemma operand_everywhere (hn : n.Sparing) : (operand n n []).Everywhere Nesting.Sparing := by
  intro m hm
  obtain rfl : m = n := by simpa [places] using hm
  exact hn

/-- A rule fails because its place or its first token does not let it begin, or as a scan does. -/
lemma ruleAt_eq_error (hn : n.Sparing) (h : name.ruleAt limits n 0 ts = .error f) :
    f = ⟨.fault .expectExpression, ts⟩ ∨
      (∃ o, limits.obstacle? (n.inner 0) = some o ∧ f = ⟨o, ts⟩) ∨
      ∃ s : Pushdown, s.Everywhere Nesting.Sparing ∧ s.scan limits ts = .error f := by
  have hscan {m : Nesting} (hm : m.Sparing) {rule : Rule} (htr : rule.TracedAt limits m m [] ts)
      (hr : rule ts = .error f) :
      ∃ s : Pushdown, s.Everywhere Nesting.Sparing ∧ s.scan limits ts = .error f :=
    ⟨_, operand_everywhere hm, htr.scan_eq_error hr⟩
  cases name with
  | expression =>
      rw [RuleName.ruleAt, expressionBelow, nested, Nesting.deeper_eq] at h
      cases ho : limits.obstacle? (n.inner 0) with
      | some o =>
          rw [ho] at h
          exact Or.inr (Or.inl ⟨o, rfl, (Except.error.inj h).symm⟩)
      | none =>
          rw [ho] at h
          exact Or.inr (Or.inr (hscan (hn.inner (Nat.zero_le _))
            (level_traced limits (n.inner 0) [] .equality ts) h))
  | level l => exact Or.inr (Or.inr (hscan hn (level_traced limits n [] l ts) h))
  | unary => exact Or.inr (Or.inr (hscan hn (unary_traced limits _ n n [] ts le_rfl) h))
  | primary =>
      cases ts with
      | nil => exact Or.inl (Except.error.inj h).symm
      | cons t ts =>
          by_cases ht : t.type.isUnary = true
          · -- a primary expression cannot begin with a prefix operator, where a scan goes on
            have hp : t.type ≠ .leftParen := by
              intro hp
              simp [hp, TokenType.isUnary] at ht
            rw [RuleName.ruleAt, primary, literal?_of_isUnary ht] at h
            simp only [if_neg hp] at h
            exact Or.inl (Except.error.inj h).symm
          · exact Or.inr (Or.inr (hscan hn (primary_traced (by simpa using ht)
              (level_traced limits (n.inner Nesting.parenthesisFrames) [n] .equality ts)) h))

lemma suffix_of_ruleAt_eq_error (hn : n.Sparing) (h : name.ruleAt limits n 0 ts = .error f) :
    f.rest <:+ ts := by
  rcases ruleAt_eq_error hn h with rfl | ⟨o, -, rfl⟩ | ⟨s, -, hs⟩
  · exact List.suffix_rfl
  · exact List.suffix_rfl
  · obtain ⟨us, hus⟩ := exists_of_scan_eq_error hs
    exact hus ▸ List.suffix_append us f.rest

lemma ruleAt_ne_payload (hn : n.Sparing) (hts : ∀ t ∈ ts, t.Admissible) (kindName : String) :
    name.ruleAt limits n 0 ts ≠ .error ⟨.payload kindName, rest⟩ := by
  intro h
  rcases ruleAt_eq_error hn h with hf | ⟨o, ho, hf⟩ | ⟨s, -, hs⟩
  · cases hf
  · obtain ⟨rfl, -⟩ := Failure.mk.inj hf
    rcases Limits.obstacle?_eq_some ho with ⟨h, -⟩ | ⟨h, -⟩ <;> cases h
  · exact scan_ne_payload hts kindName hs

/-- A rule that finds the stack full does so at a place that takes all its frames. -/
lemma stack_le_of_ruleAt (hn : n.Sparing)
    (h : name.ruleAt limits n 0 ts = .error ⟨.stackFull, rest⟩) :
    ∃ depth : Nat, limits.depth.allows depth = true ∧
      limits.stack ≤ Nesting.parenthesisFrames * depth := by
  rcases ruleAt_eq_error hn h with hf | ⟨o, ho, hf⟩ | ⟨s, hplaces, hs⟩
  · cases hf
  · obtain ⟨rfl, -⟩ := Failure.mk.inj hf
    rcases Limits.obstacle?_eq_some ho with ⟨h, -⟩ | ⟨-, hallow, hfull⟩
    · cases h
    · exact ⟨_, hallow, hfull.trans (hn.inner (Nat.zero_le _))⟩
  · obtain ⟨m, hm, hallow, hfull⟩ :=
      exists_of_scan_stackFull (fun m frames hm hf => hm.inner hf.2) hplaces hs
    exact ⟨m.depth, hallow, hfull.trans hm⟩

/-- Low depth limits never meet the end of the stack, wherever a rule starts. -/
lemma ruleAt_ne_stackFull {limit : Int} (hlimit : limit ≤ 64) (hn : n.Sparing) :
    name.ruleAt (.withDepth (.ofInt limit)) n 0 ts ≠ .error ⟨.stackFull, rest⟩ := by
  intro h
  obtain ⟨depth, hallow, hle⟩ := stack_le_of_ruleAt hn h
  have hdepth : (depth : Int) ≤ limit := DepthLimit.allows_ofInt.mp hallow
  simp only [Limits.withDepth, stackFrames, Nesting.parenthesisFrames] at hle
  omega

/-- With room on the stack a rule fails at a fault, on admissible tokens. -/
lemma exists_fault_of_ruleAt (hn : n.Sparing) (hts : ∀ t ∈ ts, t.Admissible)
    (hroom : ∀ more, name.ruleAt limits n 0 ts ≠ .error ⟨.stackFull, more⟩)
    (h : name.ruleAt limits n 0 ts = .error f) : ∃ cause, f.obstacle = .fault cause := by
  obtain ⟨o, rest⟩ := f
  cases o with
  | fault cause => exact ⟨cause, rfl⟩
  | payload kindName => exact absurd h (ruleAt_ne_payload hn hts kindName)
  | stackFull => exact absurd h (hroom rest)

end Failures

/-! ### How far a rule reads -/

section Phrases

variable {name : RuleName} {us vs rest : List Token} {e e' : Expr}

/-- With room on the stack a rule reads exactly the phrases whose trees the depth limit covers, up
to a token that does not continue them. -/
lemma ruleAt_eq_ok_iff {limits : Limits} {n : Nesting} {ts : List Token}
    (hroom : ∀ more, name.ruleAt limits n 0 ts ≠ .error ⟨.stackFull, more⟩) :
    name.ruleAt limits n 0 ts = .ok (e, rest) ↔
      ∃ us, ts = us ++ rest ∧ Derives (.rule name) us e ∧
        limits.depth.Covers n.depth (name.depthOf e) ∧ name.StopsAt rest := by
  constructor
  · exact fun h => ruleAt_sound limits n 0 name ts e rest h
  · rintro ⟨us, rfl, hd, hc, hstop⟩
    rcases hd.readsAt limits n 0 hc rest hstop with hok | ⟨more, hfull⟩
    · exact hok
    · exact absurd hfull (hroom more)

/-- Limits that leave a stack of parentheses room for a given number of levels. -/
def Limits.ample (levels : Nat) : Limits := ⟨.ofInt levels, Nesting.parenthesisFrames * levels + 1⟩

/-- A phrase is read where there is room for it. -/
lemma Derives.ruleAt_ample {levels : Nat} (h : Derives (.rule name) us e)
    (hl : name.depthOf e ≤ levels) (hstop : name.StopsAt rest) :
    name.ruleAt (.ample levels) .outermost 0 (us ++ rest) = .ok (e, rest) := by
  refine (ruleAt_eq_ok_iff fun more hfull => ?_).mpr
    ⟨us, rfl, h, DepthLimit.covers_ofInt.mpr (Or.inr ?_), hstop⟩
  · obtain ⟨depth, hallow, hle⟩ := stack_le_of_ruleAt (Nat.zero_le _) hfull
    have hdepth : (depth : Int) ≤ levels := DepthLimit.allows_ofInt.mp hallow
    simp only [Limits.ample, Nesting.parenthesisFrames] at hle
    omega
  · rw [show Nesting.outermost.depth = 0 from rfl, Nat.zero_add]
    exact Int.ofNat_le.mpr hl

/-- A phrase that no operator of its levels follows does not go on: a rule with room for both trees
would read the longer one to its end, and also stop behind the shorter one. -/
lemma Derives.eq_nil_of_append (h : Derives (.rule name) us e) (hstop : name.StopsAt rest)
    (h' : Derives (.rule name) (us ++ vs) e') (hvs : vs <+: rest) : vs = [] := by
  by_contra hne
  obtain ⟨t, ts, rfl⟩ := List.exists_cons_of_ne_nil hne
  obtain ⟨more, rfl⟩ := hvs
  have hstop' : name.StopsAt (t :: ts) := hstop
  have hshort := h.ruleAt_ample (le_max_left (name.depthOf e) (name.depthOf e')) hstop'
  have hlong := h'.ruleAt_ample (le_max_right (name.depthOf e) (name.depthOf e'))
    (RuleName.stopsAt_nil name)
  rw [List.append_nil, hshort] at hlong
  simp at hlong

/-- The end of the input stands in no phrase. -/
lemma Derives.isEof_eq_false {p : Phrase} (h : Derives p us e) : ∀ t ∈ us, t.isEof = false := by
  have htype {t : Token} {type : TokenType} (ht : t.type = type) (hne : type ≠ .eof) :
      t.isEof = false := by simp [TokenOf.isEof, ht, hne]
  induction h with
  | expression _ ih => exact ih
  | chain _ _ ihl ihe => exact List.forall_mem_append.mpr ⟨ihl, ihe⟩
  | done => simp
  | @more l left t us vs right e ht _ _ ihr ihe =>
      refine List.forall_mem_cons.mpr ⟨htype rfl ?_, List.forall_mem_append.mpr ⟨ihr, ihe⟩⟩
      intro heof
      simp [heof, Level.contains] at ht
  | operator ht _ ih =>
      refine List.forall_mem_cons.mpr ⟨htype rfl ?_, ih⟩
      intro heof
      simp [heof, TokenType.isUnary] at ht
  | operand _ ih => exact ih
  | literal hv =>
      refine List.forall_mem_singleton.mpr ?_
      cases hv with
      | falsity ht => exact htype ht (by decide)
      | truth ht => exact htype ht (by decide)
      | nothing ht => exact htype ht (by decide)
      | number ht _ => exact htype ht (by decide)
      | text ht _ => exact htype ht (by decide)
  | group ho _ hc ih =>
      refine List.forall_mem_cons.mpr ⟨htype ho (by decide), List.forall_mem_append.mpr ⟨ih, ?_⟩⟩
      exact List.forall_mem_singleton.mpr (htype hc (by decide))

end Phrases

/-! ### Positions -/

section Positions

variable {s : TokenStream} {name : RuleName} {us rest : List Token}

/-- Whether a rule stops is seen from the next token of the stream, be it the end of the input. -/
lemma TokenStream.stopsAt_iff (h : rest <:+ s.body) :
    name.StopsAt rest ↔
      ∀ t ∈ s.toList[s.position rest]?, ∀ l ∈ name.levels, l.contains t.type = false := by
  rw [getElem?_position h]
  cases rest with
  | nil =>
      have heof : s.eof.type = .eof := by simpa [TokenOf.isEof] using s.eof_isEof
      refine iff_of_true (name.stopsAt_nil) fun t ht l _ => ?_
      obtain rfl : s.eof = t := Option.some.inj ht
      cases l <;> simp [heof, Level.contains]
  | cons t ts => exact Iff.rfl

/-- The body from a position on is what stands up to a later position, and the rest from there. -/
lemma TokenStream.drop_eq_append {i j : Nat} (hij : i ≤ j) (hj : j ≤ s.body.length) :
    s.body.drop i = (s.toList.take j).drop i ++ s.body.drop j := by
  have htake : s.toList.take j = s.body.take j := by
    rw [toList, List.take_append_of_le_length hj]
  conv_lhs => rw [← List.take_append_drop j s.body]
  rw [htake, List.drop_append_of_le_length (by rw [List.length_take_of_le hj]; exact hij)]

/-- What is in front of a rest stands between its position and the one before it. -/
lemma TokenStream.span_eq {i : Nat} (hi : i ≤ s.body.length) (h : s.body.drop i = us ++ rest) :
    s.position rest = i + us.length ∧ (s.toList.take (s.position rest)).drop i = us := by
  have hsplit : s.body = s.body.take i ++ us ++ rest := by
    rw [List.append_assoc, ← h, List.take_append_drop]
  have hspan := between_eq (show us ++ rest <:+ s.body from h ▸ List.drop_suffix i s.body)
  rw [← h, position_drop hi] at hspan
  refine ⟨?_, hspan⟩
  rw [position_eq hsplit, List.length_append, List.length_take_of_le hi]

/-- A phrase that a rule reads is as long as any phrase in front of the same tokens. -/
lemma Derives.length_le {ts vs : List Token} {e e' : Expr} (h : Derives (.rule name) us e)
    (hstop : name.StopsAt rest) (hts : ts = us ++ rest) (h' : Derives (.rule name) vs e')
    (hvs : vs <+: ts ++ s.eof :: s.after) : vs.length ≤ us.length := by
  have hbody : vs <+: ts := by
    rcases List.prefix_or_prefix_of_prefix hvs (List.prefix_append ts _) with hle | ⟨ws, rfl⟩
    · exact hle
    · rw [List.prefix_append_right_inj] at hvs
      cases ws with
      | nil => rw [List.append_nil]
      | cons t ws =>
          obtain ⟨rfl, -⟩ := List.cons_prefix_cons.mp hvs
          have heof := h'.isEof_eq_false s.eof (by simp)
          simp [s.eof_isEof] at heof
  rw [hts] at hbody
  by_contra hlonger
  obtain ⟨ws, rfl⟩ : us <+: vs :=
    List.prefix_of_prefix_length_le (List.prefix_append us rest) hbody (by omega)
  have hnil : ws = [] :=
    h.eq_nil_of_append hstop h' ((List.prefix_append_right_inj us).mp hbody)
  simp [hnil] at hlonger

/-- What a rule reads from the position of a cursor on decides what its method does. -/
lemma TokenStream.rule_outcome (limits : Limits) (name : RuleName) {c : Cursor} {depth : Nat}
    (hposition : c.position ≤ s.body.length) (hdepth : c.levels = depth) :
    (s.descent limits).rule name c =
      s.outcome c.levels c.faults
        (name.ruleAt limits ⟨depth, 0⟩ 0 (s.body.drop c.position)) := by
  have hfollows := rule_followsAt s limits depth name (s.body.drop c.position) c.faults
    (List.drop_suffix _ _) (List.drop_suffix _ _).length_le
  rwa [← hdepth, cursor_drop hposition] at hfollows

/-- A method returns an expression where a rule reads one. -/
lemma TokenStream.outcome_eq_ok_iff {levels : Int} {faults : List Fault} {r : Parsed} {e : Expr}
    {j : Nat} :
    s.outcome levels faults r = (.ok (.expression e.weaken), ⟨j, levels, faults⟩) ↔
      ∃ rest, r = .ok (e, rest) ∧ s.position rest = j := by
  constructor
  · intro h
    cases r with
    | error f => cases h
    | ok p =>
        obtain ⟨hvalue, hcursor⟩ := Prod.mk.inj h
        have hp : p.1 = e := Tree.weaken_injective (Value.expression.inj (Except.ok.inj hvalue))
        exact ⟨p.2, by rw [← hp], congrArg Cursor.position hcursor⟩
  · rintro ⟨rest, rfl, rfl⟩
    rfl

end Positions

/-- **A rule from any cursor**, on tokens with an end of the input whose payloads fit: with any
levels open that the depth limit allows, and with room on the stack, a rule returns a tree behind
a position exactly if the tokens up to there are a phrase with this tree before the end, no operator
of its levels follows, and the limit covers the levels that are open and those of the tree. Then it
has moved over a token at least, and no longer list of the tokens in front is a phrase. Otherwise it
is broken off by a fault at the token where it leaves the cursor. It leaves the levels open and the
faults recorded that it finds. -/
theorem rule_reads_longest {ts : List Token} (heof : ∃ t ∈ ts, t.isEof = true)
    (hadm : ∀ t ∈ TokenStream.bodyOf ts, t.Admissible) {limit : Int} (name : RuleName) {c : Cursor}
    (hposition : c.position ≤ (TokenStream.bodyOf ts).length) (hopen : 0 ≤ c.levels)
    (hlevels : c.levels ≤ limit)
    (hstack : limit ≤ 64 ∨
      ((⟨ts, .withDepth (.ofInt limit)⟩ : Descent).rule name c).1 ≠ .error .stackFull) :
    let d : Descent := ⟨ts, .withDepth (.ofInt limit)⟩
    (∀ (e : Expr) j, d.rule name c = (.ok (.expression e.weaken), { c with position := j }) ↔
        c.position ≤ j ∧ j ≤ (TokenStream.bodyOf ts).length ∧
          Derives (.rule name) ((ts.take j).drop c.position) e ∧
          (∀ t ∈ ts[j]?, ∀ l ∈ name.levels, l.contains t.type = false) ∧
          c.levels + name.depthOf e ≤ limit) ∧
      ((∃ (e : Expr) (j : Nat),
          d.rule name c = (.ok (.expression e.weaken), { c with position := j }) ∧
            c.position < j ∧ ∀ us e', us <+: ts.drop c.position →
              Derives (.rule name) us e' → us.length ≤ j - c.position) ∨
        ∃ (f : Fault) (j : Nat), d.rule name c = (.error (.fault f), { c with position := j }) ∧
          ts[j]? = some f.token) := by
  intro d
  obtain ⟨s, hs, hb⟩ := TokenStream.exists_ofList?_eq heof
  obtain rfl := TokenStream.toList_ofList? hs
  rw [← hb] at hadm hposition ⊢
  obtain ⟨depth, hdepth⟩ := Int.eq_ofNat_of_zero_le hopen
  let limits : Limits := .withDepth (.ofInt limit)
  let n : Nesting := ⟨depth, 0⟩
  have hn : n.Sparing := Nat.zero_le _
  have hrun : d.rule name c =
      s.outcome c.levels c.faults (name.ruleAt limits n 0 (s.body.drop c.position)) :=
    s.rule_outcome limits name hposition hdepth
  have hroom (more : List Token) :
      name.ruleAt limits n 0 (s.body.drop c.position) ≠ .error ⟨.stackFull, more⟩ := by
    rcases hstack with hlow | hstack
    · exact ruleAt_ne_stackFull hlow hn
    · intro hfull
      refine hstack ?_
      change (d.rule name c).1 = _
      rw [hrun, hfull]
      rfl
  have hcovers (e : Expr) :
      limits.depth.Covers n.depth (name.depthOf e) ↔ c.levels + name.depthOf e ≤ limit := by
    rw [show limits.depth = .ofInt limit from rfl, show n.depth = depth from rfl,
      DepthLimit.covers_ofInt]
    omega
  refine ⟨fun e j => ?_, ?_⟩
  · rw [hrun, TokenStream.outcome_eq_ok_iff]
    constructor
    · rintro ⟨rest, hr, rfl⟩
      obtain ⟨us, hus, hd, hc, hstop⟩ := (ruleAt_eq_ok_iff hroom).mp hr
      obtain ⟨hend, hspan⟩ := TokenStream.span_eq hposition hus
      have hrest : rest <:+ s.body :=
        (List.suffix_append us rest).trans (hus ▸ List.drop_suffix c.position s.body)
      exact ⟨by omega, TokenStream.position_le rest, hspan.symm ▸ hd,
        (TokenStream.stopsAt_iff hrest).mp hstop, (hcovers e).mp hc⟩
    · rintro ⟨hij, hj, hd, hstop, hle⟩
      have hposition' : s.position (s.body.drop j) = j := TokenStream.position_drop hj
      refine ⟨s.body.drop j, (ruleAt_eq_ok_iff hroom).mpr
        ⟨_, TokenStream.drop_eq_append hij hj, hd, (hcovers e).mpr hle, ?_⟩, hposition'⟩
      rw [TokenStream.stopsAt_iff (List.drop_suffix j s.body), hposition']
      exact hstop
  · cases hr : name.ruleAt limits n 0 (s.body.drop c.position) with
    | ok p =>
        obtain ⟨e, rest⟩ := p
        obtain ⟨us, hus, hd, -, hstop⟩ := (ruleAt_eq_ok_iff hroom).mp hr
        obtain ⟨hend, -⟩ := TokenStream.span_eq hposition hus
        have hpos : 0 < us.length := List.length_pos_iff.mpr hd.ne_nil
        refine Or.inl ⟨e, s.position rest, by rw [hrun, hr]; rfl, by omega, ?_⟩
        intro vs e' hvs hd'
        rw [TokenStream.toList, List.drop_append_of_le_length hposition] at hvs
        have hle := hd.length_le hstop hus hd' hvs
        omega
    | error f =>
        have hdrop : ∀ t ∈ s.body.drop c.position, t.Admissible :=
          fun t ht => hadm t (List.mem_of_mem_drop ht)
        obtain ⟨cause, hcause⟩ := exists_fault_of_ruleAt hn hdrop hroom hr
        refine Or.inr ⟨⟨cause, s.next f.rest⟩, s.position f.rest, ?_, ?_⟩
        · rw [hrun, hr, TokenStream.outcome, hcause]
          rfl
        · exact TokenStream.getElem?_position
            ((suffix_of_ruleAt_eq_error hn hr).trans (List.drop_suffix c.position s.body))

/-- A negation in a product, read as a term inside one open level: the limit 2 leaves room for it,
and the comparison behind it does not belong to the term. -/
theorem rule_reads_longest_term :
    let bang : Token := ⟨.bang, "!", .nil, 1⟩
    let star : Token := ⟨.star, "*", .nil, 1⟩
    let less : Token := ⟨.less, "<", .nil, 1⟩
    let ts : List Token := [operandToken, less, bang, operandToken, star, operandToken, less,
      operandToken, ⟨.eof, "", .nil, 1⟩]
    let e : Expr := .binary (.unary bang (.literal .nil)) star (.literal .nil)
    let d : Descent := ⟨ts, .withDepth (.ofInt 2)⟩
    d.rule (.level .term) ⟨2, 1, []⟩ = (.ok (.expression e.weaken), ⟨6, 1, []⟩) ∧
      Derives (.rule (.level .term)) [bang, operandToken, star, operandToken] e ∧
      ∀ us e', us <+: ts.drop 2 → Derives (.rule (.level .term)) us e' → us.length ≤ 4 := by
  intro bang star less ts e d
  have heof : ∃ t ∈ ts, t.isEof = true := ⟨⟨.eof, "", .nil, 1⟩, by simp [ts], rfl⟩
  have hadm : ∀ t ∈ TokenStream.bodyOf ts, t.Admissible := by
    simp [ts, bang, star, less, TokenStream.bodyOf, TokenOf.isEof, TokenOf.Admissible, operandToken]
  obtain ⟨hreads, hlongest⟩ := rule_reads_longest heof hadm (.level .term) (c := ⟨2, 1, []⟩)
    (by decide) (by decide) (by decide) (Or.inl (by decide : (2 : Int) ≤ 64))
  have hread : d.rule (.level .term) ⟨2, 1, []⟩ =
      (.ok (.expression e.weaken), ⟨6, 1, []⟩) := rfl
  refine ⟨hread, ((hreads e 6).mp hread).2.2.1, ?_⟩
  rcases hlongest with ⟨e', j, h, -, hle⟩ | ⟨f, j, h, -⟩
  · obtain rfl : j = 6 := congrArg (fun r => r.2.position) (h.symm.trans hread)
    exact hle
  · cases h.symm.trans hread

end ExprFront
