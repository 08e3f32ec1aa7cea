import ExprFront.Proofs.Grammar.Acceptance
import ExprFront.Proofs.Grammar.CursorParse
import ExprFront.Proofs.Grammar.FragmentRun

/-!
Parsing under two limits.

Limits keep places from being entered, and nothing else. Two limits agree on some obstacles
(`Limits.AgreeOn`) if the second treats each place as the first does, unless the first one has
another obstacle there. Then a scan that meets only these obstacles under the first is the same
under the second (`scan_stable`). A fragment has one tree, which carries this over to fragments
(`fragment_stable`), and fragment by fragment to a run through a whole parse (`FragmentRun.stable`,
`FragmentRun.parse_stable`).

A greater depth limit agrees on all obstacles but a nesting that is too deep (`agreeOn_withDepth`),
and with a larger stack on all but that it is full (`agreeOn_of_le`).
-/

namespace ExprFront

/-! ### Limits that agree -/

/-- The second limits treat a place as the first ones do, if the first ones have no obstacle there
but one of the given ones. -/
def Limits.AgreeOn (P : Obstacle → Prop) (limits limits' : Limits) : Prop :=
  ∀ n, (∀ o, limits.obstacle? n = some o → P o) → limits'.obstacle? n = limits.obstacle? n

/-- A larger stack makes no difference where the smaller one is not full. -/
lemma agreeOn_of_le (depth : DepthLimit) {stack stack' : Nat} (h : stack ≤ stack') :
    Limits.AgreeOn (· ≠ .stackFull) ⟨depth, stack⟩ ⟨depth, stack'⟩ := by
  intro n hn
  rw [Limits.obstacle?] at hn
  rw [Limits.obstacle?, Limits.obstacle?]
  split
  · next hd =>
      rw [if_pos hd] at hn
      have hroom : ¬stack ≤ n.frames := fun hfull => hn _ (if_pos hfull) rfl
      rw [if_neg hroom, if_neg fun hfull => hroom (h.trans hfull)]
  · rfl

namespace Obstacle

/-- The obstacle is no nesting beyond the depth limit. -/
def WithinDepth : Obstacle → Prop
  | .fault c => c.kind ≠ .recursionLimit
  | .payload _ => True
  | .stackFull => True

/-- All but a full stack is reported alike under all limits. -/
lemma cause_eq {o : Obstacle} (h : o ≠ .stackFull) (limits limits' : Limits) :
    o.cause limits' = o.cause limits := by
  cases o with
  | fault c => rfl
  | payload kindName => rfl
  | stackFull => exact absurd rfl h

/-- Where no limit can be written, a full stack is reported alike, too. -/
lemma cause_eq_of_text?_eq_none (limits limits' : Limits) (h : limits.depth.text? = none)
    (h' : limits'.depth.text? = none) (o : Obstacle) : o.cause limits' = o.cause limits := by
  cases o with
  | fault c => rfl
  | payload kindName => rfl
  | stackFull => rw [cause, cause, h, h']; rfl

end Obstacle

/-- A greater whole number treats a place as a smaller one does that allows its depth. -/
lemma agreeOn_withDepth {d d' : Int} (h : d ≤ d') :
    (Limits.withDepth (.ofInt d)).AgreeOn Obstacle.WithinDepth (.withDepth (.ofInt d')) := by
  intro n hn
  have hallow : (DepthLimit.ofInt d).allows n.depth = true := by
    by_contra hdeep
    exact hn _ (if_neg hdeep) rfl
  have hallow' : (DepthLimit.ofInt d').allows n.depth = true :=
    DepthLimit.allows_ofInt.mpr ((DepthLimit.allows_ofInt.mp hallow).trans h)
  exact (if_pos hallow').trans (if_pos hallow).symm

section Stability

variable {limits limits' : Limits} {P : Obstacle → Prop}

/-! ### Scans -/

lemma step_stable (hl : limits.AgreeOn P limits') {s : Pushdown} {t : Token}
    (h : ∀ o, s.step limits t = .error (.next o) → P o) : s.step limits' t = s.step limits t := by
  rw [Pushdown.step] at h ⊢
  rw [Pushdown.step]
  cases he : s.effect t with
  | go s' => rfl
  | refuse r => rfl
  | enter place s' =>
      rw [he] at h
      rw [Effect.under, Effect.under, hl place fun o ho => h o (by rw [Effect.under, ho])]

/-- A scan that meets only obstacles on which the limits agree is the same under both. -/
lemma scan_stable (hl : limits.AgreeOn P limits') {s : Pushdown} {ts : List Token}
    (h : ∀ f, s.scan limits ts = .error f → P f.obstacle) :
    s.scan limits' ts = s.scan limits ts := by
  induction ts generalizing s with
  | nil => rfl
  | cons t ts ih =>
      rw [Pushdown.scan] at h ⊢
      rw [Pushdown.scan, step_stable hl fun o ho => h ⟨o, ts⟩ (by rw [ho])]
      cases hs : s.step limits t with
      | ok s₁ =>
          rw [hs] at h
          exact ih h
      | error r => cases r <;> rfl

/-! ### Fragments -/

lemma scanFragment_stable (hl : limits.AgreeOn P limits') {ts : List Token}
    (h : ∀ f, Pushdown.scanFragment limits ts = .error f → P f.obstacle) :
    Pushdown.scanFragment limits' ts = Pushdown.scanFragment limits ts := by
  rw [Pushdown.scanFragment] at h ⊢
  rw [Pushdown.scanFragment, hl _ fun o ho => h ⟨o, ts⟩ (by rw [ho])]
  cases ho : limits.obstacle? Pushdown.outset with
  | some o => rfl
  | none =>
      rw [ho] at h
      exact scan_stable hl h

/-- A fragment that meets only obstacles on which the limits agree is the same under both. -/
lemma fragment_stable (hl : limits.AgreeOn P limits') {ts : List Token}
    (h : ∀ f, fragment limits ts = .error f → P f.obstacle) :
    fragment limits' ts = fragment limits ts := by
  have hscan := scanFragment_stable hl fun f hf => h f (fragment_eq_error_iff.mpr hf)
  cases hf : fragment limits ts with
  | error f => exact fragment_eq_error_iff.mpr (hscan.trans (fragment_eq_error_iff.mp hf))
  | ok p =>
      obtain ⟨e, rest⟩ := p
      have hok := hscan.trans (exists_fragment_eq_ok_iff.mp ⟨e, rest, hf⟩)
      obtain ⟨e', rest', hf'⟩ := exists_fragment_eq_ok_iff.mpr hok
      -- both trees are trees of the same sentence
      obtain rfl : e' = e :=
        (sentence_of_fragment_eq_ok hf').1.unique (sentence_of_fragment_eq_ok hf).1
      obtain ⟨rfl, -⟩ := fragment_eq_ok hf
      obtain ⟨rfl, -⟩ := fragment_eq_ok hf'
      exact hf'

lemma fragment_stable_of_ok (hl : limits.AgreeOn P limits') {ts : List Token}
    {p : Expr × List Token} (h : fragment limits ts = .ok p) : fragment limits' ts = .ok p := by
  refine (fragment_stable hl fun f hf => ?_).trans h
  cases h.symm.trans hf

lemma fragment_stable_of_error (hl : limits.AgreeOn P limits') {ts : List Token} {f : Failure}
    (h : fragment limits ts = .error f) (hf : P f.obstacle) : fragment limits' ts = .error f := by
  refine (fragment_stable hl fun f' hf' => ?_).trans h
  obtain rfl : f = f' := Except.error.inj (h.symm.trans hf')
  exact hf

/-! ### Parses -/

/-- A run that meets only obstacles on which the limits agree, and which are reported alike, is a
run under both. -/
lemma FragmentRun.stable (eof : Token) (hl : limits.AgreeOn P limits') {ts : List Token}
    {rs : List Parsed} (h : FragmentRun limits ts rs)
    (hrs : ∀ f : Failure, .error f ∈ rs →
      P f.obstacle ∧ f.obstacle.cause limits' = f.obstacle.cause limits) :
    FragmentRun limits' ts rs ∧
      fragments limits' eof rs.length ts = fragments limits eof rs.length ts := by
  induction h with
  | @read ts p h =>
      have h' := fragment_stable_of_ok hl h
      exact ⟨.read h', (fragments_succ_of_ok h' 0).trans (fragments_succ_of_ok h 0).symm⟩
  | @broken ts f ending h hc =>
      obtain ⟨hf, hcause⟩ := hrs f List.mem_cons_self
      have h' := fragment_stable_of_error hl h hf
      have hc' := hcause.trans hc
      exact ⟨.broken h' hc',
        (fragments_succ_of_ending h' hc' 0).trans (fragments_succ_of_ending h hc 0).symm⟩
  | @last ts f c h hc hn =>
      obtain ⟨hf, hcause⟩ := hrs f List.mem_cons_self
      have h' := fragment_stable_of_error hl h hf
      have hc' := hcause.trans hc
      refine ⟨.last h' hc' hn, ?_⟩
      rw [List.length_singleton, fragments_succ_of_error h hc 0, fragments_succ_of_error h' hc' 0,
        if_pos hn, if_pos hn]
  | @next ts f c rs h hc hn hr ih =>
      obtain ⟨hf, hcause⟩ := hrs f List.mem_cons_self
      have h' := fragment_stable_of_error hl h hf
      have hc' := hcause.trans hc
      obtain ⟨hr', heq⟩ := ih fun g hg => hrs g (List.mem_cons_of_mem _ hg)
      refine ⟨.next h' hc' hn hr', ?_⟩
      rw [List.length_cons, fragments_succ_of_error h hc, fragments_succ_of_error h' hc',
        if_neg hn, if_neg hn, heq]

/-- A parse whose fragments meet only obstacles on which the limits agree, and which are reported
alike, is the same under both. -/
lemma FragmentRun.parse_stable (hl : limits.AgreeOn P limits') {s : TokenStream}
    {rs : List Parsed} (h : FragmentRun limits s.body rs)
    (hrs : ∀ f : Failure, .error f ∈ rs →
      P f.obstacle ∧ f.obstacle.cause limits' = f.obstacle.cause limits) :
    s.parse limits' = s.parse limits ∧
      ∀ c, (s.descent limits').parse c = (s.descent limits).parse c := by
  obtain ⟨h', heq⟩ := h.stable s.eof hl hrs
  have hparse : s.parse limits' = s.parse limits := by rw [h'.parse_eq, h.parse_eq, heq]
  refine ⟨hparse, fun c => ?_⟩
  rw [parse_follows, parse_follows, hparse]

/-- A parse without a fault for the depth is the same under a greater limit. Where it ends early
because the limit cannot be written, the greater one cannot be written either. -/
lemma parse_stable {d d' : Int} (hd : d ≤ d') {s : TokenStream}
    (h : ∀ f ∈ (s.parse (.withDepth (.ofInt d))).faults, f.cause.kind ≠ .recursionLimit) :
    s.parse (.withDepth (.ofInt d')) = s.parse (.withDepth (.ofInt d)) ∧
      ∀ c, (s.descent (.withDepth (.ofInt d'))).parse c =
        (s.descent (.withDepth (.ofInt d))).parse c := by
  obtain ⟨rs, hr⟩ := exists_fragmentRun (.withDepth (.ofInt d)) s.body
  refine hr.parse_stable (agreeOn_withDepth hd) fun f hf => ?_
  have hkind (c : Cause) (hc : f.obstacle.cause (.withDepth (.ofInt d)) = .ok c) :
      c.kind ≠ .recursionLimit := by
    refine h ⟨c, s.next f.rest⟩ ?_
    rw [hr.parse_eq, hr.faults_eq]
    exact List.mem_map_of_mem (f := Prod.snd)
      (List.mem_filterMap.mpr ⟨_, hf, TokenStream.faultAt?_eq_some hc s⟩)
  obtain ⟨us, -, hus⟩ := hr.exists_of_mem _ hf
  obtain ⟨o, rest⟩ := f
  cases o with
  | fault c => exact ⟨hkind c rfl, rfl⟩
  | payload kindName => exact ⟨trivial, rfl⟩
  | stackFull =>
      -- a full stack that is no fault has a limit without a text, and it is not negative
      have htext : Integer.text? d = none := by
        by_contra hsome
        exact hkind _ (Obstacle.cause_stackFull hsome) rfl
      obtain ⟨n, hallow, -⟩ := fragment_stackFull hus
      have hpos : (n.depth : Int) ≤ d := DepthLimit.allows_ofInt.mp hallow
      have hbound := Integer.text?_eq_none_iff.mp htext
      have htext' : Integer.text? d' = none := Integer.text?_eq_none_iff.mpr (by omega)
      exact ⟨trivial, Obstacle.cause_eq_of_text?_eq_none (.withDepth (.ofInt d))
        (.withDepth (.ofInt d')) htext htext' _⟩

end Stability

/-- A parse that ends with an expression is without a fault. -/
lemma faults_eq_nil_of_accepted {limits : Limits} {s : TokenStream} {e : Expr}
    (h : (s.parse limits).verdict = .accepted e) : (s.parse limits).faults = [] := by
  rw [TokenStream.parse] at h ⊢
  rcases fragments_cases limits s.eof (s.body.length + 1) s.body (Nat.lt_succ_self _) with
    ⟨e, -, hr⟩ | ⟨mishaps, -, hr⟩ | ⟨mishaps, kindName, rest, hr⟩
  · rw [hr]
    rfl
  · rw [hr] at h
    cases h
  · rw [hr] at h
    cases h

/-- **Stability in the depth limit**: a reading under a whole number as depth limit that reports no
nesting too deep is the same under every greater one, in all that the parser gives and in all that
it leaves behind. In particular what is accepted stays accepted, with its tree. -/
theorem reading_stable {d d' : Int} (hd : d ≤ d') {ts : List Token} {r : Reading}
    (hr : readTokens (.ofInt d) ts = some r) :
    ((∀ f ∈ r.report.faults, f.cause.kind ≠ .recursionLimit) →
        readTokens (.ofInt d') ts = some r ∧
          ∀ c, Descent.parse ⟨ts, .withDepth (.ofInt d')⟩ c =
            Descent.parse ⟨ts, .withDepth (.ofInt d)⟩ c) ∧
      ∀ e, r.expression? = some e → readTokens (.ofInt d') ts = some r := by
  obtain ⟨s, hs, rfl⟩ := Option.map_eq_some_iff.mp hr
  have hstable (h : ∀ f ∈ (s.parse (.withDepth (.ofInt d))).faults,
      f.cause.kind ≠ .recursionLimit) :
      readTokens (.ofInt d') ts = some (.ofStream (.ofInt d) s) ∧
        ∀ c, Descent.parse ⟨ts, .withDepth (.ofInt d')⟩ c =
          Descent.parse ⟨ts, .withDepth (.ofInt d)⟩ c := by
    obtain ⟨hparse, hcursor⟩ := parse_stable hd h
    obtain rfl := TokenStream.toList_ofList? hs
    refine ⟨?_, hcursor⟩
    rw [readTokens, hs]
    exact congrArg (fun report => some (Reading.mk s report)) hparse
  refine ⟨hstable, fun e he => (hstable ?_).1⟩
  have hnone := faults_eq_nil_of_accepted (expression?_eq_some_iff.mp he)
  rw [hnone]
  exact fun f hf => absurd hf List.not_mem_nil

/-- The case of two literals in a row: the limit 1 has room for the first one, and the second one is
a fault under the limit 2 as well. -/
theorem reading_stable_trailing :
    let ts : List Token := [Pushdown.operandToken, Pushdown.operandToken, ⟨.eof, "", .nil, 1⟩]
    ∃ r, readTokens (.ofInt 1) ts = some r ∧
      r.report.faults = [⟨.trailingToken, Pushdown.operandToken⟩] ∧
      readTokens (.ofInt 2) ts = some r := by
  intro ts
  have hr : readTokens (.ofInt 1) ts = some _ := rfl
  refine ⟨_, hr, rfl, ((reading_stable (by decide) hr).1 ?_).1⟩
  intro f hf
  obtain rfl : f = ⟨.trailingToken, Pushdown.operandToken⟩ := List.mem_singleton.mp hf
  decide

end ExprFront
