import Mathlib.Data.List.Forall2
import ExprFront.Proofs.Grammar.CursorParse
import ExprFront.Proofs.Grammar.FragmentRun

/-!
Rules cannot tell corresponding tokens apart.

A correspondence (`Correspondence`) pairs tokens of one type, and the scalars that they denote. Over
tokens that correspond one by one each rule gives results that correspond: trees of one shape with
corresponding operators and literals, or the same obstacle before corresponding tokens
(`Correspondence.Respects`). The combinators keep this, so it holds of unary expressions by
induction on the bound (`unaryAt_respects`), of a fragment (`fragment_respects`), and of a whole
parse, fragment by fragment (`fragments_respects`, `run_respects`).
-/

namespace ExprFront

/-! ### What corresponds -/

/-- What two tokens may denote: nothing, a payload that is refused alike, or scalars in a
relation. -/
inductive LiteralsAlike (S : Scalar → Scalar → Prop) :
    Option (Except String Scalar) → Option (Except String Scalar) → Prop where
  | nothing : LiteralsAlike S none none
  | refused (kindName : String) :
    LiteralsAlike S (some (.error kindName)) (some (.error kindName))
  | scalars {v w} (h : S v w) : LiteralsAlike S (some (.ok v)) (some (.ok w))

/-- A correspondence of tokens and of scalars. Corresponding tokens have the same type and denote
corresponding scalars, if any. -/
structure Correspondence where
  token : Token → Token → Prop
  scalar : Scalar → Scalar → Prop
  type_eq : ∀ {t u}, token t u → t.type = u.type
  literals : ∀ {t u}, token t u → LiteralsAlike scalar (literal? t) (literal? u)

/-- The faults of a parse are at given positions. -/
def TokenStream.FaultsAt (limits : Limits) (s : TokenStream) (ps : List (ℕ × Fault)) : Prop :=
  ∃ rs, FragmentRun limits s.body rs ∧ ps = rs.filterMap (s.faultAt? limits)

lemma TokenStream.exists_faultsAt (limits : Limits) (s : TokenStream) :
    ∃ ps, s.FaultsAt limits ps := by
  obtain ⟨rs, hr⟩ := exists_fragmentRun limits s.body
  exact ⟨_, rs, hr, rfl⟩

section FaultsAt

variable {limits : Limits} {s : TokenStream} {ps : List (ℕ × Fault)}

lemma TokenStream.FaultsAt.faults_eq (h : s.FaultsAt limits ps) :
    (s.parse limits).faults = ps.map Prod.snd := by
  obtain ⟨rs, hr, rfl⟩ := h
  rw [hr.parse_eq, hr.faults_eq]

/-- At the position of a fault is its token. -/
lemma TokenStream.FaultsAt.getElem? (h : s.FaultsAt limits ps) :
    ∀ p ∈ ps, s.toList[p.1]? = some p.2.token := by
  obtain ⟨rs, hr, rfl⟩ := h
  obtain ⟨hall, -⟩ := hr.faults_apart_from (show s.body = [] ++ s.body from rfl)
  exact fun p hp => (hall p hp).2.2

end FaultsAt

namespace Correspondence

variable (K : Correspondence)

/-- Lists of tokens that correspond one by one. -/
abbrev Tokens : List Token → List Token → Prop := List.Forall₂ K.token

/-- Trees of one shape, with corresponding operators and literals. -/
inductive Trees : Expr → Expr → Prop where
  | literal {v w} (h : K.scalar v w) : Trees (.literal v) (.literal w)
  | grouping {e e'} (h : Trees e e') : Trees (.grouping e) (.grouping e')
  | unary {t u e e'} (ht : K.token t u) (h : Trees e e') : Trees (.unary t e) (.unary u e')
  | binary {t u l l' r r'} (hl : Trees l l') (ht : K.token t u) (hr : Trees r r') :
    Trees (.binary l t r) (.binary l' u r')

/-- Corresponding expressions before corresponding tokens, or the same obstacle there. -/
inductive Results : Parsed → Parsed → Prop where
  | ok {e e' ts us} (he : K.Trees e e') (hts : K.Tokens ts us) :
    Results (.ok (e, ts)) (.ok (e', us))
  | error {ts us} (o : Obstacle) (hts : K.Tokens ts us) :
    Results (.error ⟨o, ts⟩) (.error ⟨o, us⟩)

/-- A rule gives corresponding results for corresponding tokens. -/
def Respects (rule : Rule) : Prop := ∀ ts us, K.Tokens ts us → K.Results (rule ts) (rule us)

/-- Ends of a parse that correspond. -/
inductive Verdicts : Verdict → Verdict → Prop where
  | accepted {e e'} (h : K.Trees e e') : Verdicts (.accepted e) (.accepted e')
  | rejected : Verdicts .rejected .rejected
  | broken (ending : Ending) : Verdicts (.broken ending) (.broken ending)

/-- Faults with the same cause at corresponding tokens, with as many tokens passed over. -/
structure Mishaps (m m' : Mishap) : Prop where
  cause : m.fault.cause = m'.fault.cause
  token : K.token m.fault.token m'.fault.token
  skipped : m.skipped = m'.skipped

/-- Reports that correspond in all parts. -/
structure Reports (r r' : Report) : Prop where
  mishaps : List.Forall₂ K.Mishaps r.mishaps r'.mishaps
  verdict : K.Verdicts r.verdict r'.verdict
  rest : K.Tokens r.rest r'.rest

/-- Streams of corresponding tokens; what comes after the end of the input is left open. -/
structure Streams (s s' : TokenStream) : Prop where
  body : K.Tokens s.body s'.body
  eof : K.token s.eof s'.eof

/-- Faults with the same cause at the same position, at corresponding tokens. -/
structure Places (p p' : ℕ × Fault) : Prop where
  position : p.1 = p'.1
  cause : p.2.cause = p'.2.cause
  token : K.token p.2.token p'.2.token

variable {K}

/-! ### Results in a row -/

section Rules

variable {ts us : List Token} {e e' : Expr} {operand : Rule}

lemma Results.bind {r r' : Parsed} {g g' : Expr × List Token → Parsed} (h : K.Results r r')
    (hg : ∀ e e' ts us, K.Trees e e' → K.Tokens ts us → K.Results (g (e, ts)) (g' (e', us))) :
    K.Results (r >>= g) (r' >>= g') := by
  cases h with
  | ok he hts => exact hg _ _ _ _ he hts
  | error o hts => exact .error o hts

/-! ### Binary levels -/

/-- Operators are told apart by their types only. -/
lemma extend_respects {l : Level} (ho : K.Respects operand) :
    ∀ (bound : ℕ) (left left' : Expr) (ts us : List Token), K.Trees left left' → K.Tokens ts us →
      K.Results (extend l operand bound left ts) (extend l operand bound left' us) := by
  intro bound
  induction bound with
  | zero => exact fun left left' ts us hleft hts => .ok hleft hts
  | succ bound ih =>
      intro left left' ts us hleft hts
      cases hts with
      | nil => exact .ok hleft .nil
      | @cons t u ts us ht hts =>
          rw [extend, extend, K.type_eq ht]
          split
          · refine (ho ts us hts).bind fun right right' rest rest' hright hrest => ?_
            exact ih _ _ rest rest' (.binary hleft ht hright) hrest
          · exact .ok hleft (.cons ht hts)

lemma chain_respects {l : Level} (ho : K.Respects operand) : K.Respects (chain l operand) := by
  intro ts us hts
  refine (ho ts us hts).bind fun left left' rest rest' hleft hrest => ?_
  change K.Results (extend l operand rest.length left rest)
    (extend l operand rest'.length left' rest')
  rw [hrest.length_eq]
  exact extend_respects ho _ left left' rest rest' hleft hrest

lemma equalityRule_respects {unary : Rule} (hu : K.Respects unary) :
    K.Respects (equalityRule unary) :=
  chain_respects (chain_respects (chain_respects (chain_respects hu)))

/-! ### Nesting -/

/-- Whether a place may be entered does not depend on the tokens. -/
lemma nested_respects {limits : Limits} {n : Nesting} {frames : ℕ} {rule : Nesting → Rule}
    (hr : ∀ m, K.Respects (rule m)) : K.Respects (nested limits n frames rule) := by
  intro ts us hts
  rw [nested, nested, Nesting.deeper_eq, Nesting.deeper_eq]
  cases limits.obstacle? (n.inner frames) with
  | some o => exact .error o hts
  | none => exact hr _ ts us hts

lemma closeGroup_respects (he : K.Trees e e') (hts : K.Tokens ts us) :
    K.Results (closeGroup e ts) (closeGroup e' us) := by
  cases hts with
  | nil => exact .error _ .nil
  | cons ht hts =>
      rw [closeGroup, closeGroup, K.type_eq ht]
      split
      · exact .ok (.grouping he) hts
      · exact .error _ (.cons ht hts)

lemma primary_respects {inside : Rule} (hi : K.Respects inside) : K.Respects (primary inside) := by
  intro ts us hts
  cases hts with
  | nil => exact .error _ .nil
  | @cons t u ts us ht hts =>
      have hliterals := K.literals ht
      rw [primary, primary]
      generalize literal? t = a at hliterals ⊢
      generalize literal? u = b at hliterals ⊢
      cases hliterals with
      | nothing =>
          change K.Results (if t.type = .leftParen then inside ts >>= _ else _)
            (if u.type = .leftParen then inside us >>= _ else _)
          rw [K.type_eq ht]
          split
          · refine (hi ts us hts).bind fun inner inner' rest rest' hinner hrest => ?_
            exact closeGroup_respects hinner hrest
          · exact .error _ (.cons ht hts)
      | refused kindName => exact .error _ hts
      | scalars h => exact .ok (.literal h) hts

lemma unaryAt_respects (limits : Limits) :
    ∀ (bound : ℕ) (n : Nesting), K.Respects (unaryAt limits bound n) := by
  intro bound
  induction bound with
  | zero => exact fun n ts us hts => .error _ hts
  | succ bound ih =>
      intro n ts us hts
      have hinside : K.Respects (nested limits n Nesting.parenthesisFrames fun inner =>
          equalityRule (unaryAt limits bound inner)) :=
        nested_respects fun m => equalityRule_respects (ih m)
      cases hts with
      | nil => exact primary_respects hinside [] [] .nil
      | @cons t u ts us ht hts =>
          rw [unaryAt, unaryAt, K.type_eq ht]
          split
          · refine (nested_respects ih ts us hts).bind fun _ _ _ _ he hrest => ?_
            exact .ok (.unary ht he) hrest
          · exact primary_respects hinside _ _ (.cons ht hts)

lemma unary_respects (limits : Limits) (n : Nesting) : K.Respects (unary limits n) := by
  intro ts us hts
  rw [unary, unary, hts.length_eq]
  exact unaryAt_respects limits _ n ts us hts

/-! ### Fragments -/

lemma optionalSemicolon_respects (hts : K.Tokens ts us) :
    K.Tokens (optionalSemicolon ts) (optionalSemicolon us) := by
  cases hts with
  | nil => exact .nil
  | cons ht hts =>
      rw [optionalSemicolon, optionalSemicolon, K.type_eq ht]
      split
      · exact hts
      · exact .cons ht hts

lemma closeFragment_respects (he : K.Trees e e') (hts : K.Tokens ts us) :
    K.Results (closeFragment e ts) (closeFragment e' us) := by
  have hend := optionalSemicolon_respects hts
  rw [closeFragment, closeFragment]
  generalize optionalSemicolon ts = ts' at hend ⊢
  generalize optionalSemicolon us = us' at hend ⊢
  cases hend with
  | nil => exact .ok he .nil
  | cons ht hmore => exact .error _ (.cons ht hmore)

/-- A fragment reads corresponding tokens alike. -/
lemma fragment_respects (limits : Limits) : K.Respects (fragment limits) := by
  intro ts us hts
  rw [fragment_eq, fragment_eq]
  have hexpression : K.Respects (RuleName.expression.rule limits) :=
    nested_respects fun m => equalityRule_respects (unary_respects limits m)
  exact (hexpression ts us hts).bind fun _ _ _ _ he hrest => closeFragment_respects he hrest

end Rules

/-! ### Parses -/

section Parses

variable {limits : Limits} {ts us : List Token} {eof eof' : Token}

lemma afterSemicolon_respects (hts : K.Tokens ts us) :
    K.Tokens (Recovery.afterSemicolon ts) (Recovery.afterSemicolon us) := by
  induction hts with
  | nil => exact .nil
  | cons ht hts ih =>
      rw [Recovery.afterSemicolon, Recovery.afterSemicolon, K.type_eq ht]
      split
      · exact hts
      · exact ih

lemma headD_respects (heof : K.token eof eof') (hts : K.Tokens ts us) :
    K.token (ts.headD eof) (us.headD eof') := by
  cases hts with
  | nil => exact heof
  | cons ht _ => exact ht

lemma eq_nil_iff (hts : K.Tokens ts us) : ts = [] ↔ us = [] := by
  cases hts <;> simp

/-- A fault before corresponding reports leaves them corresponding. -/
lemma Reports.after {m m' : Mishap} {r r' : Report} (hm : K.Mishaps m m') (h : K.Reports r r') :
    K.Reports (r.after m) (r'.after m') := by
  obtain ⟨mishaps, verdict, rest⟩ := r
  obtain ⟨mishaps', verdict', rest'⟩ := r'
  refine ⟨.cons hm h.mishaps, ?_, h.rest⟩
  cases h.verdict with
  | accepted _ => exact .rejected
  | rejected => exact .rejected
  | broken ending => exact .broken ending

/-- A fragment that fails does so over corresponding tokens as well, with the same obstacle. -/
lemma exists_error_of_respects {f : Failure} (hf : fragment limits ts = .error f)
    (hts : K.Tokens ts us) :
    ∃ f' : Failure, fragment limits us = .error f' ∧ f.obstacle = f'.obstacle ∧
      K.Tokens f.rest f'.rest ∧ K.Results (.error f) (.error f') := by
  have hr := fragment_respects limits ts us hts
  rw [hf] at hr
  cases hf' : fragment limits us with
  | ok p' =>
      rw [hf'] at hr
      cases hr
  | error f' =>
      rw [hf'] at hr
      refine ⟨f', rfl, ?_⟩
      cases hr with
      | error o hrest => exact ⟨rfl, hrest, .error o hrest⟩

/-- A parse reports on corresponding tokens alike. -/
lemma fragments_respects (limits : Limits) (heof : K.token eof eof') :
    ∀ (bound : ℕ) (ts us : List Token), K.Tokens ts us →
      K.Reports (fragments limits eof bound ts) (fragments limits eof' bound us) := by
  intro bound
  induction bound with
  | zero => exact fun ts us hts => ⟨.nil, .rejected, hts⟩
  | succ bound ih =>
      intro ts us hts
      have hr := fragment_respects limits ts us hts
      cases hf : fragment limits ts with
      | ok p =>
          cases hf' : fragment limits us with
          | error f' =>
              rw [hf, hf'] at hr
              cases hr
          | ok p' =>
              rw [hf, hf'] at hr
              cases hr with
              | ok he hrest =>
                  rw [fragments_succ_of_ok hf, fragments_succ_of_ok hf']
                  exact ⟨.nil, .accepted he, .nil⟩
      | error f =>
          obtain ⟨f', hf', ho, hrest, -⟩ := exists_error_of_respects hf hts
          have hnext := afterSemicolon_respects hrest
          cases hc : f.obstacle.cause limits with
          | error ending =>
              rw [fragments_succ_of_ending hf hc, fragments_succ_of_ending hf' (ho ▸ hc)]
              exact ⟨.nil, .broken ending, hrest⟩
          | ok c =>
              have hmishap : K.Mishaps (f.mishap c eof) (f'.mishap c eof') :=
                ⟨rfl, headD_respects heof hrest, by
                  rw [Failure.mishap, Failure.mishap, hrest.length_eq, hnext.length_eq]⟩
              rw [fragments_succ_of_error hf hc, fragments_succ_of_error hf' (ho ▸ hc)]
              by_cases hn : Recovery.afterSemicolon f.rest = []
              · rw [if_pos hn, if_pos ((eq_nil_iff hnext).mp hn)]
                exact ⟨.cons hmishap .nil, .rejected, .nil⟩
              · rw [if_neg hn, if_neg (mt (eq_nil_iff hnext).mpr hn)]
                exact (ih _ _ hnext).after hmishap

/-- Two streams of corresponding tokens have corresponding reports. -/
lemma parse_respects {s s' : TokenStream} (limits : Limits) (h : K.Streams s s') :
    K.Reports (s.parse limits) (s'.parse limits) := by
  rw [TokenStream.parse, TokenStream.parse, h.body.length_eq]
  exact fragments_respects limits h.eof _ _ _ h.body

/-- Over corresponding tokens there is a run through corresponding results. -/
lemma run_respects {rs : List Parsed} (h : FragmentRun limits ts rs) (hts : K.Tokens ts us) :
    ∃ rs', FragmentRun limits us rs' ∧ List.Forall₂ K.Results rs rs' := by
  induction h generalizing us with
  | @read ts p hf =>
      have hr := fragment_respects limits ts us hts
      rw [hf] at hr
      cases hf' : fragment limits us with
      | ok p' => exact ⟨_, .read hf', .cons (hf' ▸ hr) .nil⟩
      | error f' =>
          rw [hf'] at hr
          cases hr
  | @broken ts f ending hf hc =>
      obtain ⟨f', hf', ho, -, hr⟩ := exists_error_of_respects hf hts
      exact ⟨_, .broken hf' (ho ▸ hc), .cons hr .nil⟩
  | @last ts f c hf hc hn =>
      obtain ⟨f', hf', ho, hrest, hr⟩ := exists_error_of_respects hf hts
      have hn' := (eq_nil_iff (afterSemicolon_respects hrest)).mp hn
      exact ⟨_, .last hf' (ho ▸ hc) hn', .cons hr .nil⟩
  | @next ts f c rs hf hc hn hrun ih =>
      obtain ⟨f', hf', ho, hrest, hr⟩ := exists_error_of_respects hf hts
      have hnext := afterSemicolon_respects hrest
      obtain ⟨rs', hrun', hrs⟩ := ih hnext
      exact ⟨_, .next hf' (ho ▸ hc) (mt (eq_nil_iff hnext).mpr hn) hrun', .cons hr hrs⟩

/-! ### Where faults are -/

section Places

variable {s s' : TokenStream} {rest rest' : List Token} {r r' : Parsed} {rs rs' : List Parsed}

lemma Streams.position_eq (h : K.Streams s s') (hrest : K.Tokens rest rest') :
    s.position rest = s'.position rest' := by
  rw [TokenStream.position, TokenStream.position, h.body.length_eq, hrest.length_eq]

/-- Results that correspond have faults at the same place, if any. -/
lemma faultAt?_respects (limits : Limits) (h : K.Streams s s') (hr : K.Results r r') :
    s.faultAt? limits r = none ∧ s'.faultAt? limits r' = none ∨
      ∃ p p', s.faultAt? limits r = some p ∧ s'.faultAt? limits r' = some p' ∧ K.Places p p' := by
  cases hr with
  | ok he hts => exact Or.inl ⟨rfl, rfl⟩
  | error o hts =>
      cases hc : o.cause limits with
      | error ending =>
          exact Or.inl ⟨TokenStream.faultAt?_eq_none hc s, TokenStream.faultAt?_eq_none hc s'⟩
      | ok c =>
          exact Or.inr ⟨_, _, TokenStream.faultAt?_eq_some hc s,
            TokenStream.faultAt?_eq_some hc s', h.position_eq hts, rfl, headD_respects h.eof hts⟩

lemma filterMap_faultAt?_respects (h : K.Streams s s') (hrs : List.Forall₂ K.Results rs rs') :
    List.Forall₂ K.Places (rs.filterMap (s.faultAt? limits))
      (rs'.filterMap (s'.faultAt? limits)) := by
  induction hrs with
  | nil => exact .nil
  | cons hr _ ih =>
      rcases faultAt?_respects limits h hr with ⟨hnone, hnone'⟩ | ⟨p, p', hp, hp', hpp⟩
      · rwa [List.filterMap_cons_none hnone, List.filterMap_cons_none hnone']
      · rw [List.filterMap_cons_some hp, List.filterMap_cons_some hp']
        exact .cons hpp ih

/-- Two streams of corresponding tokens have faults at the same places. -/
lemma faultsAt_respects {ps : List (ℕ × Fault)} (h : K.Streams s s') (hps : s.FaultsAt limits ps) :
    ∃ ps', s'.FaultsAt limits ps' ∧ List.Forall₂ K.Places ps ps' := by
  obtain ⟨rs, hrun, rfl⟩ := hps
  obtain ⟨rs', hrun', hrs⟩ := run_respects hrun h.body
  exact ⟨_, ⟨rs', hrun', rfl⟩, filterMap_faultAt?_respects h hrs⟩

end Places

end Parses

end Correspondence

end ExprFront
