import ExprFront.CommandLine.Command
import ExprFront.Proofs.Expr.Readable
import ExprFront.Proofs.Grammar.Acceptance
import ExprFront.Proofs.Grammar.FragmentRun
import ExprFront.Proofs.Source.ScannerFollows

/-!
A source text at the command line.

The tokens of a scan are what their texts spell, so they can be parsed and listed: the end of the
input comes last, each payload fits, and no number has too many digits (`Scan.ofList?_tokens`,
`Scan.admissible`, `Scan.exists_summaries`). What is read from them can be printed
(`Scan.readable`). Hence a run on a text comes to one of four ends (`runText_cases`): lexical
errors, a tree, faults, or a full stack under a depth limit that cannot be written. `runText_agrees`
compares them with what comes of reading the text, and with the methods of the scanner and of the
parser.
-/

namespace ExprFront

/-! ### Tokens of a scan -/

/-- A list is turned into another one item by item, if each item can be. -/
lemma exists_mapM_eq_some {α β : Type} {f : α → Option β} {as : List α}
    (h : ∀ a ∈ as, ∃ b, f a = some b) : ∃ bs, as.mapM f = some bs := by
  induction as with
  | nil => exact ⟨[], rfl⟩
  | cons a as ih =>
      obtain ⟨⟨b, hb⟩, has⟩ := List.forall_mem_cons.mp h
      obtain ⟨bs, hbs⟩ := ih has
      exact ⟨b :: bs, by rw [List.mapM_cons, hb, hbs]; rfl⟩

lemma Spells.ne_eof {text : List Char} {type : TokenType} (h : Spells text type) : type ≠ .eof := by
  cases h with
  | number => decide
  | @keyword text type _ hk =>
      have hall : ∀ p ∈ TokenType.keywords, p.2 ≠ .eof := by decide
      obtain ⟨us, vs, hsplit, -⟩ := List.lookup_eq_some_iff.mp hk
      exact hall (String.ofList text, type) (by rw [hsplit]; simp)
  | identifier => decide
  | string => decide
  | operator h => exact Lexeme.ne_eof_of_ofOperator? h

namespace Spelled

variable {t : Token} (h : Spelled t)

include h

lemma isEof_eq_false : t.isEof = false := by
  simpa [TokenOf.isEof] using h.spells.ne_eof

lemma admissible : t.Admissible := by
  have hpayload := h.payload
  rintro (htype | htype)
  · rw [htype, TokenType.payload?] at hpayload
    obtain ⟨x, -, hx⟩ := Option.map_eq_some_iff.mp hpayload
    exact ⟨_, hx.symm⟩
  · rw [htype, TokenType.payload?] at hpayload
    exact ⟨_, (Option.some.inj hpayload).symm⟩

end Spelled

lemma TokenStream.close_eq {eof : Token} (heof : eof.isEof = true) {us : List Token}
    (hus : ∀ t ∈ us, t.isEof = false) : close eof heof us = ⟨us, eof, [], hus, heof⟩ := by
  induction us with
  | nil => rfl
  | cons t us ih =>
      have ht : ¬t.isEof = true := by simpa using hus t List.mem_cons_self
      rw [close, dif_neg ht, ih fun u hu => hus u (List.mem_cons_of_mem t hu)]
      rfl

namespace Scan

variable (text : List Char)

lemma spelled : ∀ t ∈ (ofText text).body, Spelled t := by
  rw [ofText, (ofSegments_eq_outcomes 1 (Segment.ofText text)).1]
  exact (tokenizes_outcomes 1 text).spelled

lemma stream_eq :
    (ofText text).stream = ⟨(ofText text).body, endOfInput (ofText text).endLine, [],
      fun t ht => (spelled text t ht).isEof_eq_false, rfl⟩ :=
  TokenStream.close_eq rfl _

/-- The tokens of a scan are those of its stream. -/
lemma ofList?_tokens : TokenStream.ofList? (ofText text).tokens = some (ofText text).stream := by
  rw [stream_eq]
  exact TokenStream.ofList?_append _ rfl

/-- The payloads of a scan fit. -/
lemma admissible : ∀ t ∈ (ofText text).stream.body, t.Admissible := by
  rw [stream_eq]
  exact fun t ht => (spelled text t ht).admissible

/-- The tokens of a scan can be listed. -/
lemma exists_summaries : ∃ texts, (ofText text).tokens.mapM TokenOf.summary? = some texts := by
  refine exists_mapM_eq_some fun t ht => ?_
  rcases List.mem_append.mp ht with ht | ht
  · exact (spelled text t ht).exists_summary
  · obtain rfl := List.mem_singleton.mp ht
    exact ⟨_, rfl⟩

end Scan

/-! ### Parses of a scan -/

/-- An expression that is accepted is the one that the tokens are a sentence for. -/
lemma TokenStream.sentence_of_accepted {s : TokenStream} {limits : Limits} {e : Expr}
    (hadm : ∀ t ∈ s.body, t.Admissible) (h : (s.parse limits).verdict = .accepted e) :
    Sentence s.body e := by
  rw [parse] at h
  rcases fragments_verdict limits s.eof _ s.body (Nat.lt_succ_self _) hadm with
    ⟨e', hf, hr⟩ | ⟨-, -, ⟨hv, -⟩ | hv⟩
  · rw [hr] at h
    obtain rfl := Verdict.accepted.inj h
    exact (sentence_of_fragment_eq_ok hf).1
  · cases hv.symm.trans h
  · cases hv.symm.trans h

section Parses

variable {limits : Limits} {text : List Char} {e : Expr}

/-- What is read from a text is readable. -/
lemma Scan.readable (h : ((ofText text).stream.parse limits).verdict = .accepted e) :
    e.Readable := by
  obtain ⟨us, hderives, hus⟩ := TokenStream.sentence_of_accepted (admissible text) h
  rw [show (ofText text).stream.body = (ofText text).body by rw [stream_eq]] at hus
  refine hderives.readable (fun t ht => spelled text t ?_) fun _ _ hp => nomatch hp
  rcases hus with hus | ⟨semicolon, -, hus⟩
  · exact hus ▸ ht
  · exact hus ▸ List.mem_append_left _ ht

/-- The parse of the tokens of a text comes to a tree that is printed, to faults, or to a full stack
under a depth limit that cannot be written. -/
lemma Scan.parse_cases {report : Report} (h : (ofText text).stream.parse limits = report) :
    (∃ e tree, report = ⟨[], .accepted e, []⟩ ∧ e.print? = .ok tree) ∨
      (report.verdict = .rejected ∧ report.faults ≠ []) ∨
      report.verdict = .broken .unwritten := by
  subst h
  rcases fragments_verdict limits _ _ _ (Nat.lt_succ_self _) (admissible text) with
    ⟨e, -, hr⟩ | ⟨-, -, ⟨hv, hne⟩ | hv⟩
  · obtain ⟨tree, htree⟩ := (readable (congrArg Report.verdict hr)).exists_print
    exact Or.inl ⟨e, tree, hr, htree⟩
  · exact Or.inr (Or.inl ⟨hv, mt List.map_eq_nil_iff.mp hne⟩)
  · exact Or.inr (Or.inr hv)

end Parses

lemma readText_of_error {limit : DepthLimit} {text : List Char} {e : LexicalError}
    {errors : List LexicalError} (h : (Scan.ofText text).errors = e :: errors) :
    readText limit text = .error e := by
  rw [readText, scanText, h]
  rfl

lemma readText_of_scan {limit : DepthLimit} {text : List Char}
    (h : (Scan.ofText text).errors = []) :
    readText limit text = .ok (.ofStream limit (Scan.ofText text).stream) := by
  rw [readText, scanText, h]
  rfl

/-! ### Runs on a text -/

section Runs

variable (mode : Mode) (filename : Option String) (text : List Char)

/-- The texts for the lexical errors of a scan. -/
def Scan.reports (filename : Option String) (scan : Scan) : String :=
  String.join (scan.errors.map fun e => (e.diagnostic filename).text)

/-- The texts for the faults of a reading. -/
def Reading.reports (r : Reading) : String :=
  String.join (r.report.faults.map fun f => f.toError.diagnostic.text)

/-- A run on the tokens of a text prints the tree, or reports the faults, or is broken off. -/
lemma runScan_cases (listing : String) {r : Reading}
    (hr : r = .ofStream mode.limit (Scan.ofText text).stream) :
    (∃ e tree, r.report = ⟨[], .accepted e, []⟩ ∧ e.print? = .ok tree ∧
        runScan mode listing (Scan.ofText text) =
          .ok ⟨.ok, listing ++ tree ++ "\n", mode.log r⟩) ∨
      (r.report.verdict = .rejected ∧ r.report.faults ≠ [] ∧
        runScan mode listing (Scan.ofText text) =
          .ok ⟨.dataError, listing, mode.log r ++ r.reports⟩) ∨
      r.report.verdict = .broken .unwritten ∧
        runScan mode listing (Scan.ofText text) = .error .unwritten := by
  rw [runScan]
  dsimp only
  rw [← hr]
  rcases Scan.parse_cases (congrArg Reading.report hr).symm with
    ⟨e, tree, hreport, htree⟩ | ⟨hv, hne⟩ | hv
  · exact Or.inl ⟨e, tree, hreport, htree, by simp only [hreport, htree]⟩
  · exact Or.inr (Or.inl ⟨hv, hne, by simp only [hv]; rfl⟩)
  · exact Or.inr (Or.inr ⟨hv, by simp only [hv]; rfl⟩)

/-- A run on a text lists the tokens and reports the lexical errors. Without these, it goes on with
the scan. -/
lemma exists_runText :
    ∃ texts, (Scan.ofText text).tokens.mapM TokenOf.summary? = some texts ∧
      ((Scan.ofText text).errors ≠ [] → runText mode filename text =
        .ok ⟨.dataError, if mode.showTokens then onLines texts else "",
          (Scan.ofText text).reports filename⟩) ∧
      ((Scan.ofText text).errors = [] → runText mode filename text =
        runScan mode (if mode.showTokens then onLines texts else "") (Scan.ofText text)) := by
  obtain ⟨texts, htexts⟩ := Scan.exists_summaries text
  have hlisting : mode.listing? (Scan.ofText text) =
      some (if mode.showTokens then onLines texts else "") := by
    rw [Mode.listing?, htexts]
    split <;> rfl
  refine ⟨texts, htexts, fun hne => ?_, fun hnil => ?_⟩
  · rw [runText]
    dsimp only
    rw [hlisting]
    exact if_neg (by simpa using hne)
  · rw [runText]
    dsimp only
    rw [hlisting]
    exact if_pos (by simp [hnil])

/-- A run on a text comes to lexical errors, to a tree, to faults, or to a full stack under a depth
limit that cannot be written. -/
lemma runText_cases {r : Reading} (hr : r = .ofStream mode.limit (Scan.ofText text).stream) :
    ∃ texts, (Scan.ofText text).tokens.mapM TokenOf.summary? = some texts ∧ ∃ listing,
      listing = (if mode.showTokens then onLines texts else "") ∧
      ((Scan.ofText text).errors ≠ [] ∧ runText mode filename text =
          .ok ⟨.dataError, listing, (Scan.ofText text).reports filename⟩ ∨
        (Scan.ofText text).errors = [] ∧
          ((∃ e tree, r.report = ⟨[], .accepted e, []⟩ ∧ e.print? = .ok tree ∧
              runText mode filename text = .ok ⟨.ok, listing ++ tree ++ "\n", mode.log r⟩) ∨
            (r.report.verdict = .rejected ∧ r.report.faults ≠ [] ∧
              runText mode filename text = .ok ⟨.dataError, listing, mode.log r ++ r.reports⟩) ∨
            r.report.verdict = .broken .unwritten ∧
              runText mode filename text = .error .unwritten)) := by
  obtain ⟨texts, htexts, hfails, hgoes⟩ := exists_runText mode filename text
  refine ⟨texts, htexts, _, rfl, ?_⟩
  by_cases herrors : (Scan.ofText text).errors = []
  · rw [hgoes herrors]
    exact Or.inr ⟨herrors, runScan_cases mode text _ hr⟩
  · exact Or.inl ⟨herrors, hfails herrors⟩

end Runs

/-- **The command line and the library agree** on every text. The scanner finds the tokens and the
errors of its scan. Where reading the text gives an error, it is the first one of the scan, and the
command writes all of them, in order. Otherwise there are none, and the parser comes to the reading
of the tokens. The command writes the tree in prefix form, or the faults in order; for a nesting
that is too deep these have the depth limit in words. Before this it lists the tokens if it is asked
to, and nothing else is written.

But where some fragment finds the stack full and the depth limit has too many digits to be written,
neither the parser nor the command has a result: both are broken off. -/
theorem runText_agrees (limit : DepthLimit) (showTokens : Bool) (text : List Char) :
    let scan := Scan.ofText text
    let parse := Descent.parse ⟨scan.tokens, .withDepth limit⟩
    let run := runText ⟨limit, showTokens, false⟩ none text
    Scanner.Finds ⟨text⟩ scan.tokens scan.errors ∧
      ∃ texts, scan.tokens.mapM TokenOf.summary? = some texts ∧
        let listing := if showTokens then String.join (texts.map (· ++ "\n")) else ""
        match readText limit text with
        | .error e =>
          scan.errors.head? = some e ∧
            ∃ o, run = .ok o ∧ o.code.toNat = 65 ∧ o.out = listing ∧
              o.err = String.join (scan.errors.map fun e => (e.diagnostic none).text)
        | .ok r =>
          scan.errors = [] ∧ readTokens limit scan.tokens = some r ∧
            (r.report.verdict = .broken .unwritten ↔
              limit.text? = none ∧ Overflows (.withDepth limit) r.stream.body) ∧
            match r.report.verdict with
            | .accepted e =>
              r.report.faults = [] ∧
                (∀ c, ∃ c', parse c = (.ok ⟨some (.expression e.weaken), []⟩, c')) ∧
                ∃ tree o, (Value.expression e.weaken).print? = .ok tree ∧
                  run = .ok o ∧ o.code.toNat = 0 ∧ o.out = listing ++ tree ++ "\n" ∧ o.err = ""
            | .rejected =>
              r.report.faults ≠ [] ∧
                (∀ c, ∃ c', parse c = (.ok ⟨none, r.report.faults⟩, c')) ∧
                (limit.allows 1 = true → ∀ f ∈ r.report.faults,
                  f.toError.kind = .recursionLimit → ∃ digits, limit.text? = some digits ∧
                    f.toError.message =
                      "Expression nesting exceeds maximum depth of " ++ digits ++ ".") ∧
                ∃ o, run = .ok o ∧ o.code.toNat = 65 ∧ o.out = listing ∧
                  o.err = String.join (r.report.faults.map fun f => f.toError.diagnostic.text)
            | .broken ending =>
              ending = .unwritten ∧ (∀ c, (parse c).1 = .error .unwritten) ∧
                run = .error .unwritten := by
  intro scan parse run
  refine ⟨Scanner.scan_finds ⟨text⟩, ?_⟩
  obtain ⟨texts, htexts, listing, hlisting, hrun⟩ :=
    runText_cases ⟨limit, showTokens, false⟩ none text rfl
  refine ⟨texts, htexts, ?_⟩
  intro listing'
  obtain rfl : listing = listing' := hlisting
  rcases hrun with ⟨hne, hrun⟩ | ⟨hnil, hrun⟩
  · obtain ⟨e, errors, herrors⟩ := List.exists_cons_of_ne_nil hne
    rw [readText_of_error herrors]
    exact ⟨congrArg List.head? herrors, _, hrun, rfl, rfl, rfl⟩
  rw [readText_of_scan hnil]
  dsimp only
  generalize hr : Reading.ofStream limit (Scan.ofText text).stream = r at hrun ⊢
  have htokens : readTokens limit scan.tokens = some r := by
    rw [readTokens, Scan.ofList?_tokens, ← hr]
    rfl
  have hparse (c : Cursor) : parse c = r.stream.parseOutcome r.report :=
    parse_of_readTokens htokens c
  have hunwritten : r.report.verdict = .broken .unwritten ↔
      limit.text? = none ∧ Overflows (.withDepth limit) r.stream.body := by
    rw [← hr]
    exact fragments_unwritten_iff _ _ _ _ (Nat.lt_succ_self _)
  refine ⟨hnil, htokens, hunwritten, ?_⟩
  rcases hrun with ⟨e, tree, hreport, htree, hrun⟩ | ⟨hv, hne, hrun⟩ | ⟨hv, hrun⟩
  · rw [hreport] at hparse ⊢
    exact ⟨rfl, fun c => ⟨_, hparse c⟩, tree, _, Value.print?_expression_eq_ok.mpr htree, hrun,
      rfl, rfl, rfl⟩
  · have hresult (c : Cursor) : ∃ c', parse c = (.ok ⟨none, r.report.faults⟩, c') := by
      rw [hparse, TokenStream.parseOutcome, hv]
      exact ⟨_, rfl⟩
    rw [hv]
    refine ⟨hne, hresult, fun hfirst f hf => ?_, _, hrun, rfl, rfl, String.empty_append⟩
    rw [← hr] at hf
    exact (Scan.ofText text).stream.message_of_recursionLimit hfirst hf
  · have herror (c : Cursor) : (parse c).1 = .error .unwritten := by
      rw [hparse, TokenStream.parseOutcome, hv]
      rfl
    rw [hv]
    exact ⟨rfl, herror, hrun⟩

/-- Parentheses fill the stack, and the least number with too many digits cannot be written. -/
example :
    let limit : DepthLimit := .ofInt (10 ^ Integer.maxDigits : Nat)
    runText ⟨limit, false, false⟩ none (List.replicate 400 '(') = .error .unwritten := by
  decide +kernel

end ExprFront
