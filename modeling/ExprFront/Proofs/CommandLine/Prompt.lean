import ExprFront.CommandLine.Console
import ExprFront.Proofs.CommandLine.SourceText

/-!
The lines at the prompt do not depend on each other.

A dialog that only writes adds the same texts to every console (`Dialog.Writes`), and dialogs in a
row add their texts one after the other, up to the first one that is broken off. A run on a source
text is of this kind (`run_writes`), and it writes the outcome of the command on the text
(`run_writes_outcome`). A session adds what its next line adds and goes on, unless the run on this
line is broken off (`session_line`), so it adds what all its lines add, in order (`session_apply`),
and it can be cut in two behind every line feed (`Text.lines_newline`). `prompt_lines_independent`
has this, and the agreement with the outcome of the command.
-/

namespace ExprFront

/-! ### Lines -/

namespace Text

/-- The first line and the text after it are the text. -/
lemma cutLine_append (text : List Char) : (cutLine text).1 ++ (cutLine text).2 = text := by
  induction text with
  | nil => rfl
  | cons c rest ih =>
      rw [cutLine]
      split
      · rfl
      · exact congrArg (c :: ·) ih

/-- Only the text without characters has a first line without characters. -/
lemma cutLine_cons (c : Char) (rest : List Char) : (cutLine (c :: rest)).1 ≠ [] := by
  rw [cutLine]
  split <;> exact List.cons_ne_nil _ _

lemma cutLine_of_ne {c : Char} (hc : c ≠ '\n') (rest : List Char) :
    cutLine (c :: rest) = (c :: (cutLine rest).1, (cutLine rest).2) := by
  rw [cutLine, if_neg hc]

/-- The lines of a text are its first line and those of the text after it. -/
lemma lines_cons (c : Char) (rest : List Char) :
    lines (c :: rest) = (cutLine (c :: rest)).1 :: lines (cutLine (c :: rest)).2 := by
  induction rest generalizing c with
  | nil =>
      by_cases hc : c = '\n' <;> simp [lines, cutLine, hc]
  | cons d rest ih =>
      by_cases hc : c = '\n'
      · simp [lines, cutLine, hc]
      · rw [lines, if_neg hc, ih d, cutLine_of_ne hc]

/-- A line feed cuts the lines of a text in two. -/
lemma lines_newline (a b : List Char) :
    lines (a ++ '\n' :: b) = lines (a ++ ['\n']) ++ lines b := by
  induction a with
  | nil => rfl
  | cons c a ih =>
      rw [List.cons_append, List.cons_append, lines, lines, ih]
      split
      · rfl
      · obtain ⟨d, more, hd⟩ := List.exists_cons_of_ne_nil
          (List.append_ne_nil_of_right_ne_nil a (List.cons_ne_nil '\n' []))
        rw [hd, lines_cons]
        rfl

end Text

namespace Dialog

open Method

variable {α β : Type}

/-! ### Dialogs that only write -/

/-- A dialog ends in one way and adds texts to the two output channels, whatever there is on the
console. -/
def Writes (m : Dialog α) (r : Except Interruption α) (out err : String) : Prop :=
  ∀ c, m c = (r, { c with out := c.out ++ out, err := c.err ++ err })

section Writes

variable {m : Dialog α} {f : α → Dialog β} {a : α} {r : Except Interruption β}
  {out err out' err' : String}

lemma pure_writes (a : α) : Writes (pure a) (.ok a) "" "" := by
  intro c
  rw [String.append_empty, String.append_empty]
  rfl

lemma stop_writes (b : Interruption) : Writes (stop b : Dialog α) (.error b) "" "" := by
  intro c
  rw [String.append_empty, String.append_empty]
  rfl

lemma Writes.bind (hm : Writes m (.ok a) out err) (hf : Writes (f a) r out' err') :
    Writes (m >>= f) r (out ++ out') (err ++ err') := by
  intro c
  rw [bind_of_ok (hm c), hf, ← String.append_assoc, ← String.append_assoc]

/-- Behind a dialog that is broken off comes nothing. -/
lemma Writes.bind_error {b : Interruption} (hm : Writes m (.error b) out err) :
    Writes (m >>= f) (.error b) out err := fun c => bind_of_error (hm c)

/-- A dialog that reports nothing leaves this to the next one. -/
lemma Writes.bind_out (hm : Writes m (.ok a) out "") (hf : Writes (f a) r out' err') :
    Writes (m >>= f) r (out ++ out') err' := by
  have h := hm.bind hf
  rwa [String.empty_append] at h

/-- A dialog that writes nothing at all leaves everything to the next one. -/
lemma Writes.bind_silent (hm : Writes m (.ok a) "" "") (hf : Writes (f a) r out' err') :
    Writes (m >>= f) r out' err' := by
  have h := hm.bind_out hf
  rwa [String.empty_append] at h

/-- A result in the end adds nothing. -/
lemma Writes.bind_pure (hm : Writes m (.ok a) out err) (b : β) :
    Writes (do let _ ← m; return b) (.ok b) out err := by
  have h := hm.bind (f := fun _ => pure b) (pure_writes b)
  rwa [String.append_empty, String.append_empty] at h

lemma write_writes (text : String) : Writes (write text) (.ok ()) text "" := by
  intro c
  rw [String.append_empty]
  rfl

lemma report_writes (text : String) : Writes (report text) (.ok ()) "" text := by
  intro c
  rw [String.append_empty]
  rfl

lemma reportAll_writes (texts : List String) :
    Writes (reportAll texts) (.ok ()) "" (String.join texts) := by
  induction texts with
  | nil => exact pure_writes ()
  | cons text texts ih =>
      rw [String.join_cons]
      have h := (report_writes text).bind (f := fun _ => reportAll texts) ih
      rwa [String.empty_append] at h

/-- What is waited for comes without a text. -/
lemma await_writes {ε : Type} (interruption : ε → Interruption) (r : Except ε α) :
    Writes (await interruption r) (r.mapError interruption) "" "" := by
  cases r with
  | ok a => exact pure_writes a
  | error b => exact stop_writes (interruption b)

/-- What is at hand comes without a text. -/
lemma need_writes {b : Interruption} {text : String} {get? : Console → Option String}
    (h : ∀ c, get? c = some text) : Writes (need b get?) (.ok text) "" "" := by
  intro c
  rw [need_of_some (h c), String.append_empty, String.append_empty]

end Writes

/-! ### A run on a source text -/

lemma listAll_writes {tokens : List Token} {texts : List String}
    (h : tokens.mapM TokenOf.summary? = some texts) :
    Writes (listAll tokens) (.ok ()) (onLines texts) "" := by
  induction tokens generalizing texts with
  | nil =>
      obtain rfl := Option.some.inj h
      exact pure_writes ()
  | cons t ts ih =>
      simp only [List.mapM_cons, Option.bind_eq_bind, Option.bind_eq_some_iff, Option.pure_def,
        Option.some.injEq] at h
      obtain ⟨text, htext, texts, htexts, rfl⟩ := h
      rw [onLines, List.map_cons, String.join_cons]
      refine (need_writes fun _ => htext).bind_silent ?_
      exact (write_writes _).bind_out (ih htexts)

lemma list_writes (showTokens : Bool) {tokens : List Token} {texts : List String}
    (h : tokens.mapM TokenOf.summary? = some texts) :
    Writes (list showTokens tokens) (.ok ()) (if showTokens then onLines texts else "") "" := by
  cases showTokens with
  | false => exact pure_writes ()
  | true => exact listAll_writes h

/-- The expression of a parse is printed. -/
lemma conclude_expression {e : Expr} {tree : String} (h : e.print? = .ok tree) :
    Writes (conclude ⟨some (.expression e.weaken), []⟩) (.ok .ok) (tree ++ "\n") "" := by
  have hprint : (Value.expression e.weaken).print? = .ok tree :=
    Value.print?_expression_eq_ok.mpr h
  have hawait := await_writes Interruption.printing (Value.expression e.weaken).print?
  rw [hprint] at hawait
  rw [conclude, if_pos List.isEmpty_nil, Option.getD_some, hprint]
  exact hawait.bind_silent ((write_writes _).bind_pure _)

/-- The faults of a parse are reported. -/
lemma conclude_faults {faults : List Fault} (h : faults ≠ []) :
    Writes (conclude ⟨none, faults⟩) (.ok .dataError) ""
      (String.join (faults.map fun f => f.toError.diagnostic.text)) := by
  have hempty : ¬faults.isEmpty = true := by simpa using h
  rw [conclude, if_neg hempty]
  exact (reportAll_writes _).bind_pure _

section Runs

variable (limits : Limits) (showTokens : Bool) (filename : Option String) {text : List Char}
  {texts : List String} (htexts : (Scan.ofText text).tokens.mapM TokenOf.summary? = some texts)

include htexts

/-- What a run writes where its scan has errors. -/
lemma run_of_errors (herrors : (Scan.ofText text).errors ≠ []) :
    Writes (run limits showTokens filename text) (.ok .dataError)
      (if showTokens then onLines texts else "") ((Scan.ofText text).reports filename) := by
  obtain ⟨start, hscan⟩ := Scanner.scan_follows (s := ⟨text⟩) {}
  have hempty : ¬(Scan.ofText text).errors.isEmpty = true := by simpa using herrors
  rw [run, hscan]
  refine (await_writes Interruption.scanning (.ok _)).bind_silent ?_
  rw [← String.append_empty (s := if showTokens then onLines texts else "")]
  refine (list_writes showTokens htexts).bind_out ?_
  dsimp only
  rw [if_neg hempty]
  exact (reportAll_writes _).bind_pure _

/-- Where its scan has no errors, a run lists the tokens and parses them. -/
lemma run_of_scan (herrors : (Scan.ofText text).errors = []) {r : Except Interruption ExitCode}
    {out err : String}
    (hrest : Writes (do
      let result ← await .parsing
        ((Scan.ofText text).stream.parseOutcome ((Scan.ofText text).stream.parse limits)).1
      conclude result) r out err) :
    Writes (run limits showTokens filename text) r
      ((if showTokens then onLines texts else "") ++ out) err := by
  obtain ⟨start, hscan⟩ := Scanner.scan_follows (s := ⟨text⟩) {}
  have hend : (Scan.ofText text).tokens.any TokenOf.isEof = true := by
    simp [Scan.tokens, endOfInput, TokenOf.isEof]
  have hparse := parse_follows (Scan.ofText text).stream limits {}
  rw [TokenStream.descent, TokenStream.toList_ofList? (Scan.ofList?_tokens text)] at hparse
  rw [← hparse] at hrest
  rw [run, hscan]
  refine (await_writes Interruption.scanning (.ok _)).bind_silent ?_
  refine (list_writes showTokens htexts).bind_out ?_
  dsimp only
  rw [herrors, List.isEmpty_nil, if_pos rfl, if_pos hend]
  exact hrest

/-- What a run writes where its parse has an expression. -/
lemma run_of_accepted (herrors : (Scan.ofText text).errors = []) {e : Expr} {tree : String}
    (hreport : (Scan.ofText text).stream.parse limits = ⟨[], .accepted e, []⟩)
    (htree : e.print? = .ok tree) :
    Writes (run limits showTokens filename text) (.ok .ok)
      ((if showTokens then onLines texts else "") ++ (tree ++ "\n")) "" := by
  refine run_of_scan limits showTokens filename htexts herrors ?_
  rw [hreport]
  exact (await_writes Interruption.parsing (.ok _)).bind_silent (conclude_expression htree)

/-- What a run writes where its parse has faults. -/
lemma run_of_rejected (herrors : (Scan.ofText text).errors = []) {report : Report}
    (hreport : (Scan.ofText text).stream.parse limits = report)
    (hv : report.verdict = .rejected) (hne : report.faults ≠ []) :
    Writes (run limits showTokens filename text) (.ok .dataError)
      (if showTokens then onLines texts else "")
      (String.join (report.faults.map fun f => f.toError.diagnostic.text)) := by
  rw [← String.append_empty (s := if showTokens then onLines texts else "")]
  refine run_of_scan limits showTokens filename htexts herrors ?_
  rw [hreport, TokenStream.parseOutcome, hv]
  exact (await_writes Interruption.parsing (.ok _)).bind_silent (conclude_faults hne)

/-- What a run writes where its parse is broken off. -/
lemma run_of_broken (herrors : (Scan.ofText text).errors = [])
    (hv : ((Scan.ofText text).stream.parse limits).verdict = .broken .unwritten) :
    Writes (run limits showTokens filename text) (.error (.parsing .unwritten))
      (if showTokens then onLines texts else "") "" := by
  rw [← String.append_empty (s := if showTokens then onLines texts else "")]
  refine run_of_scan limits showTokens filename htexts herrors ?_
  rw [TokenStream.parseOutcome, hv]
  exact (await_writes Interruption.parsing (.error _)).bind_error

end Runs

/-- A text without lexical errors on which the stack gets full, where the depth limit cannot be
written. -/
def Unwritten (limits : Limits) (text : List Char) : Prop :=
  (Scan.ofText text).errors = [] ∧ limits.depth.text? = none ∧
    Overflows limits (Scan.ofText text).stream.body

section Texts

variable (limits : Limits) (showTokens : Bool) (filename : Option String) (text : List Char)

lemma unwritten_iff (herrors : (Scan.ofText text).errors = []) :
    Unwritten limits text ↔
      ((Scan.ofText text).stream.parse limits).verdict = .broken .unwritten := by
  rw [Unwritten, and_iff_right herrors]
  exact (fragments_unwritten_iff limits _ _ _ (Nat.lt_succ_self _)).symm

/-- A run on a text writes, and it has an exit code unless it is broken off at the depth limit. -/
lemma run_writes : ∃ r out err, Writes (run limits showTokens filename text) r out err ∧
    ((∃ code, r = .ok code) ∧ ¬Unwritten limits text ∨
      r = .error (.parsing .unwritten) ∧ Unwritten limits text) := by
  obtain ⟨texts, htexts⟩ := Scan.exists_summaries text
  by_cases herrors : (Scan.ofText text).errors = []
  · have hiff := unwritten_iff limits text herrors
    rcases Scan.parse_cases (rfl : (Scan.ofText text).stream.parse limits = _) with
      ⟨e, tree, hreport, htree⟩ | ⟨hv, hne⟩ | hv
    · have hrun := run_of_accepted limits showTokens filename htexts herrors hreport htree
      refine ⟨_, _, _, hrun, Or.inl ⟨⟨_, rfl⟩, fun h => ?_⟩⟩
      cases (congrArg Report.verdict hreport).symm.trans (hiff.mp h)
    · have hrun := run_of_rejected limits showTokens filename htexts herrors rfl hv hne
      refine ⟨_, _, _, hrun, Or.inl ⟨⟨_, rfl⟩, fun h => ?_⟩⟩
      cases hv.symm.trans (hiff.mp h)
    · have hrun := run_of_broken limits showTokens filename htexts herrors hv
      exact ⟨_, _, _, hrun, Or.inr ⟨rfl, hiff.mpr hv⟩⟩
  · have hrun := run_of_errors limits showTokens filename htexts herrors
    exact ⟨_, _, _, hrun, Or.inl ⟨⟨_, rfl⟩, fun h => herrors h.1⟩⟩

/-- A run writes the outcome of the command on the text, or neither of them has a result. -/
lemma run_writes_outcome (limit : DepthLimit) :
    (∃ o, runText ⟨limit, showTokens, false⟩ filename text = .ok o ∧
        Writes (run (.withDepth limit) showTokens filename text) (.ok o.code) o.out o.err) ∨
      runText ⟨limit, showTokens, false⟩ filename text = .error .unwritten ∧
        Unwritten (.withDepth limit) text := by
  obtain ⟨texts, htexts, listing, hlisting, hrun⟩ :=
    runText_cases ⟨limit, showTokens, false⟩ filename text rfl
  have hlog (r : Reading) : Mode.log ⟨limit, showTokens, false⟩ r = "" := rfl
  subst hlisting
  rcases hrun with ⟨herrors, hrun⟩ | ⟨herrors, hrun⟩
  · exact Or.inl ⟨_, hrun, run_of_errors _ showTokens filename htexts herrors⟩
  rcases hrun with ⟨e, tree, hreport, htree, hrun⟩ | ⟨hv, hne, hrun⟩ | ⟨hv, hrun⟩
  · refine Or.inl ⟨_, hrun, ?_⟩
    rw [hlog, String.append_assoc]
    exact run_of_accepted _ showTokens filename htexts herrors hreport htree
  · refine Or.inl ⟨_, hrun, ?_⟩
    rw [hlog, String.empty_append]
    exact run_of_rejected _ showTokens filename htexts herrors rfl hv hne
  · exact Or.inr ⟨hrun, (unwritten_iff _ text herrors).mpr hv⟩

end Texts

/-! ### A session -/

/-- What a line at the prompt leaves on a console with nothing on it; nothing if it is blank. -/
def alone (limits : Limits) (showTokens : Bool) (line : List Char) : Console :=
  if line.all Text.isBlank then {} else (run limits showTokens none line {}).2

/-- A line at which a session is broken off. -/
def Breaking (limits : Limits) (line : List Char) : Prop :=
  ¬line.all Text.isBlank = true ∧ Unwritten limits line

section Sessions

variable (limits : Limits) (showTokens : Bool)

/-- A run on a line that is not blank adds to a console what it leaves on one with nothing on it,
and it is broken off if the line is breaking. -/
lemma run_apply {line : List Char} (hblank : ¬line.all Text.isBlank = true) (c : Console) :
    ∃ r, run limits showTokens none line c = (r,
        { c with
          out := c.out ++ (alone limits showTokens line).out
          err := c.err ++ (alone limits showTokens line).err }) ∧
      ((∃ code, r = .ok code) ∧ ¬Breaking limits line ∨
        r = .error (.parsing .unwritten) ∧ Breaking limits line) := by
  obtain ⟨r, out, err, hrun, hcases⟩ := run_writes limits showTokens none line
  refine ⟨r, ?_, ?_⟩
  · rw [alone, if_neg hblank, hrun {}, hrun c, String.empty_append, String.empty_append]
  · rwa [Breaking, and_iff_right hblank]

/-- The course of a session over lines: how it ends, and the console then, from one with nothing on
it. -/
inductive Course : List (List Char) → Except Interruption ExitCode → Console → Prop
  | done : Course [] (.ok .ok) { out := promptText ++ "\n" }
  | next {line lines r c} (hline : ¬Breaking limits line) (h : Course lines r c) :
    Course (line :: lines) r
      { input := c.input
        out := promptText ++ (alone limits showTokens line).out ++ c.out
        err := (alone limits showTokens line).err ++ c.err }
  | broken {line lines} (hline : Breaking limits line) :
    Course (line :: lines) (.error (.parsing .unwritten))
      { input := lines.flatten
        out := promptText ++ (alone limits showTokens line).out
        err := (alone limits showTokens line).err }

lemma exists_course (lines : List (List Char)) : ∃ r c, Course limits showTokens lines r c := by
  induction lines with
  | nil => exact ⟨_, _, .done⟩
  | cons line lines ih =>
      by_cases hline : Breaking limits line
      · exact ⟨_, _, .broken hline⟩
      · obtain ⟨r, c, h⟩ := ih
        exact ⟨_, _, .next hline h⟩

variable {limits showTokens}

/-- What lines add that a session goes through. -/
lemma Course.append {lines others : List (List Char)} {r : Except Interruption ExitCode}
    {c : Console} (h : Course limits showTokens others r c)
    (hlines : ∀ line ∈ lines, ¬Breaking limits line) :
    Course limits showTokens (lines ++ others) r
      { input := c.input
        out :=
          String.join (lines.map fun line => promptText ++ (alone limits showTokens line).out) ++
            c.out
        err :=
          String.join (lines.map fun line => (alone limits showTokens line).err) ++ c.err } := by
  induction lines with
  | nil => simpa [String.join] using h
  | cons line lines ih =>
      obtain ⟨hline, hlines⟩ := List.forall_mem_cons.mp hlines
      have hnext := Course.next hline (ih hlines)
      simp only [String.append_assoc] at hnext
      simpa only [List.cons_append, List.map_cons, String.join_cons, String.append_assoc]

variable (limits showTokens) in
/-- One line of a session: the prompt, what the line leaves, and then the rest of the session or
nothing. -/
lemma session_line (steps : Nat) (d : Char) (rest : List Char) (out err : String) :
    let cut := Text.cutLine (d :: rest)
    let after : Console :=
      { input := cut.2
        out := out ++ promptText ++ (alone limits showTokens cut.1).out
        err := err ++ (alone limits showTokens cut.1).err }
    (¬Breaking limits cut.1 ∧ session limits showTokens (steps + 1) ⟨d :: rest, out, err⟩ =
        session limits showTokens steps after) ∨
      Breaking limits cut.1 ∧ session limits showTokens (steps + 1) ⟨d :: rest, out, err⟩ =
        (.error (.parsing .unwritten), after) := by
  intro cut after
  have hask : write promptText ⟨d :: rest, out, err⟩ =
      (.ok (), ⟨d :: rest, out ++ promptText, err⟩) := rfl
  have hline : readLine ⟨d :: rest, out ++ promptText, err⟩ =
      (.ok cut.1, ⟨cut.2, out ++ promptText, err⟩) := rfl
  have hopen : ¬cut.1.isEmpty = true := by simpa using Text.cutLine_cons d rest
  rw [session, bind_of_ok hask, bind_of_ok hline, if_neg hopen]
  by_cases hblank : cut.1.all Text.isBlank = true
  · have halone : alone limits showTokens cut.1 = {} := if_pos hblank
    refine Or.inl ⟨fun h => h.1 hblank, ?_⟩
    rw [if_pos hblank]
    simp only [after, halone, String.append_empty]
  · rw [if_neg hblank]
    obtain ⟨r, hrun, ⟨⟨code, rfl⟩, hquiet⟩ | ⟨rfl, hbreaking⟩⟩ :=
      run_apply limits showTokens hblank ⟨cut.2, out ++ promptText, err⟩
    · exact Or.inl ⟨hquiet, bind_of_ok hrun⟩
    · exact Or.inr ⟨hbreaking, bind_of_error hrun⟩

/-- A session adds to a console what its course leaves on one with nothing on it. The induction is
on the steps, of which there are more than characters. -/
lemma session_apply (steps : Nat) {c : Console} (hsteps : c.input.length < steps)
    {r : Except Interruption ExitCode} {d : Console}
    (h : Course limits showTokens (Text.lines c.input) r d) :
    session limits showTokens steps c =
      (r, { input := d.input, out := c.out ++ d.out, err := c.err ++ d.err }) := by
  induction steps generalizing c r d with
  | zero => omega
  | succ steps ih =>
      obtain ⟨input, out, err⟩ := c
      cases input with
      | nil =>
          cases h
          have hask : write promptText ⟨[], out, err⟩ = (.ok (), ⟨[], out ++ promptText, err⟩) :=
            rfl
          have hend : readLine ⟨[], out ++ promptText, err⟩ =
              (.ok [], ⟨[], out ++ promptText, err⟩) := rfl
          rw [session, bind_of_ok hask, bind_of_ok hend, if_pos List.isEmpty_nil,
            (write_writes "\n").bind_pure, String.append_assoc]
      | cons c rest =>
          have hlength := congrArg List.length (Text.cutLine_append (c :: rest))
          have hpos := List.length_pos_iff.mpr (Text.cutLine_cons c rest)
          rw [List.length_append] at hlength
          dsimp only at hsteps h
          rw [Text.lines_cons] at h
          rcases session_line limits showTokens steps c rest out err with
            ⟨hquiet, hsession⟩ | ⟨hbreaking, hsession⟩
          · cases h with
            | next _ h =>
                rw [hsession, ih (by dsimp only; omega) h]
                simp only [String.append_assoc]
            | broken hbreaking => exact absurd hbreaking hquiet
          · cases h with
            | next hquiet _ => exact absurd hbreaking hquiet
            | broken _ =>
                rw [hsession, Text.flatten_lines]
                simp only [String.append_assoc]

lemma prompt_apply {input : List Char} {r : Except Interruption ExitCode} {c : Console}
    (h : Course limits showTokens (Text.lines input) r c) :
    prompt limits showTokens { input := input } = (r, c) := by
  have hstate : (Method.state : Dialog Console) { input := input } =
      (.ok { input := input }, { input := input }) := rfl
  rw [prompt, bind_of_ok hstate, session_apply _ (Nat.lt_succ_self _) h]
  simp only [String.empty_append]

/-- A session as an outcome of the command. Where it is broken off there is none. -/
def outcome (r : Except Interruption ExitCode) (c : Console) : Except Escape Outcome :=
  match r with
  | .ok code => .ok ⟨code, c.out, c.err⟩
  | .error _ => .error .unwritten

/-- The session of the command at the prompt takes the same course. -/
lemma runLines_of_course {limit : DepthLimit} {lines : List (List Char)}
    {r : Except Interruption ExitCode} {c : Console}
    (h : Course (.withDepth limit) showTokens lines r c) :
    runLines ⟨limit, showTokens, false⟩ lines = outcome r c := by
  induction h with
  | done => rfl
  | @next line lines r c hline _ ih =>
      rw [runLines, ih, runLine]
      by_cases hblank : line.all Text.isBlank = true
      · have halone : alone (.withDepth limit) showTokens line = {} := if_pos hblank
        rw [if_pos hblank, halone]
        cases r <;> rfl
      · rw [if_neg hblank]
        rcases run_writes_outcome showTokens none line limit with
          ⟨o, hrun, hwrites⟩ | ⟨-, hunwritten⟩
        · have halone : alone (.withDepth limit) showTokens line =
              { out := o.out, err := o.err } := by
            rw [alone, if_neg hblank, hwrites {}, String.empty_append, String.empty_append]
          rw [hrun, halone]
          cases r <;> rfl
        · exact absurd ⟨hblank, hunwritten⟩ hline
  | @broken line lines hline =>
      rw [runLines, runLine, if_neg hline.1]
      rcases run_writes_outcome showTokens none line limit with ⟨o, -, hwrites⟩ | ⟨hrun, -⟩
      · obtain ⟨r, hrun, ⟨-, hquiet⟩ | ⟨rfl, -⟩⟩ :=
          run_apply (.withDepth limit) showTokens hline.1 {}
        · exact absurd hline hquiet
        · cases (congrArg Prod.fst (hwrites {})).symm.trans (congrArg Prod.fst hrun)
      · rw [hrun]
        rfl

end Sessions

end Dialog

/-- **Lines at the prompt** do not depend on each other. A run on any line ends with an exit code,
unless the stack gets full on it and the depth limit has too many digits to be written; then it is
broken off. If this happens on no line, a session ends well at the end of its input; it has written
the prompt and what a run on the line alone writes for each line, or only the prompt for a blank
one, then the prompt and a line feed, and it has reported what the runs alone report. Otherwise the
session is broken off at the first such line, after what the run on this line writes. So behind a
line feed a session that gets there goes on like a new one. With the stack of the command it has the
outcome of the command. -/
theorem prompt_lines_independent (limits : Limits) (showTokens : Bool) :
    let alone (line : List Char) : Console :=
      if line.all Text.isBlank then {} else (Dialog.run limits showTokens none line {}).2
    let breaking (line : List Char) : Prop :=
      ¬line.all Text.isBlank = true ∧ (Scan.ofText line).errors = [] ∧
        limits.depth.text? = none ∧ Overflows limits (Scan.ofText line).stream.body
    let written (lines : List (List Char)) : String :=
      String.join (lines.map fun line => promptText ++ (alone line).out)
    let reported (lines : List (List Char)) : String :=
      String.join (lines.map fun line => (alone line).err)
    let session (input : List Char) := Dialog.prompt limits showTokens { input := input }
    (∀ line, ¬line.all Text.isBlank = true →
        (∃ code, (Dialog.run limits showTokens none line {}).1 = .ok code) ∧ ¬breaking line ∨
          (Dialog.run limits showTokens none line {}).1 = .error (.parsing .unwritten) ∧
            breaking line) ∧
      (∀ input, (∀ line ∈ Text.lines input, ¬breaking line) →
        ∃ code, code.toNat = 0 ∧ session input = (.ok code,
          { input := []
            out := written (Text.lines input) ++ promptText ++ "\n"
            err := reported (Text.lines input) })) ∧
      (∀ input before line after, Text.lines input = before ++ line :: after →
        (∀ line ∈ before, ¬breaking line) → breaking line →
          session input = (.error (.parsing .unwritten),
            { input := after.flatten
              out := written before ++ promptText ++ (alone line).out
              err := reported before ++ (alone line).err })) ∧
      (∀ a b, (∀ line ∈ Text.lines (a ++ ['\n']), ¬breaking line) →
        ∃ out err, session (a ++ ['\n']) = (.ok .ok, ⟨[], out ++ promptText ++ "\n", err⟩) ∧
          session (a ++ '\n' :: b) = ((session b).1,
            ⟨(session b).2.input, out ++ (session b).2.out, err ++ (session b).2.err⟩)) ∧
      ∀ limit input,
        let ended := Dialog.prompt (.withDepth limit) showTokens { input := input }
        runPrompt ⟨limit, showTokens, false⟩ input = Dialog.outcome ended.1 ended.2 := by
  intro alone breaking written reported session
  have hquiet (lines : List (List Char)) (hlines : ∀ line ∈ lines, ¬breaking line) :
      Dialog.Course limits showTokens lines (.ok .ok)
        { out := written lines ++ promptText ++ "\n", err := reported lines } := by
    have hdone : Dialog.Course limits showTokens [] _ _ := .done
    have hcourse := hdone.append hlines
    rw [List.append_nil, ← String.append_assoc, String.append_empty] at hcourse
    exact hcourse
  refine ⟨fun line hblank => ?_, fun input hlines => ⟨.ok, rfl, ?_⟩,
    fun input before line after hinput hbefore hline => ?_, fun a b ha => ?_,
    fun limit input => ?_⟩
  · obtain ⟨r, hrun, hcases⟩ := Dialog.run_apply limits showTokens hblank {}
    rw [hrun]
    exact hcases
  · exact Dialog.prompt_apply (hquiet _ hlines)
  · have hbroken : Dialog.Course limits showTokens (line :: after) _ _ := .broken hline
    have hcourse := hbroken.append hbefore
    rw [← hinput, ← String.append_assoc] at hcourse
    exact Dialog.prompt_apply hcourse
  · obtain ⟨r, c, hb⟩ := Dialog.exists_course limits showTokens (Text.lines b)
    refine ⟨_, _, Dialog.prompt_apply (hquiet _ ha), ?_⟩
    have hcourse := hb.append ha
    rw [← Text.lines_newline] at hcourse
    have hsession : session b = (r, c) := Dialog.prompt_apply hb
    rw [hsession]
    exact Dialog.prompt_apply hcourse
  · obtain ⟨r, c, hcourse⟩ := Dialog.exists_course (.withDepth limit) showTokens (Text.lines input)
    intro ended
    have hended : ended = (r, c) := Dialog.prompt_apply hcourse
    rw [hended]
    exact Dialog.runLines_of_course hcourse

end ExprFront
