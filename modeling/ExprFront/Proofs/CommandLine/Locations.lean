import ExprFront.Proofs.CommandLine.SourceText

/-!
Where the problems of a text are said to be.

The report of a problem is its headline, its location and the advice on it. Scanner and parser share
the reports, and only the scanner is told the name of a file: a lexical error is located in the file
(`LexicalError.location_diagnostic`), a fault at a line of no text in particular
(`Fault.location_diagnostic`). The reports on a text that is wrong are all of the one or all of the
other kind, and those of the parser do not depend on the file (`reports_located`).
-/

namespace ExprFront

/-! ### The location of one problem -/

lemma Diagnostic.given_some {name : String} (hname : name ≠ "") : given (some name) = some name :=
  Option.filter_eq_some_iff.mpr ⟨rfl, by simpa using hname⟩

/-- A problem in a named file is located in it. -/
lemma Diagnostic.location_of_named (d : Diagnostic) {name : String} (hname : name ≠ "")
    (hfile : d.filename = some name) :
    d.location = "  --> " ++ name ++ ":" ++ toString d.line ++ d.place ++ "\n" := by
  rw [location, hfile, given_some hname]
  simp only [String.append_assoc]

/-- A problem in no file is located by its line only. -/
lemma Diagnostic.location_of_unnamed (d : Diagnostic) (hfile : d.filename = none) :
    d.location = "  --> line " ++ toString d.line ++ d.place ++ "\n" := by
  rw [location, hfile]
  exact congrArg (fun s => s ++ toString d.line ++ d.place ++ "\n")
    (show "  --> " ++ "line " = "  --> line " by decide)

/-- The report of a lexical error takes over the file and the line, and no place in the line. -/
lemma LexicalError.diagnostic_source (filename : Option String) (e : LexicalError) :
    (e.diagnostic filename).filename = filename ∧ (e.diagnostic filename).line = e.line ∧
      (e.diagnostic filename).place = "" := by
  rw [diagnostic]
  cases e.fault <;> exact ⟨rfl, rfl, rfl⟩

/-- A lexical error is located in the file. -/
lemma LexicalError.location_diagnostic {name : String} (hname : name ≠ "") (e : LexicalError) :
    (e.diagnostic (some name)).location = "  --> " ++ name ++ ":" ++ toString e.line ++ "\n" := by
  obtain ⟨hfile, hline, hplace⟩ := e.diagnostic_source (some name)
  rw [Diagnostic.location_of_named _ hname hfile, hline, hplace, String.append_empty]
  rfl

/-- A fault is located by the line and the place of its token, in no file. -/
lemma Fault.location_diagnostic (f : Fault) :
    f.toError.diagnostic.location =
      "  --> line " ++ toString f.token.line ++ f.token.place ++ "\n" :=
  Diagnostic.location_of_unnamed _ rfl

/-! ### The problems of a text -/

/-- Without lexical errors the name of the file makes no difference. -/
lemma runText_of_errors_eq_nil (mode : Mode) (filename : Option String) {text : List Char}
    (h : (Scan.ofText text).errors = []) :
    runText mode filename text = runText mode none text := by
  obtain ⟨texts, htexts, -, hrun⟩ := exists_runText mode filename text
  obtain ⟨texts', htexts', -, hrun'⟩ := exists_runText mode none text
  obtain rfl := Option.some.inj (htexts.symm.trans htexts')
  exact (hrun h).trans (hrun' h).symm

/-- **Only lexical errors name the file.** A run on a text from a named file has an outcome, unless
some fragment finds the stack full and the depth limit has too many digits to be written. If the
text is wrong, then either the scanner finds errors, and the reports are theirs, each one located at
its line of the file; or it finds none, and after the log the reports are those of the parser, each
one located by its line and the place of its token. The latter do not name the file: the run is the
same as that on a text from no file. -/
theorem reports_located (mode : Mode) {name : String} (hname : name ≠ "") (text : List Char) :
    let scan := Scan.ofText text
    let r := Reading.ofStream mode.limit scan.stream
    let run := runText mode (some name) text
    ((∃ o, run = .ok o) ∨
        run = .error .unwritten ∧ runText mode none text = run ∧ scan.errors = [] ∧
          mode.limit.text? = none ∧ Overflows (.withDepth mode.limit) r.stream.body) ∧
      ∀ o, run = .ok o → o.code.toNat = 65 →
        (scan.errors ≠ [] ∧
          o.err = String.join (scan.errors.map fun e =>
            (e.diagnostic (some name)).headline ++
              ("  --> " ++ name ++ ":" ++ toString e.line ++ "\n") ++
              (e.diagnostic (some name)).advice)) ∨
        (scan.errors = [] ∧ r.report.faults ≠ [] ∧ runText mode none text = .ok o ∧
          o.err = mode.log r ++ String.join (r.report.faults.map fun f =>
            f.toError.diagnostic.headline ++
              ("  --> line " ++ toString f.token.line ++ f.token.place ++ "\n") ++
              f.toError.diagnostic.advice)) := by
  intro scan r run
  obtain ⟨-, -, listing, -, hrun⟩ := runText_cases mode (some name) text rfl
  rcases hrun with ⟨hne, hrun⟩ | ⟨hnil, hrun⟩
  · refine ⟨Or.inl ⟨_, hrun⟩, fun o ho _ => Or.inl ⟨hne, ?_⟩⟩
    obtain rfl := Except.ok.inj (hrun.symm.trans ho)
    refine congrArg String.join (List.map_congr_left fun e _ => ?_)
    rw [Diagnostic.text, LexicalError.location_diagnostic hname]
  have hsame : runText mode none text = run := (runText_of_errors_eq_nil mode (some name) hnil).symm
  rcases hrun with ⟨_, _, _, _, hrun⟩ | ⟨-, hfaults, hrun⟩ | ⟨hv, hrun⟩
  · refine ⟨Or.inl ⟨_, hrun⟩, fun o ho hcode => ?_⟩
    obtain rfl := Except.ok.inj (hrun.symm.trans ho)
    cases hcode
  · refine ⟨Or.inl ⟨_, hrun⟩, fun o ho _ => Or.inr ⟨hnil, hfaults, hsame.trans ho, ?_⟩⟩
    obtain rfl := Except.ok.inj (hrun.symm.trans ho)
    refine congrArg (mode.log r ++ String.join ·) (List.map_congr_left fun f _ => ?_)
    rw [Diagnostic.text, Fault.location_diagnostic]
  · refine ⟨Or.inr ⟨hrun, hsame, hnil, ?_⟩, fun o ho => ?_⟩
    · exact (fragments_unwritten_iff _ _ _ _ (Nat.lt_succ_self _)).mp hv
    · cases hrun.symm.trans ho

/-- An operand is missing at the end of a file, and the report does not name the file. -/
theorem reports_located_missing_operand :
    "u.lx" ≠ "" ∧
      ∃ o, runText ⟨.standard, false, false⟩ (some "u.lx") ['1', ' ', '+'] = .ok o ∧
        o.code.toNat = 65 ∧
        runText ⟨.standard, false, false⟩ none ['1', ' ', '+'] = .ok o ∧
        o.err = "ERROR[P001]: Expect expression.\n  --> line 1 at end\n" ++
          "  help: Expected a number, string, true, false, nil, a unary operator or '('.\n" := by
  have hname : "u.lx" ≠ "" := by decide
  have herrors : (Scan.ofText ['1', ' ', '+']).errors = [] := by decide +kernel
  have hcode : (runText ⟨.standard, false, false⟩ (some "u.lx") ['1', ' ', '+']).toOption.map
      (fun o => o.code.toNat) = some 65 := by decide +kernel
  obtain ⟨⟨o, hrun⟩ | ⟨hrun, -⟩, hreports⟩ :=
    reports_located ⟨.standard, false, false⟩ hname ['1', ' ', '+']
  · rw [hrun] at hcode
    have hcode : o.code.toNat = 65 := Option.some.inj hcode
    refine ⟨hname, o, hrun, hcode, ?_⟩
    obtain ⟨hne, -⟩ | ⟨-, -, hsame, herr⟩ := hreports o hrun hcode
    · exact absurd herrors hne
    · exact ⟨hsame, herr.trans (by decide +kernel)⟩
  · rw [hrun] at hcode
    cases hcode

end ExprFront
