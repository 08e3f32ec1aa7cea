import ExprFront.Proofs.CommandLine.SourceText
import ExprFront.Proofs.Text.Utf8

/-!
The exit codes of the command.

Settings may be misused, name an unreadable file, or lead to a faulty text (`Settings.Misused`,
`Settings.Unreadable`, `Settings.Faulty`). A run with an outcome tells by its exit code which of
these comes first (`runCommand_classified`). Not every run has an outcome: the command handles the
errors of reading a file, but neither bytes that are not UTF-8, nor a null character in the name of
the file, nor a missing depth limit (`Settings.Escapes`). A depth limit that is read from the
arguments can be written (`readArguments_writable`), so that no parse is broken off at it.
-/

namespace ExprFront

/-! ### What the settings come to -/

/-- The file at a path is a text in UTF-8. Line ends of all kinds count as line feeds. -/
def HoldsText (read : String → Except FileError (List UInt8)) (path : String)
    (text : List Char) : Prop :=
  path.contains '\x00' = false ∧
    ∃ cs : List Char, read path = .ok (cs.flatMap String.utf8EncodeChar) ∧
      text = Text.unifyLineEnds cs

/-- A text with lexical errors or with faults. -/
def FaultyText (limit : DepthLimit) (text : List Char) : Prop :=
  match readText limit text with
  | .error _ => True
  | .ok r => r.report.faults ≠ []

namespace Settings

variable (s : Settings) (read : String → Except FileError (List UInt8))

/-- The file that is named. An empty name is none. -/
def path? : Option String := s.file.filter (· ≠ "")

/-- An expression is given and a file is named. -/
def Conflicting : Prop := s.expression.isSome = true ∧ s.path?.isSome = true

/-- The settings conflict, or the depth limit is below one. -/
def Misused : Prop := s.Conflicting ∨ ∃ n, s.maxDepth = some n ∧ n < 1

/-- A file is named that is no text. -/
def Unreadable : Prop := ∃ path, s.path? = some path ∧ ¬∃ text, HoldsText read path text

/-- The text of the file that is named, or else of the expression. -/
def IsSource (text : List Char) : Prop :=
  match s.path? with
  | some path => HoldsText read path text
  | none => s.expression.map String.toList = some text

/-- There is a text, and it has lexical errors or faults. -/
def Faulty : Prop :=
  ∃ n text, s.maxDepth = some n ∧ s.IsSource read text ∧ FaultyText (.ofInt n) text

/-- The problems that the command does not handle. -/
inductive Escapes : Escape → Prop
  | noLimit (husage : ¬s.Misused) (hlimit : s.maxDepth = none) :
      Escapes (.limit (.notNumber "list"))
  | nullCharacter {n : Int} {path : String} (husage : ¬s.Misused) (hlimit : s.maxDepth = some n)
      (hpath : s.path? = some path) (hnull : path.contains '\x00' = true) : Escapes .nullByte
  | undecodable {n : Int} {path : String} {bytes : List UInt8} {e : Text.Utf8Error}
      (husage : ¬s.Misused) (hlimit : s.maxDepth = some n) (hpath : s.path? = some path)
      (hnull : path.contains '\x00' = false) (hread : read path = .ok bytes)
      (hbytes : Text.decodeUtf8 bytes = .error e) : Escapes (.undecodable e)

/-- The exit codes for what the settings come to. -/
inductive EndsWith : ExitCode → Prop
  | usage (h : s.Misused) : EndsWith .usage
  | noInput (husage : ¬s.Misused) (h : s.Unreadable read) : EndsWith .noInput
  | dataError (husage : ¬s.Misused) (hfile : ¬s.Unreadable read) (h : s.Faulty read) :
      EndsWith .dataError
  | ok (husage : ¬s.Misused) (hfile : ¬s.Unreadable read) (h : ¬s.Faulty read) : EndsWith .ok

end Settings

/-! ### Reading the arguments -/

/-- The depth limit, if there is one, can be written. -/
def Settings.Writable (s : Settings) : Prop :=
  ∀ n, s.maxDepth = some n → ∃ text, Integer.text? n = some text

lemma useFlag_writable {s s' : Settings} {use : Flag × String} (hs : s.Writable)
    (h : useFlag s use = .ok s') : s'.Writable := by
  obtain ⟨f, value⟩ := use
  cases f with
  | maxDepth =>
      rw [useFlag] at h
      split at h
      · obtain rfl := Except.ok.inj h
        exact fun n hn => nomatch hn
      · split at h
        · next n hread =>
            obtain rfl := Except.ok.inj h
            intro m hm
            obtain rfl := Option.some.inj hm
            exact Integer.exists_text?_of_ofText? hread
        · cases h
  | help => cases h
  | version => cases h
  | _ =>
      obtain rfl := Except.ok.inj h
      exact hs

lemma useFlags_writable {p p' : Progress} {uses : List (Flag × String)}
    (hp : p.settings.Writable) (h : useFlags p uses = .ok p') : p'.settings.Writable := by
  obtain ⟨s, hs, hp'⟩ := bind_eq_ok_iff.mp h
  obtain rfl := Except.ok.inj hp'
  change s.Writable
  obtain ⟨settings, unused⟩ := p
  dsimp only at hs hp
  clear hp' h
  induction uses generalizing settings with
  | nil =>
      obtain rfl := Except.ok.inj hs
      exact hp
  | cons use uses ih =>
      obtain ⟨settings', huse, hrest⟩ := bind_eq_ok_iff.mp hs
      exact ih _ (useFlag_writable hp huse) hrest

lemma interpret_writable (args : List Argument) : ∀ p p', p.settings.Writable →
    interpret p args = .ok p' → p'.settings.Writable := by
  induction hlen : args.length using Nat.strong_induction_on generalizing args with
  | _ k ih =>
      intro p p' hp h
      have hrest {q : Progress} {rest : List Argument} (h : interpret q rest = .ok p')
          (hr : rest.length < args.length) (hq : q.settings.Writable) : p'.settings.Writable :=
        ih rest.length (hlen ▸ hr) rest rfl q p' hq h
      unfold interpret at h
      split at h
      · obtain rfl := Except.ok.inj h
        exact hp
      · split at h <;> exact hrest h (by simp only [List.length_cons]; omega) hp
      · split at h <;> exact hrest h (by simp) hp
      · split at h <;> exact hrest h (by simp) hp
      · exact hrest h (by simp) hp
      · obtain ⟨group, -, h⟩ := bind_eq_ok_iff.mp h
        split at h
        · obtain ⟨q, hq, h⟩ := bind_eq_ok_iff.mp h
          exact hrest h (by simp) (useFlags_writable hp hq)
        · split at h
          · obtain ⟨q, hq, h⟩ := bind_eq_ok_iff.mp h
            exact hrest h (by simp only [List.length_cons]; omega) (useFlags_writable hp hq)
          · cases h

/-- The depth limit that arguments ask for can be written. -/
lemma readArguments_writable {args : List String} {s : Settings} (h : readArguments args = .ok s) :
    s.Writable := by
  obtain ⟨classified, -, h⟩ := bind_eq_ok_iff.mp h
  obtain ⟨p, hp, h⟩ := bind_eq_ok_iff.mp h
  have hstart : ({} : Progress).settings.Writable := by
    intro n hn
    obtain rfl := Option.some.inj hn
    exact ⟨_, Integer.text?_eq_some_iff.mpr
      ⟨Integer.lt_textBound (show 64 < 10 ^ 2 by decide) (by decide), rfl⟩⟩
  split at h
  · obtain rfl := Except.ok.inj h
    exact interpret_writable classified _ p hstart hp
  · cases h
/-! ### Reading a file -/

section Files

variable {read : String → Except FileError (List UInt8)} {path : String}

lemma readSource_of_text {text : List Char} (h : HoldsText read path text) :
    readSource read path = .ok text := by
  obtain ⟨hnull, cs, hread, rfl⟩ := h
  rw [readSource, if_neg (by simp [hnull]), hread]
  simp only [decodeSource, Text.decodeUtf8_eq_ok_iff.mpr rfl]

/-- A file that is no text is refused for one of three reasons. -/
lemma readSource_cases (h : ¬∃ text, HoldsText read path text) :
    (∃ e, readSource read path = .error (.file e)) ∨ path.contains '\x00' = true ∨
      path.contains '\x00' = false ∧
        ∃ bytes e, read path = .ok bytes ∧ Text.decodeUtf8 bytes = .error e := by
  by_cases hnull : path.contains '\x00' = true
  · exact Or.inr (Or.inl hnull)
  cases hread : read path with
  | error e =>
      rw [readSource, if_neg hnull, hread]
      exact Or.inl ⟨e, rfl⟩
  | ok bytes =>
      refine Or.inr (Or.inr ⟨Bool.eq_false_iff.mpr hnull, bytes, ?_⟩)
      cases hbytes : Text.decodeUtf8 bytes with
      | error e => exact ⟨e, rfl, rfl⟩
      | ok cs =>
          rw [Text.decodeUtf8_eq_ok_iff] at hbytes
          exact absurd ⟨_, Bool.eq_false_iff.mpr hnull, cs, hbytes ▸ hread, rfl⟩ h

end Files

/-! ### One text, one file, and the prompt -/

section Runs

variable {mode : Mode} (hlimit : ∃ digits, mode.limit.text? = some digits)
  (filename : Option String)

include hlimit

/-- A run on a text has an outcome, and its code tells whether the text is faulty. -/
lemma runText_code (text : List Char) :
    ∃ o, runText mode filename text = .ok o ∧
      (o.code = .dataError ∧ FaultyText mode.limit text ∨
        o.code = .ok ∧ ¬FaultyText mode.limit text) := by
  obtain ⟨-, -, listing, -, hrun⟩ := runText_cases mode filename text rfl
  rcases hrun with ⟨herrors, hrun⟩ | ⟨herrors, hrun⟩
  · obtain ⟨e, errors, hcons⟩ := List.exists_cons_of_ne_nil herrors
    refine ⟨_, hrun, Or.inl ⟨rfl, ?_⟩⟩
    rw [FaultyText, readText_of_error hcons]
    trivial
  rw [FaultyText, readText_of_scan herrors]
  rcases hrun with ⟨_, _, hreport, -, hrun⟩ | ⟨-, hfaults, hrun⟩ | ⟨hv, -⟩
  · exact ⟨_, hrun, Or.inr ⟨rfl, not_not.mpr (congrArg Report.faults hreport)⟩⟩
  · exact ⟨_, hrun, Or.inl ⟨rfl, hfaults⟩⟩
  · obtain ⟨digits, hdigits⟩ := hlimit
    have hnone := ((fragments_unwritten_iff _ _ _ _ (Nat.lt_succ_self _)).mp hv).1
    cases hdigits.symm.trans hnone

lemma runLine_ok (line : List Char) : ∃ o, runLine mode line = .ok o := by
  rw [runLine]
  split
  · exact ⟨_, rfl⟩
  · obtain ⟨o, hrun, -⟩ := runText_code hlimit none line
    exact ⟨o, hrun⟩

/-- A run on the text of a file is like a run on this text. -/
lemma runFile_code {read : String → Except FileError (List UInt8)} {path : String}
    {text : List Char} (h : HoldsText read path text) :
    ∃ o, runFile mode path (readSource read path) = .ok o ∧
      (o.code = .dataError ∧ FaultyText mode.limit text ∨
        o.code = .ok ∧ ¬FaultyText mode.limit text) := by
  obtain ⟨o, hrun, hcode⟩ := runText_code hlimit (some path) text
  rw [readSource_of_text h, runFile, hrun]
  exact ⟨_, rfl, hcode⟩

/-- No line ends the session at the prompt. -/
lemma runLines_code (lines : List (List Char)) :
    ∃ o, runLines mode lines = .ok o ∧ o.code = .ok := by
  induction lines with
  | nil => exact ⟨_, rfl, rfl⟩
  | cons line rest ih =>
      obtain ⟨first, hfirst⟩ := runLine_ok hlimit line
      obtain ⟨others, hothers, hcode⟩ := ih
      rw [runLines, hfirst, hothers]
      exact ⟨_, rfl, hcode⟩

end Runs

/-! ### The whole command -/

namespace Settings

variable {s : Settings}

/-- The mode that the settings ask for, with a given depth limit. -/
def mode (s : Settings) (n : Int) : Mode := ⟨.ofInt n, s.showTokens, s.verbose⟩

lemma plan_of_conflicting (h : s.Conflicting) :
    s.plan = .finished
      { code := .usage, err := complaint "give an expression or --file, not both" } := by
  rw [plan]
  exact if_pos ((Bool.and_eq_true _ _).mpr h)

/-- What settings without a conflict ask for. -/
lemma plan_of_not_conflicting (h : ¬s.Conflicting) :
    s.plan =
      match s.maxDepth with
      | none => .failed (.limit (.notNumber "list"))
      | some n =>
        if n < 1 then
          .finished { code := .usage, err := complaint (LimitError.belowOne (.int n)).message }
        else
          match s.path?, s.expression with
          | some path, _ => .file (s.mode n) path
          | none, some source => .text (s.mode n) source
          | none, none => .prompt (s.mode n) := by
  rw [plan]
  refine (if_neg (mt (Bool.and_eq_true _ _).mp h)).trans ?_
  rw [limitValue]
  cases s.maxDepth with
  | none => rfl
  | some n =>
      dsimp only
      rw [DepthLimit.ofValue?_int]
      by_cases hn : n < 1
      · rw [if_pos hn, if_pos hn]
      · rw [if_neg hn, if_neg hn]
        rfl

lemma IsSource.unique {read : String → Except FileError (List UInt8)} {text text' : List Char}
    (h : s.IsSource read text) (h' : s.IsSource read text') : text = text' := by
  rw [IsSource] at h h'
  cases hpath : s.path? with
  | some path =>
      rw [hpath] at h h'
      exact Except.ok.inj ((readSource_of_text h).symm.trans (readSource_of_text h'))
  | none =>
      rw [hpath] at h h'
      exact Option.some.inj (h.symm.trans h')

/-- A source that can be read is no unreadable file. -/
lemma IsSource.not_unreadable {read : String → Except FileError (List UInt8)} {text : List Char}
    (h : s.IsSource read text) : ¬s.Unreadable read := by
  rintro ⟨path, hpath, hnone⟩
  rw [IsSource, hpath] at h
  exact hnone ⟨text, h⟩

lemma faulty_iff {read : String → Except FileError (List UInt8)} {n : Int} {text : List Char}
    (hlimit : s.maxDepth = some n) (hsource : s.IsSource read text) :
    s.Faulty read ↔ FaultyText (.ofInt n) text := by
  constructor
  · rintro ⟨n', text', hlimit', hsource', hfaulty⟩
    obtain rfl := Option.some.inj (hlimit.symm.trans hlimit')
    rwa [hsource.unique hsource']
  · exact fun h => ⟨n, text, hlimit, hsource, h⟩

/-- The exit code for a source is the one of its text. -/
lemma EndsWith.of_source {read : String → Except FileError (List UInt8)} {n : Int}
    {text : List Char} {code : ExitCode} (husage : ¬s.Misused) (hlimit : s.maxDepth = some n)
    (hsource : s.IsSource read text)
    (hcode : code = .dataError ∧ FaultyText (.ofInt n) text ∨
      code = .ok ∧ ¬FaultyText (.ofInt n) text) : s.EndsWith read code := by
  rw [← faulty_iff hlimit hsource] at hcode
  rcases hcode with ⟨rfl, hfaulty⟩ | ⟨rfl, hfaulty⟩
  · exact .dataError husage hsource.not_unreadable hfaulty
  · exact .ok husage hsource.not_unreadable hfaulty

end Settings

section Command

variable {args : List String} {s : Settings} (hargs : readArguments args = .ok s)
  (read : String → Except FileError (List UInt8)) (input : List Char)

include hargs

lemma plan_of_readArguments : plan args = s.plan := by rw [plan, hargs]

lemma runCommand_of_misused (h : s.Misused) :
    ∃ o, runCommand args read input = .ok o ∧ o.code = .usage := by
  rw [runCommand, plan_of_readArguments hargs]
  by_cases hconflict : s.Conflicting
  · rw [Settings.plan_of_conflicting hconflict]
    exact ⟨_, rfl, rfl⟩
  · obtain ⟨n, hlimit, hn⟩ := h.resolve_left hconflict
    rw [Settings.plan_of_not_conflicting hconflict, hlimit]
    dsimp only
    rw [if_pos hn]
    exact ⟨_, rfl, rfl⟩

lemma runCommand_of_noLimit (h : ¬s.Misused) (hlimit : s.maxDepth = none) :
    runCommand args read input = .error (.limit (.notNumber "list")) := by
  rw [runCommand, plan_of_readArguments hargs,
    Settings.plan_of_not_conflicting fun hconflict => h (Or.inl hconflict), hlimit]

/-- A run with a depth limit reads a file, or an expression, or lines at the prompt. -/
lemma runCommand_of_limit (h : ¬s.Misused) {n : Int} (hlimit : s.maxDepth = some n) :
    runCommand args read input =
      match s.path?, s.expression with
      | some path, _ => runFile (s.mode n) path (readSource read path)
      | none, some source => runText (s.mode n) none source.toList
      | none, none => runPrompt (s.mode n) input := by
  have hn : ¬n < 1 := fun hn => h (Or.inr ⟨n, hlimit, hn⟩)
  rw [runCommand, plan_of_readArguments hargs,
    Settings.plan_of_not_conflicting fun hconflict => h (Or.inl hconflict), hlimit]
  dsimp only
  rw [if_neg hn]
  cases s.path? <;> cases s.expression <;> rfl

/-- A problem that the command does not handle is what comes of the run. -/
lemma runCommand_of_escapes {e : Escape} (h : s.Escapes read e) :
    runCommand args read input = .error e := by
  cases h with
  | noLimit husage hlimit => exact runCommand_of_noLimit hargs read input husage hlimit
  | nullCharacter husage hlimit hpath hnull =>
      rw [runCommand_of_limit hargs read input husage hlimit, hpath]
      dsimp only
      rw [readSource, if_pos hnull]
      rfl
  | undecodable husage hlimit hpath hnull hread hbytes =>
      rw [runCommand_of_limit hargs read input husage hlimit, hpath]
      dsimp only
      rw [readSource, if_neg (by simp [hnull]), hread]
      dsimp only
      rw [decodeSource, hbytes]
      rfl

/-- Any other run has an outcome, with the exit code for what the settings come to. -/
lemma runCommand_cases :
    (∃ e, s.Escapes read e) ∨
      ∃ o, runCommand args read input = .ok o ∧ s.EndsWith read o.code := by
  by_cases husage : s.Misused
  · obtain ⟨o, hrun, hcode⟩ := runCommand_of_misused hargs read input husage
    exact Or.inr ⟨o, hrun, hcode ▸ .usage husage⟩
  cases hlimit : s.maxDepth with
  | none => exact Or.inl ⟨_, .noLimit husage hlimit⟩
  | some n =>
      have hdigits : ∃ digits, (s.mode n).limit.text? = some digits :=
        readArguments_writable hargs n hlimit
      rw [runCommand_of_limit hargs read input husage hlimit]
      cases hpath : s.path? with
      | some path =>
          dsimp only
          by_cases hfile : ∃ text, HoldsText read path text
          · obtain ⟨text, htext⟩ := hfile
            have hsource : s.IsSource read text := by rwa [Settings.IsSource, hpath]
            obtain ⟨o, hrun, hcode⟩ := runFile_code hdigits htext
            exact Or.inr ⟨o, hrun, .of_source husage hlimit hsource hcode⟩
          · rcases readSource_cases hfile with ⟨e, he⟩ | hnull | ⟨hnull, _, _, hread, hbytes⟩
            · rw [he]
              exact Or.inr ⟨_, rfl, .noInput husage ⟨path, hpath, hfile⟩⟩
            · exact Or.inl ⟨_, .nullCharacter husage hlimit hpath hnull⟩
            · exact Or.inl ⟨_, .undecodable husage hlimit hpath hnull hread hbytes⟩
      | none =>
          cases hexpression : s.expression with
          | some source =>
              have hsource : s.IsSource read source.toList := by
                rw [Settings.IsSource, hpath, hexpression]
                rfl
              obtain ⟨o, hrun, hcode⟩ := runText_code hdigits none source.toList
              exact Or.inr ⟨o, hrun, .of_source husage hlimit hsource hcode⟩
          | none =>
              have hfile : ¬s.Unreadable read := by
                rintro ⟨path, hpath', -⟩
                exact nomatch hpath.symm.trans hpath'
              have htext : ¬s.Faulty read := by
                rintro ⟨n, text, -, htext, -⟩
                rw [Settings.IsSource, hpath, hexpression] at htext
                cases htext
              obtain ⟨o, hrun, hcode⟩ := runLines_code hdigits (Text.lines input)
              exact Or.inr ⟨o, hrun, hcode ▸ .ok husage hfile htext⟩

/-- **Exit codes** of the command, for arguments that can be read. A run with an outcome tells by
its exit code whether the settings are misused, or else a file is unreadable, or else the text is
faulty; at the prompt there is no text. There is no outcome exactly if a problem comes up that the
command does not handle, and then this problem is what comes of the run. -/
theorem runCommand_classified :
    (∀ e, runCommand args read input = .error e ↔ s.Escapes read e) ∧
      ∀ o, runCommand args read input = .ok o →
        (o.code.toNat = 64 ↔ s.Misused) ∧
          (o.code.toNat = 66 ↔ ¬s.Misused ∧ s.Unreadable read) ∧
          (o.code.toNat = 65 ↔ ¬s.Misused ∧ ¬s.Unreadable read ∧ s.Faulty read) ∧
          (o.code.toNat = 0 ↔ ¬s.Misused ∧ ¬s.Unreadable read ∧ ¬s.Faulty read) := by
  rcases runCommand_cases hargs read input with ⟨e, he⟩ | ⟨o, hrun, hcode⟩
  · have hrun := runCommand_of_escapes hargs read input he
    refine ⟨fun e' => ⟨fun he' => ?_, runCommand_of_escapes hargs read input⟩, fun o ho => ?_⟩
    · obtain rfl := Except.error.inj (hrun.symm.trans he')
      exact he
    · cases hrun.symm.trans ho
  · refine ⟨fun e => ⟨fun he => ?_, runCommand_of_escapes hargs read input⟩, fun o' ho => ?_⟩
    · cases hrun.symm.trans he
    · obtain rfl := Except.ok.inj (hrun.symm.trans ho)
      generalize o.code = code at hcode
      cases hcode <;> simp [ExitCode.toNat, *]

end Command

/-- A digit and a byte that no character starts with are no text, and the command does not handle
this. -/
theorem runCommand_classified_undecodable :
    let read : String → Except FileError (List UInt8) := fun _ => .ok [0x31, 0xFF]
    readArguments ["-f", "u.lx"] = .ok { file := some "u.lx" } ∧
      runCommand ["-f", "u.lx"] read [] = .error (.undecodable ⟨0xFF, 1, 1, .invalidStart⟩) := by
  intro read
  have hargs : readArguments ["-f", "u.lx"] = .ok { file := some "u.lx" } := by decide +kernel
  refine ⟨hargs, ((runCommand_classified hargs read []).1 _).mpr ?_⟩
  have husage : ¬Settings.Misused { file := some "u.lx" } := by
    rintro (⟨hexpression, -⟩ | ⟨n, hlimit, hn⟩)
    · cases hexpression
    · cases hlimit
      exact absurd hn (by decide)
  exact .undecodable husage rfl rfl (by simp) rfl rfl

end ExprFront
