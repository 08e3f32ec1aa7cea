import ExprFront.Proofs.Grammar.Containment
import ExprFront.Proofs.Grammar.LimitStability
import ExprFront.Proofs.Grammar.PathScan

/-!
Room on the stack.

`Descent.overflows` collects the positions at which the fragments of a parse find the stack full. It
is empty where the stack has room for each fragment (`overflows_eq_nil`), and where it is empty, the
size of the stack makes no difference (`parse_eq_of_overflows`). `stack_room` adds what a full stack
does to a parse: one fault more, and parsing goes on as after any other fault at that token.
-/

namespace ExprFront

/-! ### Full stacks along a parse -/

/-- The position at which a fragment finds the stack full, if it does. -/
def Descent.overflow? (d : Descent) (c : Cursor) : Option ℕ :=
  match d.fragment c with
  | (.error .stackFull, c') => some c'.position
  | _ => none

/-- The positions at which the fragments of a parse find the stack full, in order. -/
def Descent.overflows (d : Descent) : (steps : ℕ) → Cursor → List ℕ
  | 0, _ => []
  | steps + 1, c =>
    let here := (d.overflow? c).toList
    match (d.turn none >>= fun _ => d.atEnd) c with
    | (.ok false, c) => here ++ overflows d steps c
    | _ => here

/-- The position at which the result of a fragment finds the stack full, if it does. -/
def TokenStream.fullAt? (s : TokenStream) : Parsed → Option ℕ
  | .error ⟨.stackFull, rest⟩ => some (s.position rest)
  | _ => none

section Parses

variable {limits : Limits} {s : TokenStream} {ts : List Token} {before : List Fault}

lemma TokenStream.fullAt?_eq_none_iff {r : Parsed} :
    s.fullAt? r = none ↔ ∀ f, r = .error f → f.obstacle ≠ .stackFull := by
  cases r with
  | ok p => simp [fullAt?]
  | error f =>
      obtain ⟨o, rest⟩ := f
      cases o <;> simp [fullAt?]

lemma overflow?_cursor (hts : ts <:+ s.body) :
    (s.descent limits).overflow? (s.cursor ts 0 before) = s.fullAt? (fragment limits ts) := by
  rw [Descent.overflow?, fragment_outcome hts]
  cases fragment limits ts with
  | ok p => rfl
  | error f =>
      obtain ⟨o, rest⟩ := f
      cases o <;> rfl

/-- A parse finds the stack full where the fragments of a run do. -/
lemma overflows_eq {rs : List Parsed} (h : FragmentRun limits ts rs) (hts : ts <:+ s.body)
    {steps : ℕ} (hsteps : ts.length < steps) :
    (s.descent limits).overflows steps (s.cursor ts 0 before) =
      rs.flatMap fun r => (s.fullAt? r).toList := by
  obtain ⟨steps, rfl⟩ := Nat.exists_eq_succ_of_ne_zero (Nat.ne_zero_of_lt hsteps)
  induction h generalizing steps before with
  | @read ts p h =>
      obtain ⟨e, rest⟩ := p
      obtain ⟨rfl, -⟩ := fragment_eq_ok h
      rw [Descent.overflows, overflow?_cursor hts, h, Method.bind_of_ok (turn_of_ok hts h),
        Descent.atEnd_cursor List.nil_suffix]
      rfl
  | @broken ts f ending h hc =>
      rw [Descent.overflows, overflow?_cursor hts, h,
        Method.bind_of_error (turn_of_ending hts h hc)]
      exact (List.append_nil _).symm
  | @last ts f c h hc hn =>
      rw [Descent.overflows, overflow?_cursor hts, h,
        Method.bind_of_ok (turn_of_error hts h hc), hn, Descent.atEnd_cursor List.nil_suffix]
      exact (List.append_nil _).symm
  | @next ts f c rs h hc hn hr ih =>
      have hnext : Recovery.afterSemicolon f.rest <:+ s.body :=
        (Recovery.afterSemicolon_suffix f.rest).trans (suffix_of_fragment_eq_error h hts)
      have hlt := length_next_fragment_lt h hn
      obtain ⟨steps, rfl⟩ := Nat.exists_eq_succ_of_ne_zero (show steps ≠ 0 by omega)
      rw [Descent.overflows, overflow?_cursor hts, h, Method.bind_of_ok (turn_of_error hts h hc),
        Descent.atEnd_cursor hnext, List.isEmpty_eq_false_iff.mpr hn, List.flatMap_cons]
      exact congrArg _ (ih hnext steps (by omega))

/-- A parse never finds the stack full if no fragment of a run does. -/
lemma overflows_eq_nil_iff {rs : List Parsed} (h : FragmentRun limits s.body rs) :
    (s.descent limits).overflows (s.toList.length + 1) {} = [] ↔
      ∀ f : Failure, .error f ∈ rs → f.obstacle ≠ .stackFull := by
  have hfront : s.cursor s.body 0 [] = {} := by rw [TokenStream.cursor, TokenStream.position_body]
  have hsteps : s.body.length < s.toList.length + 1 := by
    rw [TokenStream.toList, List.length_append]
    omega
  rw [← hfront, overflows_eq h List.suffix_rfl hsteps, List.flatMap_eq_nil_iff]
  constructor
  · exact fun hall f hf =>
      TokenStream.fullAt?_eq_none_iff.mp (Option.toList_eq_nil_iff.mp (hall _ hf)) f rfl
  · exact fun hall r hr =>
      Option.toList_eq_nil_iff.mpr (TokenStream.fullAt?_eq_none_iff.mpr fun f hf =>
        hall f (hf ▸ hr))

/-- A parse finds the stack full somewhere exactly if some fragment does. -/
lemma overflows_ne_nil_iff :
    (s.descent limits).overflows (s.toList.length + 1) {} ≠ [] ↔ Overflows limits s.body := by
  obtain ⟨rs, hr⟩ := exists_fragmentRun limits s.body
  rw [hr.overflows_iff, Ne, overflows_eq_nil_iff hr]
  simp only [not_forall, not_not, exists_prop]

/-- Where the stack has room for each fragment, a parse never finds it full. -/
lemma overflows_eq_nil (h : ∀ us, us <:+ s.body → StackHolds limits us) :
    (s.descent limits).overflows (s.toList.length + 1) {} = [] := by
  obtain ⟨rs, hr⟩ := exists_fragmentRun limits s.body
  refine (overflows_eq_nil_iff hr).mpr fun f hf hfull => ?_
  obtain ⟨us, hus, hus'⟩ := hr.exists_of_mem _ hf
  obtain ⟨o, rest⟩ := f
  obtain rfl : o = .stackFull := hfull
  exact h us hus rest hus'

/-- Two stacks that a parse never finds full make no difference to it. -/
lemma parse_eq_of_overflows {depth : DepthLimit} {stack stack' : ℕ}
    (h : (s.descent ⟨depth, stack⟩).overflows (s.toList.length + 1) {} = [])
    (h' : (s.descent ⟨depth, stack'⟩).overflows (s.toList.length + 1) {} = []) :
    (s.descent ⟨depth, stack'⟩).parse = (s.descent ⟨depth, stack⟩).parse := by
  have hlarger {m n : ℕ} (hle : m ≤ n)
      (hm : (s.descent ⟨depth, m⟩).overflows (s.toList.length + 1) {} = []) :
      (s.descent ⟨depth, n⟩).parse = (s.descent ⟨depth, m⟩).parse := by
    obtain ⟨rs, hr⟩ := exists_fragmentRun ⟨depth, m⟩ s.body
    refine funext (hr.parse_stable (agreeOn_of_le depth hle) fun f hf => ?_).2
    have hroom := (overflows_eq_nil_iff hr).mp hm f hf
    exact ⟨hroom, Obstacle.cause_eq hroom _ _⟩
  rcases le_total stack stack' with hle | hle
  · exact hlarger hle h
  · exact (hlarger hle h').symm

/-- With all levels closed, a cursor in the body stands before the rest from its position on. -/
lemma cursor_drop {c : Cursor} (hlevels : c.levels = 0) (hc : c.position ≤ s.body.length) :
    s.cursor (s.body.drop c.position) 0 c.faults = c := by
  have h := TokenStream.cursor_drop hc
  rwa [hlevels] at h

lemma fragment_drop (limits : Limits) {c : Cursor} (hlevels : c.levels = 0)
    (hc : c.position ≤ s.body.length) :
    (s.descent limits).fragment c =
      s.outcome 0 c.faults (fragment limits (s.body.drop c.position)) := by
  have houtcome : (s.descent limits).fragment (s.cursor (s.body.drop c.position) 0 c.faults) = _ :=
    fragment_outcome (List.drop_suffix c.position s.body)
  rwa [cursor_drop hlevels hc] at houtcome

/-- A result that comes to a full stack is one. -/
lemma eq_stackFull_of_outcome {r : Parsed} {c : Cursor}
    (h : s.outcome 0 before r = (.error .stackFull, c)) :
    ∃ rest, r = .error ⟨.stackFull, rest⟩ ∧ c = s.cursor rest 0 before := by
  cases r with
  | ok p => cases h
  | error f =>
      obtain ⟨o, rest⟩ := f
      obtain ⟨hbreak, hc⟩ := Prod.mk.inj h
      cases o with
      | stackFull => exact ⟨rest, rfl, hc.symm⟩
      | fault cause => cases hbreak
      | payload kindName => cases hbreak

/-- Tokens that fill the stack stop a fragment at the position after them. -/
lemma fragment_overflows {c : Cursor} {us : List Token} (hlevels : c.levels = 0)
    (hc : c.position ≤ s.body.length) (hadm : ∀ t ∈ s.body.drop c.position, t.Admissible)
    (hus : us <+: s.body.drop c.position) (hfilled : limits.FilledBy us) :
    (s.descent limits).fragment c =
      (.error .stackFull, { c with position := c.position + us.length }) := by
  obtain ⟨rest, hrest⟩ := hus
  have husadm : ∀ u ∈ us, u.Admissible :=
    fun u hu => hadm u (hrest ▸ List.mem_append_left rest hu)
  have hsplit : s.body = s.body.take c.position ++ us ++ rest := by
    rw [List.append_assoc, hrest, List.take_append_drop]
  have hposition : s.position rest = c.position + us.length := by
    rw [TokenStream.position_eq hsplit, List.length_append, List.length_take_of_le hc]
  rw [fragment_drop limits hlevels hc, ← hrest, fragment_of_filledBy husadm hfilled rest,
    ← hposition, ← hlevels]
  rfl

/-- After any fault parsing goes on at the next place at which it may. -/
lemma turn_position_of_fault {d : Descent} {c c' : Cursor} {g : Fault} {k : ℕ}
    (h : d.fragment c = (.error (.fault g), c'))
    (hk : Recovery.resume? d.tokens c'.position = some (k : ℤ)) :
    (d.turn none c).2.position = k := by
  have hgive : d.giveUp g c' = (.ok (), ⟨k, c'.levels, c'.faults ++ [g]⟩) := by
    rw [Descent.giveUp]
    refine (Method.bind_of_ok rfl).trans ?_
    rw [Descent.recover]
    simp only [hk, Int.toNat_natCast]
  have hturn : (do d.giveUp g; return none : Parsing (Option Value)) c' =
      (.ok none, ⟨k, c'.levels, c'.faults ++ [g]⟩) := Method.bind_of_ok hgive
  rw [Descent.turn, h]
  exact congrArg (fun r : Except Break (Option Value) × Cursor => r.2.position) hturn

end Parses

/-- **Room on the stack**: up to a depth limit of 64 a parser never finds the stack full; neither
does one whose stack has the frames of a parenthesis for each token. Wherever two parsers never find
their stacks full, the two do the same, whatever the sizes are. A parser of admissible tokens gives
a result, unless it finds the stack full somewhere and its limit cannot be written.

A fragment finds the stack full exactly after the tokens that fill it. It leaves one fault more with
the limit in its message, at the token which is next, with all levels closed, and parsing goes on
where it does after any other fault at that token. But if the limit cannot be written, the parse is
broken off there, with all levels closed and without the fault. -/
theorem stack_room (d : ℤ) {ts : List Token} (heof : ∃ t ∈ ts, t.isEof = true)
    (hadm : ∀ t ∈ TokenStream.bodyOf ts, t.Admissible) :
    let parser (stack : ℕ) : Descent := ⟨ts, ⟨.ofInt d, stack⟩⟩
    let overflows (stack : ℕ) : List ℕ := (parser stack).overflows (ts.length + 1) {}
    (d ≤ 64 → overflows stackFrames = []) ∧
      (∀ stack, Nesting.parenthesisFrames * ts.length < stack → overflows stack = []) ∧
      (∀ stack stack', overflows stack = [] → overflows stack' = [] →
        (parser stack').parse = (parser stack).parse) ∧
      (∀ stack c, (∃ r, ((parser stack).parse c).1 = .ok r) ∨
        ((parser stack).parse c).1 = .error .unwritten) ∧
      (∀ stack c, ((parser stack).parse c).1 = .error .unwritten ↔
        Integer.text? d = none ∧ overflows stack ≠ []) ∧
      ∀ stack c, c.levels = 0 → c.position ≤ (TokenStream.bodyOf ts).length →
        (∀ us, us <+: (TokenStream.bodyOf ts).drop c.position → (parser stack).limits.FilledBy us →
          (parser stack).fragment c =
            (.error .stackFull, { c with position := c.position + us.length })) ∧
        ∀ c', (parser stack).fragment c = (.error .stackFull, c') →
          (parser stack).limits.FilledBy ((ts.take c'.position).drop c.position) ∧
          (Integer.text? d = none → (parser stack).turn none c =
            (.error .unwritten, ⟨c'.position, 0, c.faults⟩)) ∧
          (Integer.text? d ≠ none → ∃ t g, ∃ k : ℕ, ts[c'.position]? = some t ∧
            g.token = t ∧ g.toError.kind = .recursionLimit ∧
            g.toError.message =
              "Expression nesting exceeds maximum depth of " ++ toString d ++ "." ∧
            (parser stack).turn none c = (.ok none, ⟨k, 0, c.faults ++ [g]⟩) ∧
            Recovery.resume? ts c'.position = some (k : ℤ) ∧
            ∀ limits c₁ c₂ g', Descent.fragment ⟨ts, limits⟩ c₁ = (.error (.fault g'), c₂) →
              c₂.position = c'.position →
              (Descent.turn ⟨ts, limits⟩ none c₁).2.position = k) := by
  obtain ⟨s, hs, hb⟩ := TokenStream.exists_ofList?_eq heof
  obtain rfl := TokenStream.toList_ofList? hs
  rw [← hb] at hadm ⊢
  intro parser overflows
  refine ⟨fun hd => ?_, fun stack hstack => ?_, fun stack stack' h h' => ?_, fun stack c => ?_,
    fun stack c => ?_, ?_⟩
  · exact overflows_eq_nil fun us _ => stackHolds_of_le (hd.trans (by decide)) us
  · refine overflows_eq_nil fun us hus =>
      stackHolds_of_length (fun u hu => hadm u (hus.subset hu)) (lt_of_le_of_lt ?_ hstack)
    refine Nat.mul_le_mul_left _ (hus.length_le.trans ?_)
    rw [TokenStream.toList, List.length_append]
    exact Nat.le_add_right _ _
  · exact parse_eq_of_overflows h h'
  · rcases returns_of_admissible hadm c with ⟨r, c', hparse, -⟩ | herror
    · exact Or.inl ⟨r, congrArg Prod.fst hparse⟩
    · exact Or.inr herror
  · exact (parse_eq_unwritten_iff s _ c).trans (and_congr_right fun _ => overflows_ne_nil_iff.symm)
  · intro stack c hlevels hc
    have hdrop := List.drop_suffix c.position s.body
    have hrestadm : ∀ t ∈ s.body.drop c.position, t.Admissible :=
      fun t ht => hadm t (hdrop.subset ht)
    refine ⟨fun us hus hfilled => ?_, fun c' h => ?_⟩
    · exact fragment_overflows hlevels hc hrestadm hus hfilled
    · have hfragment : (parser stack).fragment c = _ := fragment_drop _ hlevels hc
      obtain ⟨rest, hf, rfl⟩ := eq_stackFull_of_outcome (hfragment.symm.trans h)
      have hrest := suffix_of_fragment_eq_error hf hdrop
      obtain ⟨us, hus, hfilled⟩ := filledBy_of_fragment hrestadm hf
      have hbetween := TokenStream.between_eq (hus ▸ hdrop)
      rw [← hus, TokenStream.position_drop hc] at hbetween
      refine ⟨hbetween.symm ▸ hfilled, fun htext => ?_, fun htext => ?_⟩
      · have hturn : (parser stack).turn none (s.cursor (s.body.drop c.position) 0 c.faults) = _ :=
          turn_of_ending hdrop hf (Obstacle.cause_eq_unwritten_iff.mpr ⟨rfl, htext⟩)
        rwa [cursor_drop hlevels hc] at hturn
      · have hresume := TokenStream.resume?_position hrest
        have hturn : (parser stack).turn none (s.cursor (s.body.drop c.position) 0 c.faults) = _ :=
          turn_of_error hdrop hf (Obstacle.cause_stackFull htext)
        rw [cursor_drop hlevels hc] at hturn
        refine ⟨s.next rest, ⟨.tooDeep (.int d), s.next rest⟩, _,
          TokenStream.getElem?_position hrest, rfl, rfl, Cause.message_tooDeep htext, hturn,
          hresume, fun limits c₁ c₂ g' hfault hposition => ?_⟩
        exact turn_position_of_fault hfault (hposition ▸ hresume)

/-- The case of a parenthesis on a stack with the frames of one: the literal in it has no room, but
on the stack that a parser has. -/
theorem stack_room_parenthesis :
    let ts : List Token :=
      [⟨.leftParen, "(", .nil, 1⟩, Pushdown.operandToken, ⟨.eof, "", .nil, 1⟩]
    let parser (stack : ℕ) : Descent := ⟨ts, ⟨.ofInt 64, stack⟩⟩
    (parser stackFrames).overflows 4 {} = [] ∧
      (parser 12).fragment {} = (.error .stackFull, ⟨1, 0, []⟩) ∧
      ∃ g, ∃ k : ℕ, g.token = Pushdown.operandToken ∧
        (parser 12).turn none {} = (.ok none, ⟨k, 0, [g]⟩) := by
  intro ts parser
  have hend : ∃ t ∈ ts, t.isEof = true := ⟨⟨.eof, "", .nil, 1⟩, by simp [ts], rfl⟩
  have hadm : ∀ t ∈ TokenStream.bodyOf ts, t.Admissible := by
    simp [ts, TokenStream.bodyOf, TokenOf.isEof, TokenOf.Admissible, Pushdown.operandToken]
  have hfilled : (parser 12).limits.FilledBy (ts.take 1) := by
    refine ⟨⟨_, rfl, rfl, le_rfl⟩, fun vs q hvs hne hq => ?_⟩
    obtain rfl : vs = [] := by
      have hle := hvs.length_le
      have hlt : vs.length ≠ 1 := fun heq => hne (hvs.eq_of_length heq)
      exact List.length_eq_zero_iff.mp (by simp [ts] at hle; omega)
    obtain rfl : PathScan.start = q := Option.some.inj hq
    exact ⟨rfl, by decide⟩
  have htext : Integer.text? 64 ≠ none :=
    mt Integer.text?_eq_none_iff.mp (not_le.mpr (Integer.lt_textBound (by decide : 64 < 10 ^ 2)
      (by decide)))
  obtain ⟨hlow, -, -, -, -, hfull⟩ := stack_room 64 hend hadm
  obtain ⟨hstop, hfault⟩ := hfull 12 {} rfl (Nat.zero_le _)
  have hfragment := hstop (ts.take 1) ⟨[Pushdown.operandToken], rfl⟩ hfilled
  obtain ⟨-, -, hwritten⟩ := hfault _ hfragment
  obtain ⟨t, g, k, ht, hg, -, -, hturn, -⟩ := hwritten htext
  refine ⟨hlow le_rfl, hfragment, g, k, ?_, hturn⟩
  rw [hg]
  exact (Option.some.inj ht).symm

end ExprFront
