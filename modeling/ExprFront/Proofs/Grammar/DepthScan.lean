import ExprFront.Grammar.Session
import ExprFront.Proofs.Grammar.Acceptance

/-!
A fragment as a scan that counts nothing but depth.

`DepthScan.scan` goes over tokens from left to right. It knows no precedence and no frames: a binary
operator leads back to an operand at the depth of the expression around it, whatever its level is,
and the depths around the open parentheses are on a stack. It stops at an error in words, or
nowhere.

The scan of places (`Pushdown.scan`) is this one with frames. `Pushdown.scan_agrees` forgets them
token by token: the two stop at the same token for the same reason, unless the stack is full.
`fragment_decided` reads off what a session does with a fragment.
-/

namespace ExprFront

/-! ### The scan -/

/-- Whether a token of a type is an operand by itself. -/
def TokenType.isOperand : TokenType → Bool
  | .number | .string | .true | .false | .nil => Bool.true
  | _ => Bool.false

/-- An error in words, and the position of its token. -/
structure Halt where
  kind : SyntaxErrorKind
  message : String
  position : Nat

namespace Halt

/-- No expression starts at a position. -/
def expression (position : Nat) : Halt := ⟨.unexpectedToken, "Expect expression.", position⟩

/-- A parenthesis is not closed at a position. -/
def closing (position : Nat) : Halt :=
  ⟨.missingTerminator, "Expect ')' after expression.", position⟩

/-- The fragment does not end at a position. -/
def ending (position : Nat) : Halt := ⟨.unexpectedToken, "Expect end of expression.", position⟩

/-- The expression at a position is nested too deeply. -/
def depth (limit : Int) (position : Nat) : Halt :=
  ⟨.recursionLimit, "Expression nesting exceeds maximum depth of " ++ toString limit ++ ".",
    position⟩

end Halt

/-- Where the scan stands between two tokens. -/
inductive DepthScan where
  /-- An operand is due at a depth. The expression around it is at the depth `base`, and those
  around the open parentheses at the depths `outer`. -/
  | operand (depth base : Nat) (outer : List Nat)
  /-- An operand is complete. -/
  | after (base : Nat) (outer : List Nat)
  /-- The expression is complete, with a semicolon. -/
  | closed

namespace DepthScan

/-- The scan of the tokens from a position on, up to the end of the input. -/
def scan (limit : Int) : DepthScan → (position : Nat) → List Token → Option Halt
  | .operand .., i, [] => some (.expression i)
  | .operand depth base outer, i, t :: ts =>
    if t.type.isOperand then (after base outer).scan limit (i + 1) ts
    else if t.type = .leftParen then
      if limit < (depth + 1 : Nat) then some (.depth limit (i + 1))
      else (operand (depth + 1) (depth + 1) (base :: outer)).scan limit (i + 1) ts
    else if t.type = .bang ∨ t.type = .minus then
      if limit < (depth + 1 : Nat) then some (.depth limit (i + 1))
      else (operand (depth + 1) base outer).scan limit (i + 1) ts
    else some (.expression i)
  | .after _ [], _, [] => none
  | .after _ (_ :: _), i, [] => some (.closing i)
  | .after base [], i, t :: ts =>
    if t.type.isBinary then (operand base base []).scan limit (i + 1) ts
    else if t.type = .semicolon then closed.scan limit (i + 1) ts
    else some (.ending i)
  | .after base (around :: outer), i, t :: ts =>
    if t.type.isBinary then (operand base base (around :: outer)).scan limit (i + 1) ts
    else if t.type = .rightParen then (after around outer).scan limit (i + 1) ts
    else some (.closing i)
  | .closed, _, [] => none
  | .closed, i, _ :: _ => some (.ending i)

/-- The state before the first token. -/
def start : DepthScan := .operand 1 1 []

end DepthScan

/-! ### Forgetting frames -/

/-- An admissible token of the type of an operand denotes a scalar. -/
lemma exists_literal?_eq {t : Token} (h : t.Admissible) (ht : t.type.isOperand = true) :
    ∃ v, literal? t = some (.ok v) := by
  cases hty : t.type <;> simp [hty, TokenType.isOperand] at ht
  · obtain ⟨v, hv⟩ := h (Or.inr hty)
    exact ⟨v, literal?_eq_ok_iff.mpr (.text hty hv)⟩
  · obtain ⟨v, hv⟩ := h (Or.inl hty)
    exact ⟨v, literal?_eq_ok_iff.mpr (.number hty hv)⟩
  · exact ⟨_, literal?_eq_ok_iff.mpr (.falsity hty)⟩
  · exact ⟨_, literal?_eq_ok_iff.mpr (.nothing hty)⟩
  · exact ⟨_, literal?_eq_ok_iff.mpr (.truth hty)⟩

lemma literal?_eq_none {t : Token} (ht : t.type.isOperand = false) : literal? t = none := by
  rw [literal?]
  cases hty : t.type <;> simp [hty, TokenType.isOperand] at ht ⊢

/-- A state without the frames of its places. -/
def Pushdown.depths : Pushdown → DepthScan
  | .operand place base outer => .operand place.depth base.depth (outer.map Nesting.depth)
  | .after base outer => .after base.depth (outer.map Nesting.depth)
  | .closed => .closed

/-- Where the scan of depths stops if the token at a position has an effect and others follow. -/
def Effect.halt? (d : Int) (i : Nat) (ts : List Token) : Effect → Option Halt
  | .go s => s.depths.scan d (i + 1) ts
  | .enter place s =>
    if d < (place.depth : Nat) then some (.depth d (i + 1)) else s.depths.scan d (i + 1) ts
  | .refuse (.here (.fault c)) => some ⟨c.kind, c.message, i⟩
  | .refuse _ => none

section Agreement

variable {d : Int} {i : Nat} {t : Token} {ts : List Token}

open Pushdown

/-- A token has the same effect on the depths as on the places. -/
lemma depths_scan_cons (s : Pushdown) (ht : t.Admissible) :
    s.depths.scan d i (t :: ts) = (s.effect t).halt? d i ts := by
  cases s with
  | operand place base outer =>
      rw [depths, DepthScan.scan, effect, operandEffect]
      by_cases ho : t.type.isOperand = true
      · obtain ⟨v, hv⟩ := exists_literal?_eq ht ho
        rw [if_pos ho, hv]
        rfl
      · rw [if_neg ho, literal?_eq_none (by simpa using ho)]
        by_cases hp : t.type = .leftParen
        · rw [if_pos hp, if_pos hp]
          rfl
        · rw [if_neg hp, if_neg hp]
          by_cases hu : t.type = .bang ∨ t.type = .minus
          · rw [if_pos hu, if_pos (TokenType.isUnary_iff.mpr hu)]
            rfl
          · rw [if_neg hu, if_neg (fun h => hu (TokenType.isUnary_iff.mp h))]
            rfl
  | after base outer =>
      rw [depths, effect]
      cases outer with
      | nil =>
          rw [List.map_nil, DepthScan.scan, closingEffect]
          split
          · rfl
          · split <;> rfl
      | cons around outer =>
          rw [List.map_cons, DepthScan.scan, closingEffect]
          split
          · rfl
          · split <;> rfl
  | closed => rfl

/-- A scan of places stops where and why a scan of depths does, unless the stack is full. The tokens
start at a position. -/
def Halt.Agrees (i : Nat) (ts : List Token) (halt : Option Halt) : Except Failure Unit → Prop
  | .ok () => halt = none
  | .error ⟨.fault c, rest⟩ =>
    ∃ us, ts = us ++ rest ∧ halt = some ⟨c.kind, c.message, i + us.length⟩
  | .error ⟨.payload _, _⟩ => False
  | .error ⟨.stackFull, _⟩ => True

/-- Scans that agree after a token agree before it. -/
lemma Halt.Agrees.cons {halt : Option Halt} {r : Except Failure Unit}
    (h : Halt.Agrees (i + 1) ts halt r) : Halt.Agrees i (t :: ts) halt r := by
  match r, h with
  | .ok (), h => exact h
  | .error ⟨.fault c, rest⟩, ⟨us, hts, hhalt⟩ =>
      refine ⟨t :: us, by rw [hts]; rfl, ?_⟩
      rw [hhalt, List.length_cons, show i + 1 + us.length = i + (us.length + 1) by omega]
  | .error ⟨.stackFull, rest⟩, _ => trivial

/-- A limit that keeps to a depth which the stack holds is written in the error for this depth. -/
lemma Halt.depth_eq {n : Nesting} {stack : Nat} (hd : 1 ≤ d) (hn : Shallow stack n)
    (hstack : stack ≤ stackFrames) (hdeep : d < (n.depth + 1 : Nat)) (i : Nat) :
    Halt.depth d i = ⟨(Cause.tooDeep (.int d)).kind, (Cause.tooDeep (.int d)).message, i⟩ := by
  have hbound := hn.depth_lt hstack
  have htext : Integer.text? d ≠ none := mt Integer.text?_eq_none_iff.mp (by omega)
  rw [Halt.depth, Cause.message_tooDeep htext]
  rfl

/-- The scan of places and the scan of depths agree. The stack is no larger than that of the parser,
so that a limit which is exceeded can be written. -/
lemma Pushdown.scan_agrees (limits : Limits) (hl : limits.depth = .ofInt d) (hd : 1 ≤ d)
    (hstack : limits.stack ≤ stackFrames) (hts : ∀ t ∈ ts, t.Admissible) (s : Pushdown)
    (hs : s.Everywhere (Shallow limits.stack)) (i : Nat) :
    Halt.Agrees i ts (s.depths.scan d i ts) (s.scan limits ts) := by
  induction ts generalizing s i with
  | nil =>
      cases s with
      | operand place base outer => exact ⟨[], rfl, rfl⟩
      | after base outer =>
          cases outer with
          | nil => exact rfl
          | cons around outer => exact ⟨[], rfl, rfl⟩
      | closed => exact rfl
  | cons t ts ih =>
      have ht : t.Admissible := hts t List.mem_cons_self
      have hnext (s' : Pushdown) (hstep : s.step limits t = .ok s') :
          Halt.Agrees i (t :: ts) (s'.depths.scan d (i + 1) ts) (s'.scan limits ts) :=
        (ih (fun u hu => hts u (List.mem_cons_of_mem t hu)) s'
          (step_everywhere shallow_inner hs hstep) (i + 1)).cons
      rw [step] at hnext
      rw [depths_scan_cons s ht, scan, step]
      have hfits := effect_fits s t
      cases he : s.effect t with
      | go s' => exact hnext s' (by rw [he]; rfl)
      | enter place s' =>
          rw [he, Effect.under] at hnext
          rw [he] at hfits
          rw [Effect.under, Effect.halt?]
          cases ho : limits.obstacle? place with
          | none =>
              have hle : (place.depth : Int) ≤ d := by
                rw [← DepthLimit.allows_ofInt, ← hl]
                exact (Limits.obstacle?_eq_none.mp ho).1
              rw [if_neg (by omega)]
              exact hnext s' (by rw [ho])
          | some o =>
              rcases Limits.obstacle?_eq_some ho with ⟨rfl, hdeep⟩ | ⟨rfl, -⟩
              · obtain ⟨-, ⟨n, hn, frames, -, rfl⟩, -⟩ := hfits
                have hlt : d < (n.depth + 1 : Nat) := by
                  rw [hl] at hdeep
                  by_contra hle
                  simp [Nesting.inner, DepthLimit.allows_ofInt.mpr (not_lt.mp hle)] at hdeep
                refine (congrArg (Halt.Agrees i (t :: ts) · _) (if_pos hlt)).mpr ?_
                rw [Halt.depth_eq hd (hs n hn) hstack hlt, hl]
                exact ⟨[t], rfl, rfl⟩
              · trivial
      | refuse r =>
          rw [he] at hfits
          cases r with
          | here o =>
              obtain ⟨c, rfl, -⟩ := hfits
              exact ⟨[], rfl, rfl⟩
          | next o =>
              obtain ⟨kindName, -, hk⟩ := hfits
              exact absurd hk (ht.literal?_ne kindName)

end Agreement

/-! ### Fragments of a session -/

/-- **A fragment is decided by a scan of depths**: let a session be at a position of the body of its
stream, under a whole number as depth limit and with room on the stack. Where the scan from there
does not stop, the fragment has an expression and ends at the end of the input. Where it stops, the
fragment has a fault of that kind, with that message, at the token of that position. A call for a
fragment, with the cursor at the position and all levels closed, comes to the same. -/
theorem fragment_decided {d : Int} {ts : List Token} {s : TokenStream} {p : ParseSession}
    (hd : 1 ≤ d) (hs : TokenStream.ofList? ts = some s)
    (hadm : ∀ t ∈ TokenStream.bodyOf ts, t.Admissible) (hstream : p.stream = s)
    (hlimits : p.limits = .withDepth (.ofInt d))
    (hposition : p.position ≤ (TokenStream.bodyOf ts).length)
    (hstack : d ≤ 64 ∨
      StackHolds (.withDepth (.ofInt d)) ((TokenStream.bodyOf ts).drop p.position)) :
    Descent.call ⟨ts, .withDepth (.ofInt d)⟩ .fragment p.cursor =
        ((p.step .fragment).2.reply (p.step .fragment).1, (p.step .fragment).2.cursor) ∧
      match DepthScan.start.scan d p.position ((TokenStream.bodyOf ts).drop p.position) with
      | none =>
        ∃ e, p.step .fragment =
          (.expression e, { p with position := (TokenStream.bodyOf ts).length })
      | some halt =>
        ∃ f, p.step .fragment = (.fault f, { p with position := halt.position }) ∧
          f.toError.kind = halt.kind ∧ f.toError.message = halt.message ∧
          ts[halt.position]? = some f.token := by
  subst hstream
  rw [← TokenStream.body_eq_bodyOf hs] at hadm hposition hstack ⊢
  have hcall := p.call_follows hposition .fragment
  rw [hlimits, TokenStream.descent, TokenStream.toList_ofList? hs] at hcall
  refine ⟨hcall, ?_⟩
  obtain ⟨us, hus⟩ : ∃ us, us = p.stream.body.take p.position := ⟨_, rfl⟩
  have hbody : p.stream.body = us ++ p.rest := by
    rw [hus]
    exact (List.take_append_drop p.position p.stream.body).symm
  have hlen : us.length = p.position := by
    rw [hus, List.length_take, min_eq_left hposition]
  have hrest : ∀ t ∈ p.rest, t.Admissible := fun t ht => hadm t (List.mem_of_mem_drop ht)
  have hagrees := Pushdown.scan_agrees (.withDepth (.ofInt d)) rfl hd le_rfl hrest Pushdown.start
    (Pushdown.start_shallow (Nat.succ_pos _)) p.position
  have hscan : Pushdown.start.scan (.withDepth (.ofInt d)) p.rest =
      fragment (.withDepth (.ofInt d)) p.rest >>= fun _ => .ok () := by
    rw [← scanFragment_eq, Pushdown.scanFragment, obstacle?_outset hd]
  rw [hscan, show Pushdown.start.depths = DepthScan.start from rfl] at hagrees
  rw [show p.step .fragment = p.run (fragment (.withDepth (.ofInt d))) by
    rw [ParseSession.step, hlimits]]
  change match DepthScan.start.scan d p.position p.rest with | none => _ | some halt => _
  cases hf : fragment (.withDepth (.ofInt d)) p.rest with
  | ok r =>
      obtain ⟨e, rest⟩ := r
      obtain ⟨rfl, -⟩ := fragment_eq_ok hf
      rw [hf] at hagrees
      rw [show DepthScan.start.scan d p.position p.rest = none from hagrees]
      exact ⟨e, ParseSession.run_of_ok hf⟩
  | error f =>
      obtain ⟨o, rest⟩ := f
      rw [hf] at hagrees
      cases o with
      | payload kindName => exact hagrees.elim
      | stackFull =>
          have hroom : StackHolds (.withDepth (.ofInt d)) p.rest :=
            hstack.elim (fun hle => stackHolds_of_le (by omega) _) id
          exact absurd hf (hroom rest)
      | fault c =>
          obtain ⟨vs, hvs, hhalt⟩ := hagrees
          rw [hhalt]
          have hsplit : p.stream.body = us ++ vs ++ rest := by
            rw [hbody, hvs, List.append_assoc]
          have hposition' : p.stream.position rest = p.position + vs.length := by
            rw [TokenStream.position_eq hsplit, List.length_append, hlen]
          refine ⟨⟨c, p.stream.next rest⟩, ?_, rfl, rfl, ?_⟩
          · rw [ParseSession.run_of_fault hf, ParseSession.moveTo, hposition']
          · rw [← TokenStream.toList_ofList? hs, ← hlen, ← List.length_append]
            exact TokenStream.getElem?_toList hsplit

/-- A parenthesis after a negation, under the limit 3: it is not closed at the end of the input,
which the product in it reaches. -/
theorem negated_parenthesis_decided :
    let ts : List Token := [⟨.minus, "-", .nil, 1⟩, ⟨.leftParen, "(", .nil, 1⟩,
      Pushdown.operandToken, ⟨.star, "*", .nil, 1⟩, Pushdown.operandToken, ⟨.eof, "", .nil, 1⟩]
    ∃ s f, TokenStream.ofList? ts = some s ∧
      (⟨s, .withDepth (.ofInt 3), 0, []⟩ : ParseSession).step .fragment =
        (.fault f, ⟨s, .withDepth (.ofInt 3), 5, []⟩) ∧
      f.toError.kind = .missingTerminator ∧
      f.toError.message = "Expect ')' after expression." ∧ ts[5]? = some f.token := by
  intro ts
  have hadm : ∀ t ∈ TokenStream.bodyOf ts, t.Admissible := by
    simp [ts, TokenStream.bodyOf, TokenOf.isEof, TokenOf.Admissible, Pushdown.operandToken]
  have hs : TokenStream.ofList? ts =
      some ⟨ts.take 5, ⟨.eof, "", .nil, 1⟩, [], by decide, rfl⟩ := rfl
  obtain ⟨-, f, hf⟩ := fragment_decided (p := ⟨_, .withDepth (.ofInt 3), 0, []⟩) (by decide) hs hadm
    rfl rfl (Nat.zero_le _) (Or.inl (by decide))
  exact ⟨_, f, hs, hf⟩

end ExprFront
