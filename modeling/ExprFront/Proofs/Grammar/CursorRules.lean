import ExprFront.Proofs.Grammar.CursorMoves

/-!
The rules with a cursor follow the rules on lists.

`TokenStream.outcome` is what a result on a rest of the body comes to for a method: its value, or
what breaks it off, with the cursor before the tokens that are not read. `Follows` says that a
method before a rest of the body comes to the result of a rule on it, with as many levels open
afterwards as before. The combinators keep this (`chain_follows`, `nested_follows`,
`primary_follows`), and `unaryAt_follows` closes the recursion. So no rule breaks off for want of a
token, of a fitting part of a node or of steps: these are no outcomes.
-/

namespace ExprFront

open TokenStream

/-! ### Outcomes -/

/-- What breaks a method off where an obstacle stops a rule before a rest of the body. -/
def TokenStream.breakAt (s : TokenStream) (rest : List Token) : Obstacle → Break
  | .fault cause => .fault ⟨cause, s.next rest⟩
  | .payload _ => .refused (.literalHolds (s.previous (s.position rest)).payload)
  | .stackFull => .stackFull

/-- What a result comes to for a method: the value or the break, and the cursor. -/
def TokenStream.outcome (s : TokenStream) (levels : Int) (faults : List Fault) :
    Parsed → Except Break Value × Cursor
  | .ok (e, rest) => (.ok (.expression e.weaken), s.cursor rest levels faults)
  | .error f => (.error (s.breakAt f.rest f.obstacle), s.cursor f.rest levels faults)

/-- Before each rest of the body with at most so many tokens, a method comes to the result of a
rule. -/
def Follows (s : TokenStream) (k levels : Nat) (m : Parsing Value) (rule : Rule) : Prop :=
  ∀ ts faults, ts <:+ s.body → ts.length ≤ k →
    m (s.cursor ts levels faults) = s.outcome levels faults (rule ts)

/-- A rule leaves a proper suffix of its tokens. -/
def Rule.Reads (rule : Rule) : Prop :=
  ∀ ts e rest, rule ts = .ok (e, rest) → rest <:+ ts ∧ rest.length < ts.length

lemma Rule.SoundAt.reads {limit : DepthLimit} {depth : Nat} {name : RuleName} {rule : Rule}
    (h : rule.SoundAt limit depth name) : rule.Reads := by
  intro ts e rest hr
  obtain ⟨us, rfl, -⟩ := h ts e rest hr
  exact ⟨List.suffix_append us rest, h.consumes _ _ _ hr⟩

lemma Rule.Reads.consumes {rule : Rule} (h : rule.Reads) : rule.Consumes :=
  fun ts e rest hr => (h ts e rest hr).2

section Combinators

variable {s : TokenStream} {limits : Limits} {k levels : Nat} {faults : List Fault}

/-- A method in two steps comes to a result in two steps if its first step comes to the first
result. -/
lemma outcome_bind {m : Parsing Value} {c : Cursor} {r : Parsed} {f : Value → Parsing Value}
    {g : Expr × List Token → Parsed} (hm : m c = s.outcome levels faults r)
    (hf : ∀ e rest, r = .ok (e, rest) →
      f (.expression e.weaken) (s.cursor rest levels faults) =
        s.outcome levels faults (g (e, rest))) :
    (m >>= f) c = s.outcome levels faults (r >>= g) := by
  cases r with
  | error failure => exact Method.bind_of_error hm
  | ok p => exact (Method.bind_of_ok hm).trans (hf p.1 p.2 rfl)

/-! ### Nodes -/

lemma Level.mem_operators_iff {l : Level} {type : TokenType} :
    type ∈ l.operators ↔ l.contains type = true := by
  rw [contains_iff]
  cases l <;> simp [operators]

lemma mem_unaryOperators_iff {type : TokenType} :
    type ∈ unaryOperators ↔ type.isUnary = true := by
  simp [unaryOperators, TokenType.isUnary_iff]

/-- Every operator of a level makes a binary node. -/
lemma build_binaryNode {l : Level} {t : Token} (ht : l.contains t.type = true) (left right : Expr) :
    Parsing.build (Construction.binaryNode (.expression left.weaken) (.token t)
      (.expression right.weaken)) =
        pure (.expression (Tree.binary left t right : Expr).weaken) := by
  have hb : Arity.binary.accepts t.type = true := (isBinary_iff_contains _).mpr ⟨l, ht⟩
  simp only [Construction.binaryNode, Construction.asOperand, Construction.asOperator, if_pos hb]
  rfl

/-- Every unary operator makes a unary node. -/
lemma build_unaryNode {t : Token} (ht : t.type.isUnary = true) (operand : Expr) :
    Parsing.build (Construction.unaryNode (.token t) (.expression operand.weaken)) =
      pure (.expression (Tree.unary t operand : Expr).weaken) := by
  have hu : Arity.unary.accepts t.type = true := ht
  simp only [Construction.unaryNode, Construction.asOperand, Construction.asOperator, if_pos hu]
  rfl

/-! ### Binary levels -/

/-- The loop over the operators of a level, for more steps than there are tokens. -/
lemma extend_follows {l : Level} {operand : Parsing Value} {rule : Rule} (hr : rule.Reads)
    (ho : Follows s k levels operand rule) :
    ∀ (m steps : Nat) (left : Expr) (ts : List Token), ts <:+ s.body → ts.length ≤ m → m ≤ k →
      m < steps →
      (s.descent limits).extend l operand steps (.expression left.weaken)
          (s.cursor ts levels faults) =
        s.outcome levels faults (extendFully l rule left ts) := by
  intro m
  induction m with
  | zero =>
      intro steps left ts hts hm hk hsteps
      obtain rfl : ts = [] := List.length_eq_zero_iff.mp (by omega)
      obtain ⟨steps, rfl⟩ := Nat.exists_eq_succ_of_ne_zero (n := steps) (by omega)
      rw [Descent.extend, Method.bind_of_ok (Descent.accept_nil _)]
      rfl
  | succ m ih =>
      intro steps left ts hts hm hk hsteps
      obtain ⟨steps, rfl⟩ := Nat.exists_eq_succ_of_ne_zero (n := steps) (by omega)
      rw [Descent.extend]
      cases ts with
      | nil =>
          rw [Method.bind_of_ok (Descent.accept_nil _)]
          rfl
      | cons t ts =>
          simp only [List.length_cons] at hm
          have hsuffix : ts <:+ s.body := (List.suffix_cons t ts).trans hts
          rw [extendFully_cons hr.consumes]
          by_cases ht : l.contains t.type = true
          · -- an operator of the level: its operand, the node, and then the rest of the loop
            rw [Method.bind_of_ok (Descent.accept_of_mem hts (Level.mem_operators_iff.mpr ht)),
              if_pos rfl, if_pos ht, Method.bind_of_ok (Descent.previous_cons hts)]
            refine outcome_bind (ho ts faults hsuffix (by omega)) fun right rest hright => ?_
            obtain ⟨hrest, hshort⟩ := hr ts right rest hright
            rw [build_binaryNode ht]
            exact ih steps (.binary left t right) rest (hrest.trans hsuffix) (by omega) (by omega)
              (by omega)
          · rw [Method.bind_of_ok (Descent.accept_of_not_mem hts
              (mt Level.mem_operators_iff.mp ht)), if_neg Bool.false_ne_true, if_neg ht]
            rfl

lemma chain_follows {l : Level} {operand : Parsing Value} {rule : Rule} (hr : rule.Reads)
    (ho : Follows s k levels operand rule) (hk : k ≤ s.body.length) :
    Follows s k levels ((s.descent limits).chain l operand) (chain l rule) := by
  intro ts faults hts hle
  refine outcome_bind (ho ts faults hts hle) fun left rest hleft => ?_
  obtain ⟨hrest, hshort⟩ := hr ts left rest hleft
  have hsteps : k < (s.descent limits).tokens.length + 1 := by
    change k < s.toList.length + 1
    rw [toList, List.length_append]
    omega
  exact extend_follows hr ho k _ left rest (hrest.trans hts) (by omega) le_rfl hsteps

/-- The levels over a rule for unary expressions that is followed. -/
lemma level_follows {limit : DepthLimit} {depth : Nat} {operand : Parsing Value} {unary : Rule}
    (hs : unary.SoundAt limit depth .unary) (ho : Follows s k levels operand unary)
    (hk : k ≤ s.body.length) (l : Level) :
    Follows s k levels ((s.descent limits).level operand l) (l.rule unary) := by
  have hsound := levelRule_sound hs
  have hf : Follows s k levels ((s.descent limits).factor operand) (factorRule unary) :=
    chain_follows hs.reads ho hk
  have ht : Follows s k levels ((s.descent limits).term operand) (termRule unary) :=
    chain_follows (hsound .factor).reads hf hk
  have hc : Follows s k levels ((s.descent limits).comparison operand) (comparisonRule unary) :=
    chain_follows (hsound .term).reads ht hk
  cases l with
  | equality => exact chain_follows (hsound .comparison).reads hc hk
  | comparison => exact hc
  | term => exact ht
  | factor => exact hf

/-! ### Nesting -/

/-- A level is closed on every way out of it. -/
lemma leaving_outcome {m : Parsing Value} {c : Cursor} {r : Parsed}
    (h : m c = s.outcome (levels + 1) faults r) :
    Method.leaving (fun c => { c with levels := c.levels - 1 }) m c =
      s.outcome levels faults r := by
  have hcursor (rest : List Token) :
      (⟨s.position rest, (levels + 1 : Int) - 1, faults⟩ : Cursor) =
        s.cursor rest levels faults := by
    rw [cursor, Int.add_sub_cancel]
  rw [Method.leaving, h]
  cases r with
  | error f => exact congrArg (Prod.mk _) (hcursor f.rest)
  | ok p => exact congrArg (Prod.mk _) (hcursor p.2)

/-- A rule one level deeper is kept from being entered by the depth limit first and by the stack
then, in a method as in a rule. -/
lemma nested_follows {n : Nesting} {frames : Nat} {m : Parsing Value} {rule : Nesting → Rule}
    (h : Follows s k (n.depth + 1) m (rule (n.inner frames))) :
    Follows s k n.depth ((s.descent limits).nested (n.frames + frames) m)
      (nested limits n frames rule) := by
  intro ts faults hts hle
  have hopen : (Method.change fun c => { c with levels := c.levels + 1 } : Parsing Unit)
      (s.cursor ts n.depth faults) = (.ok (), s.cursor ts (n.depth + 1) faults) := rfl
  have hlook : (Method.state : Parsing Cursor) (s.cursor ts (n.depth + 1) faults) =
      (.ok (s.cursor ts (n.depth + 1) faults), s.cursor ts (n.depth + 1) faults) := rfl
  have hexceeded : limits.depth.exceededBy (s.cursor ts (n.depth + 1) faults).levels =
      !limits.depth.allows (n.depth + 1) := limits.depth.exceededBy_eq (n.depth + 1)
  rw [Descent.nested, Method.bind_of_ok hopen]
  refine leaving_outcome ?_
  rw [Method.bind_of_ok hlook, nested, Nesting.deeper]
  change (if limits.depth.exceededBy _ then _ else if limits.stack ≤ _ then _ else _ :
    Parsing Value) _ = _
  rw [hexceeded]
  split
  · rw [Method.bind_of_ok (Descent.peek_cursor hts)]
    rfl
  · split
    · rfl
    · exact h ts faults hts hle

/-! ### Primary expressions -/

lemma primary_outcome_nil (inside : Parsing Value) (rule : Rule) :
    (s.descent limits).primary inside (s.cursor [] levels faults) =
      s.outcome levels faults (primary rule []) := by
  simp only [Descent.primary, Method.bind_of_ok (Descent.accept_nil _),
    Method.bind_of_ok (Descent.peek_cursor List.nil_suffix), if_neg Bool.false_ne_true]
  rfl

/-- A token of a type with a payload is the literal of its payload, if that is a scalar. -/
lemma literal?_of_payload {t : Token} (h : t.type ∈ [.number, .string]) :
    literal? t =
      match t.payload with
      | .scalar v => some (.ok v)
      | v => some (.error v.kindName) := by
  rcases List.mem_pair.mp h with ht | ht
  all_goals cases hv : t.payload <;> simp only [literal?, ht, hv]

/-- A literal from a payload is built, or refused with the cursor after its token. -/
lemma payload_outcome {t : Token} {ts : List Token} (hts : t :: ts <:+ s.body)
    (ht : t.type ∈ [.number, .string]) (rule : Rule) :
    Parsing.build (Construction.literalNode t.payload) (s.cursor ts levels faults) =
      s.outcome levels faults (primary rule (t :: ts)) := by
  have hrefused : s.breakAt ts (.payload t.payload.kindName) =
      .refused (.literalHolds t.payload) := by
    rw [breakAt, previous_of_cons hts]
  rw [primary, literal?_of_payload ht]
  cases hp : t.payload with
  | scalar v => rfl
  | _ =>
      rw [hp] at hrefused
      exact Prod.ext (congrArg Except.error hrefused.symm) rfl

/-- After an expression in parentheses, the closing one is required. -/
lemma group_outcome {inner : Expr} {ts : List Token} (hts : ts <:+ s.body) :
    ((s.descent limits).require .rightParen ")" "expression" >>= fun _ =>
        Parsing.build (Construction.groupingNode (.expression inner.weaken)))
        (s.cursor ts levels faults) =
      s.outcome levels faults (closeGroup inner ts) := by
  have hrequire : (s.descent limits).require .rightParen ")" "expression"
      (s.cursor ts levels faults) = _ := Descent.require_cursor hts _ _ _
  cases ts with
  | nil => exact Method.bind_of_error hrequire
  | cons t ts =>
      rw [closeGroup]
      by_cases ht : t.type = .rightParen
      · rw [if_pos ht]
        rw [if_pos (by simpa using ht)] at hrequire
        exact Method.bind_of_ok hrequire
      · rw [if_neg ht]
        rw [if_neg (by simpa using ht)] at hrequire
        exact Method.bind_of_error hrequire

lemma primary_outcome_cons {inside : Parsing Value} {rule : Rule} (hr : rule.Reads) {t : Token}
    {ts : List Token} (hts : t :: ts <:+ s.body) (h : Follows s ts.length levels inside rule) :
    (s.descent limits).primary inside (s.cursor (t :: ts) levels faults) =
      s.outcome levels faults (primary rule (t :: ts)) := by
  have hsuffix : ts <:+ s.body := (List.suffix_cons t ts).trans hts
  -- over the token, or past the question for a type that it does not have
  have htake {types : List TokenType} (ht : t.type ∈ types) (m m' : Parsing Value) :
      ((s.descent limits).accept types >>= fun b => if b then m else m')
        (s.cursor (t :: ts) levels faults) = m (s.cursor ts levels faults) := by
    rw [Method.bind_of_ok (Descent.accept_of_mem hts ht), if_pos rfl]
  have hpass {types : List TokenType} (ht : t.type ∉ types) (m m' : Parsing Value) :
      ((s.descent limits).accept types >>= fun b => if b then m else m')
        (s.cursor (t :: ts) levels faults) = m' (s.cursor (t :: ts) levels faults) := by
    rw [Method.bind_of_ok (Descent.accept_of_not_mem hts ht), if_neg Bool.false_ne_true]
  rw [Descent.primary]
  by_cases hfalse : t.type = .false
  · have hliteral : literal? t = some (.ok (.truth false)) := by rw [literal?, hfalse]
    rw [htake (by simp [hfalse]), primary, hliteral]
    rfl
  rw [hpass (by simpa using hfalse)]
  by_cases htrue : t.type = .true
  · have hliteral : literal? t = some (.ok (.truth true)) := by rw [literal?, htrue]
    rw [htake (by simp [htrue]), primary, hliteral]
    rfl
  rw [hpass (by simpa using htrue)]
  by_cases hnil : t.type = .nil
  · have hliteral : literal? t = some (.ok .nil) := by rw [literal?, hnil]
    rw [htake (by simp [hnil]), primary, hliteral]
    rfl
  rw [hpass (by simpa using hnil)]
  by_cases hpayload : t.type ∈ [.number, .string]
  · rw [htake hpayload, Method.bind_of_ok (Descent.previous_cons hts)]
    exact payload_outcome hts hpayload rule
  rw [hpass hpayload]
  by_cases hparen : t.type = .leftParen
  · rw [htake (by simp [hparen]), primary, literal?_of_leftParen hparen, if_pos hparen]
    refine outcome_bind (h ts faults hsuffix le_rfl) fun inner rest hinner => ?_
    exact group_outcome ((hr ts inner rest hinner).1.trans hsuffix)
  have hnone : literal? t = none := by
    rw [literal?]
    split <;> simp_all
  rw [hpass (by simpa using hparen), primary, hnone, if_neg hparen,
    Method.bind_of_ok (Descent.peek_cursor hts)]
  rfl

end Combinators

/-! ### The rules -/

section Rules

variable {s : TokenStream}

/-- A unary expression with more steps than there are tokens. -/
lemma unaryAt_follows (s : TokenStream) (limits : Limits) :
    ∀ (steps k : Nat) (n : Nesting), k < steps → k ≤ s.body.length →
      Follows s k n.depth ((s.descent limits).unaryAt steps n.frames) (unary limits n) := by
  intro steps
  induction steps with
  | zero => intro k n hk; omega
  | succ steps ih =>
      intro k n hk hbody ts faults hts hle
      rw [Descent.unaryAt]
      cases ts with
      | nil =>
          rw [Method.bind_of_ok (Descent.accept_nil _), if_neg Bool.false_ne_true, unary_nil]
          exact primary_outcome_nil _ (unary limits n)
      | cons t ts =>
          simp only [List.length_cons] at hle
          have hsuffix : ts <:+ s.body := (List.suffix_cons t ts).trans hts
          have hbelow (m : Nesting) :
              Follows s ts.length m.depth ((s.descent limits).unaryAt steps m.frames)
                (unary limits m) := ih ts.length m (by omega) (by omega)
          rw [unary_cons]
          by_cases ht : t.type.isUnary = true
          · -- the operand of a prefix operator
            have hoperand : Follows s ts.length n.depth _
                (nested limits n Nesting.operatorFrames (unary limits)) :=
              nested_follows (hbelow (n.inner Nesting.operatorFrames))
            rw [Method.bind_of_ok (Descent.accept_of_mem hts (mem_unaryOperators_iff.mpr ht)),
              if_pos rfl, if_pos ht, Method.bind_of_ok (Descent.previous_cons hts)]
            refine outcome_bind (hoperand ts faults hsuffix le_rfl) fun operand rest _ => ?_
            rw [build_unaryNode ht]
            rfl
          · -- the inside of parentheses
            let inner := n.inner Nesting.parenthesisFrames
            have hequality : Follows s ts.length (n.depth + 1)
                ((s.descent limits).equality ((s.descent limits).unaryAt steps inner.frames))
                (equalityRule (unary limits inner)) :=
              level_follows (unary_sound limits inner) (hbelow inner) (by omega) .equality
            rw [Method.bind_of_ok (Descent.accept_of_not_mem hts
              (mt mem_unaryOperators_iff.mp ht)), if_neg Bool.false_ne_true, if_neg ht]
            exact primary_outcome_cons (expressionBelow_sound limits n _).reads hts
              (nested_follows hequality)

/-- A unary expression at a place. -/
lemma unary_follows (s : TokenStream) (limits : Limits) (n : Nesting) :
    Follows s s.body.length n.depth ((s.descent limits).unary n.frames) (unary limits n) := by
  refine unaryAt_follows s limits _ s.body.length n ?_ le_rfl
  change s.body.length < s.toList.length + 1
  rw [toList, List.length_append]
  omega

/-- A whole expression one level below a place. -/
lemma expressionBelow_follows (s : TokenStream) (limits : Limits) (n : Nesting) (frames : Nat) :
    Follows s s.body.length n.depth ((s.descent limits).expression (n.frames + frames))
      (expressionBelow limits n frames) :=
  nested_follows (level_follows (unary_sound limits _) (unary_follows s limits (n.inner frames))
    le_rfl .equality)

/-- A rule with a cursor follows the rule on lists at any depth: with so many levels open and before
any rest of the body, it gives what the rule reads there, or breaks off as the rule is stopped, and
leaves as many levels open as before. -/
lemma rule_followsAt (s : TokenStream) (limits : Limits) (depth : Nat) (name : RuleName) :
    Follows s s.body.length depth ((s.descent limits).rule name)
      (name.ruleAt limits ⟨depth, 0⟩ 0) := by
  have hexpression (frames : Nat) := expressionBelow_follows s limits ⟨depth, 0⟩ frames
  cases name with
  | expression => exact hexpression 0
  | level l =>
      exact level_follows (unary_sound limits ⟨depth, 0⟩) (unary_follows s limits ⟨depth, 0⟩)
        le_rfl l
  | unary => exact unary_follows s limits ⟨depth, 0⟩
  | primary =>
      intro ts faults hts hle
      cases ts with
      | nil =>
          exact primary_outcome_nil _
            (expressionBelow limits ⟨depth, 0⟩ Nesting.parenthesisFrames)
      | cons t ts =>
          refine primary_outcome_cons (expressionBelow_sound limits ⟨depth, 0⟩ _).reads hts ?_
          intro us faults hus hshort
          have hframes := hexpression Nesting.parenthesisFrames
          rw [Nat.zero_add] at hframes
          exact hframes us faults hus hus.length_le

/-- **A rule with a cursor follows the rule on lists**: with all levels closed and before any rest
of the body, it gives what the rule reads there, or breaks off as the rule is stopped, and closes
all levels again. -/
theorem rule_follows (s : TokenStream) (limits : Limits) (name : RuleName) :
    Follows s s.body.length 0 ((s.descent limits).rule name) (name.rule limits) := by
  rw [RuleName.rule_eq_ruleAt]
  exact rule_followsAt s limits 0 name

/-- After the expression of a fragment, one semicolon is passed over and the end is required. -/
lemma closeFragment_outcome {limits : Limits} {levels : Nat} {faults : List Fault} {e : Expr}
    {ts : List Token} (hts : ts <:+ s.body) :
    ((do
      let _ ← (s.descent limits).accept [.semicolon]
      if ← (s.descent limits).atEnd then return .expression e.weaken
      else
        let t ← (s.descent limits).peek
        Method.stop (.fault ⟨.trailingToken, t⟩)) : Parsing Value) (s.cursor ts levels faults) =
      s.outcome levels faults (closeFragment e ts) := by
  -- whether a semicolon is there or not, what follows is the end of the input or a token
  have hend {us : List Token} (hus : us <:+ s.body) (hclose : optionalSemicolon ts = us) :
      ((do
        if ← (s.descent limits).atEnd then return .expression e.weaken
        else
          let t ← (s.descent limits).peek
          Method.stop (.fault ⟨.trailingToken, t⟩)) : Parsing Value) (s.cursor us levels faults) =
        s.outcome levels faults (closeFragment e ts) := by
    rw [Method.bind_of_ok (Descent.atEnd_cursor hus), closeFragment, hclose]
    cases us with
    | nil => rfl
    | cons t us =>
        rw [List.isEmpty_cons, if_neg Bool.false_ne_true,
          Method.bind_of_ok (Descent.peek_cursor hus)]
        rfl
  cases ts with
  | nil => exact (Method.bind_of_ok (Descent.accept_nil _)).trans (hend hts rfl)
  | cons t ts =>
      have hsuffix : ts <:+ s.body := (List.suffix_cons t ts).trans hts
      by_cases ht : t.type = .semicolon
      · exact (Method.bind_of_ok (Descent.accept_of_mem hts (by simp [ht]))).trans
          (hend hsuffix (if_pos ht))
      · exact (Method.bind_of_ok (Descent.accept_of_not_mem hts (by simpa using ht))).trans
          (hend hts (if_neg ht))

/-- A fragment with a cursor follows the fragment on lists. -/
theorem fragment_follows (s : TokenStream) (limits : Limits) :
    Follows s s.body.length 0 (s.descent limits).fragment (fragment limits) := by
  intro ts faults hts hle
  have hexpression := rule_follows s limits .expression
  rw [fragment_eq]
  refine outcome_bind (hexpression ts faults hts hle) fun e rest hrest => ?_
  rw [RuleName.rule_eq_ruleAt] at hrest
  have hsuffix := ((ruleAt_sound limits .outermost 0 .expression).reads ts e rest hrest).1
  exact closeFragment_outcome (hsuffix.trans hts)

end Rules

end ExprFront
