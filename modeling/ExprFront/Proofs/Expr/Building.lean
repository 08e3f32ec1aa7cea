import ExprFront.Proofs.Expr.Written

/-!
What is built.

A construction says what each node is to hold, and the nodes check it: a literal holds a scalar, an
operand is a node and an operator is a token of a type that the node takes. Whether a check passes
can be read off the construction (`Check.passes`), and so can the order in which the checks are
made: those of the arguments come first, from left to right (`Construction.checks`). Building fails
at the first check that does not pass, and otherwise gives the value that was asked for
(`build_ends`): each value is built from one construction only, which names all its parts
(`Value.request`). An operator that is refused is written in the words for this, which may fail
(`Requirement.messageIn_cases`). What is built may still not be printed, for one of three reasons
(`Value.printIn_cases`).
-/

namespace ExprFront

/-! ### Values ask for themselves -/

mutual

/-- The construction of a value. -/
def Value.request : Value → Construction
  | .scalar s => .scalar s
  | .list items => .list (Value.requestItems items)
  | .table entries => .table (Value.requestEntries entries)
  | .token t => TokenOf.request t
  | .expression e => Tree.request e

/-- The constructions of the items of a list. -/
def Value.requestItems : List Value → List Construction
  | [] => []
  | v :: items => v.request :: Value.requestItems items

/-- The constructions of the entries of a table. -/
def Value.requestEntries : List (Scalar × Value) → List (Scalar × Construction)
  | [] => []
  | (key, v) :: entries => (key, v.request) :: Value.requestEntries entries

/-- The construction of a token. -/
def TokenOf.request : TokenOf Value → Construction
  | ⟨type, lexeme, payload, line⟩ => .token type lexeme (Value.request payload) line

/-- The construction of a tree. -/
def Tree.request : Tree Value Unit → Construction
  | .literal value => .literal (.scalar value)
  | .grouping inner => .grouping (Tree.request inner)
  | .unary operator operand => .unary (TokenOf.request operator) (Tree.request operand)
  | .binary left operator right =>
    .binary (Tree.request left) (TokenOf.request operator) (Tree.request right)
  | .bare _ => .bare

end

lemma Value.request_token (t : Token) :
    (Value.token t).request = .token t.type t.lexeme t.payload.request t.line := by
  cases t
  rfl

/-! ### Checks -/

/-- What is asked of an argument of a node. -/
inductive Requirement where
  | scalar
  | operand (place : OperandPlace)
  | operator (arity : Arity)

/-- Whether a construction is one of a value as it is asked for. -/
def Requirement.passes : Requirement → Construction → Bool
  | .scalar, .scalar _ => true
  | .operand _, .literal _ => true
  | .operand _, .grouping _ => true
  | .operand _, .unary .. => true
  | .operand _, .binary .. => true
  | .operand _, .bare => true
  | .operator arity, .token type .. => arity.accepts type
  | _, _ => false

lemma Requirement.passes_operator (arity : Arity) (t : Token) :
    (operator arity).passes t.request = arity.accepts t.type := by
  cases t
  rfl

/-- The error for a value that is not as it is asked for. -/
def Requirement.error : Requirement → Value → BuildError
  | .scalar, v => .literalHolds v
  | .operand place, v => .notExpression place v
  | .operator arity, v => .operatorRefused arity v

/-- How the words end for a value that is not as it is asked for, where there is room for a number
of levels. They only fail at an operator that is not written. -/
lemma Requirement.messageIn_cases (room : Option Nat) (r : Requirement) (v : Value) :
    match (r.error v).messageIn room with
    | .ok _ =>
      (∃ arity, r = .operator arity) →
        (∀ n ∈ v.numbers, n.natAbs < 10 ^ Integer.maxDigits) ∧
          ∀ levels, room = some levels → v.levels ≤ levels
    | .error .tooManyDigits =>
      (∃ arity, r = .operator arity) ∧ ∃ n ∈ v.numbers, 10 ^ Integer.maxDigits ≤ n.natAbs
    | .error .stackFull =>
      (∃ arity, r = .operator arity) ∧ ∃ levels, room = some levels ∧ levels < v.levels := by
  cases r with
  | operator arity =>
      have hfails := v.writtenIn_failsBy room
      rw [error, BuildError.messageIn]
      cases h : v.writtenIn room with
      | ok text =>
          rw [h] at hfails
          exact fun _ => ⟨fun n hn => not_le.mp fun hlong => hfails .tooManyDigits ⟨n, hn, hlong⟩,
            fun levels hroom => not_lt.mp fun hfull => hfails .stackFull ⟨levels, hroom, hfull⟩⟩
      | error reason =>
          rw [h] at hfails
          cases reason with
          | tooManyDigits => exact ⟨⟨arity, rfl⟩, hfails⟩
          | stackFull => exact ⟨⟨arity, rfl⟩, hfails⟩
  | _ =>
      rintro ⟨arity, h⟩
      cases h

/-- What is asked of an argument, and the argument. -/
structure Check where
  requirement : Requirement
  argument : Construction

namespace Check

/-- Whether the argument is as it is asked for. -/
def passes (k : Check) : Bool := k.requirement.passes k.argument

/-- The error when the argument is built and found to be another one than asked for. -/
def error (k : Check) (v : Value) : BuildError := k.requirement.error v

end Check

namespace Construction

mutual

/-- The checks of a construction, in the order in which they are made. -/
def checks : Construction → List Check
  | .scalar _ => []
  | .list items => checksOfItems items
  | .table entries => checksOfEntries entries
  | .token _ _ payload _ => payload.checks
  | .literal value => value.checks ++ [⟨.scalar, value⟩]
  | .grouping inner => inner.checks ++ [⟨.operand .groupingInner, inner⟩]
  | .unary operator operand =>
    operator.checks ++ operand.checks ++
      [⟨.operator .unary, operator⟩, ⟨.operand .unaryOperand, operand⟩]
  | .binary left operator right =>
    left.checks ++ operator.checks ++ right.checks ++
      [⟨.operand .binaryLeft, left⟩, ⟨.operator .binary, operator⟩, ⟨.operand .binaryRight, right⟩]
  | .bare => []

/-- The checks of the items of a list, one item after the other. -/
def checksOfItems : List Construction → List Check
  | [] => []
  | item :: items => item.checks ++ checksOfItems items

/-- The checks of the entries of a table, one entry after the other. -/
def checksOfEntries : List (Scalar × Construction) → List Check
  | [] => []
  | (_, item) :: entries => item.checks ++ checksOfEntries entries

end

/-- The first of some checks that fails. -/
def firstFailing? (checks : List Check) : Option Check := checks.find? fun k => !k.passes

/-- The first check that fails. -/
def failing? (c : Construction) : Option Check := firstFailing? c.checks

/-! ### One check -/

lemma scalar_cases (v : Value) :
    (∃ s, v = .scalar s) ∧ Requirement.scalar.passes v.request = true ∨
      Requirement.scalar.passes v.request = false ∧
        literalNode v = .error (Requirement.scalar.error v) := by
  cases v with
  | scalar s => exact Or.inl ⟨⟨s, rfl⟩, rfl⟩
  | token t => exact Or.inr ⟨by rw [Value.request_token]; rfl, rfl⟩
  | expression e => exact Or.inr ⟨by cases e <;> rfl, rfl⟩
  | _ => exact Or.inr ⟨rfl, rfl⟩

lemma operand_cases (place : OperandPlace) (v : Value) :
    (∃ e, v = .expression e) ∧ (Requirement.operand place).passes v.request = true ∨
      (Requirement.operand place).passes v.request = false ∧
        asOperand place v = .error ((Requirement.operand place).error v) := by
  cases v with
  | token t => exact Or.inr ⟨by rw [Value.request_token]; rfl, rfl⟩
  | expression e => exact Or.inl ⟨⟨e, rfl⟩, by cases e <;> rfl⟩
  | _ => exact Or.inr ⟨rfl, rfl⟩

lemma operator_cases (arity : Arity) (v : Value) :
    (∃ t, v = .token t ∧ arity.accepts t.type = true) ∧
        (Requirement.operator arity).passes v.request = true ∨
      (Requirement.operator arity).passes v.request = false ∧
        asOperator arity v = .error ((Requirement.operator arity).error v) := by
  cases v with
  | token t =>
      have hpasses := Requirement.passes_operator arity t
      cases h : arity.accepts t.type with
      | true => exact Or.inl ⟨⟨t, rfl, h⟩, hpasses.trans h⟩
      | false => exact Or.inr ⟨hpasses.trans h, if_neg (Bool.eq_false_iff.mp h)⟩
  | expression e => exact Or.inr ⟨by cases e <;> rfl, rfl⟩
  | _ => exact Or.inr ⟨rfl, rfl⟩

/-! ### Building -/

/-- How building ends when the given check is the first one that fails, and when none fails: then
it ends with what was asked for. -/
def Ends {α : Type} (Asked : α → Prop) (built : Except BuildError α) : Option Check → Prop
  | some k => ∃ v, v.request = k.argument ∧ k.argument.build = .ok v ∧ built = .error (k.error v)
  | none => ∃ a, Asked a ∧ built = .ok a

namespace Ends

variable {α β : Type} {Asked : α → Prop} {AskedNext : β → Prop} {built : Except BuildError α}
  {before checks : List Check}

/-- The checks of an argument come before those that are made with its value. -/
lemma argument {next : α → Except BuildError β} (ha : Ends Asked built (firstFailing? before))
    (h : ∀ a, Asked a → built = .ok a → Ends AskedNext (next a) (firstFailing? checks)) :
    Ends AskedNext (built >>= next) (firstFailing? (before ++ checks)) := by
  rw [firstFailing?, List.find?_append, ← firstFailing?]
  cases hfailing : firstFailing? before with
  | some k =>
      obtain ⟨v, hv, hk, hbuild⟩ := hfailing ▸ ha
      exact ⟨v, hv, hk, by rw [hbuild]; rfl⟩
  | none =>
      obtain ⟨a, ha, hbuild⟩ := hfailing ▸ ha
      rw [hbuild]
      exact h a ha hbuild

/-- What is made of an argument without a check is what was asked for, if the argument is. -/
lemma made {f : α → β} (ha : Ends Asked built (firstFailing? checks))
    (h : ∀ a, Asked a → AskedNext (f a)) :
    Ends AskedNext (do let a ← built; return f a) (firstFailing? checks) := by
  rw [← List.append_nil checks]
  exact ha.argument fun a hasked _ => ⟨f a, h a hasked, rfl⟩

/-- A check that fails ends the building. -/
lemma failed {k : Check} {v : Value} {next : Except BuildError β} (hv : v.request = k.argument)
    (hbuild : k.argument.build = .ok v) (hk : k.passes = false)
    (hnext : next = .error (k.error v)) : Ends AskedNext next (firstFailing? (k :: checks)) := by
  rw [firstFailing?, List.find?_cons_of_pos (by rw [hk]; rfl)]
  exact ⟨v, hv, hbuild, hnext⟩

/-- A check that passes does not count. -/
lemma passed {k : Check} {next : Except BuildError β} (hk : k.passes = true)
    (h : Ends AskedNext next (firstFailing? checks)) :
    Ends AskedNext next (firstFailing? (k :: checks)) := by
  rwa [firstFailing?, List.find?_cons_of_neg (by rw [hk]; simp), ← firstFailing?]

variable {a : Construction} {v : Value} (hv : v.request = a) (hbuild : a.build = .ok v)

include hv hbuild

lemma operand {place : OperandPlace} {next : OpenExpr → Except BuildError β}
    (h : ∀ e, v = .expression e → Ends AskedNext (next e) (firstFailing? checks)) :
    Ends AskedNext (asOperand place v >>= next)
      (firstFailing? (⟨.operand place, a⟩ :: checks)) := by
  subst hv
  rcases operand_cases place v with ⟨⟨e, rfl⟩, hpasses⟩ | ⟨hfails, hnode⟩
  · exact passed hpasses (h e rfl)
  · exact failed rfl hbuild hfails (by rw [hnode]; rfl)

lemma operator {arity : Arity} {next : Token → Except BuildError β}
    (h : ∀ t, v = .token t → Ends AskedNext (next t) (firstFailing? checks)) :
    Ends AskedNext (asOperator arity v >>= next)
      (firstFailing? (⟨.operator arity, a⟩ :: checks)) := by
  subst hv
  rcases operator_cases arity v with ⟨⟨t, rfl, haccepts⟩, hpasses⟩ | ⟨hfails, hnode⟩
  · rw [asOperator, if_pos haccepts]
    exact passed hpasses (h t rfl)
  · exact failed rfl hbuild hfails (by rw [hnode]; rfl)

end Ends

mutual

/-- Building ends at the first check that fails, or else with the value that was asked for. -/
lemma build_ends : (c : Construction) → Ends (Value.request · = c) c.build c.failing?
  | .scalar s => ⟨.scalar s, rfl, rfl⟩
  | .list items => by
      rw [failing?, checks, build]
      exact (buildItems_ends items).made fun vs hvs => by rw [Value.request, hvs]
  | .table entries => by
      rw [failing?, checks, build]
      exact (buildEntries_ends entries).made fun vs hvs => by rw [Value.request, hvs]
  | .token type lexeme payload line => by
      rw [failing?, checks, build]
      exact payload.build_ends.made fun v hv => by rw [Value.request_token, hv]
  | .literal value => by
      rw [failing?, checks, build]
      refine value.build_ends.argument fun v hv hbuild => ?_
      subst hv
      rcases scalar_cases v with ⟨⟨s, rfl⟩, hpasses⟩ | ⟨hfails, hnode⟩
      · exact .passed hpasses ⟨.expression (.literal s), rfl, rfl⟩
      · exact .failed rfl hbuild hfails hnode
  | .grouping inner => by
      rw [failing?, checks, build]
      refine inner.build_ends.argument fun v hv hbuild => .operand hv hbuild fun e he => ?_
      subst he hv
      exact ⟨.expression (.grouping e), rfl, rfl⟩
  | .unary operator operand => by
      rw [failing?, checks, build, List.append_assoc]
      refine operator.build_ends.argument fun o ho hobuild =>
        operand.build_ends.argument fun v hv hbuild =>
          .operator ho hobuild fun t ht => .operand hv hbuild fun e he => ?_
      subst ht he ho hv
      exact ⟨.expression (.unary t e), rfl, rfl⟩
  | .binary left operator right => by
      rw [failing?, checks, build, List.append_assoc, List.append_assoc]
      refine left.build_ends.argument fun l hl hlbuild =>
        operator.build_ends.argument fun o ho hobuild =>
          right.build_ends.argument fun r hr hrbuild => .operand hl hlbuild fun e he =>
            .operator ho hobuild fun t ht => .operand hr hrbuild fun f hf => ?_
      subst he ht hf hl ho hr
      exact ⟨.expression (.binary e t f), rfl, rfl⟩
  | .bare => ⟨.expression (.bare ()), rfl, rfl⟩

/-- The same for the items of a list. -/
lemma buildItems_ends : (items : List Construction) →
    Ends (Value.requestItems · = items) (buildItems items) (firstFailing? (checksOfItems items))
  | [] => ⟨[], rfl, rfl⟩
  | item :: items => by
      rw [checksOfItems, buildItems]
      refine item.build_ends.argument fun v hv _ => (buildItems_ends items).made fun vs hvs => ?_
      rw [Value.requestItems, hv, hvs]

/-- The same for the entries of a table. -/
lemma buildEntries_ends : (entries : List (Scalar × Construction)) →
    Ends (Value.requestEntries · = entries) (buildEntries entries)
      (firstFailing? (checksOfEntries entries))
  | [] => ⟨[], rfl, rfl⟩
  | (key, item) :: entries => by
      rw [checksOfEntries, buildEntries]
      refine item.build_ends.argument fun v hv _ =>
        (buildEntries_ends entries).made fun vs hvs => ?_
      rw [Value.requestEntries, hv, hvs]

end

end Construction

/-! ### What is built -/

/-- The operator of a unary node is one of two, and that of a binary node is one of ten. -/
def Tree.Fits : OpenExpr → Prop
  | .unary operator _ => operator.type ∈ [TokenType.bang, .minus]
  | .binary _ operator _ =>
    operator.type ∈ [TokenType.equalEqual, .bangEqual, .less, .lessEqual, .greater, .greaterEqual,
      .plus, .minus, .star, .slash]
  | _ => True

namespace Tree

variable {t : Token}

lemma fits_unary (h : t.type.isUnary = true) (operand : OpenExpr) :
    (unary t operand).Fits := by
  have hall : ∀ type ∈ TokenType.all, type.isUnary = true →
      type ∈ [TokenType.bang, .minus] := by decide
  exact hall t.type (TokenType.mem_all _) h

lemma fits_binary (h : t.type.isBinary = true) (left right : OpenExpr) :
    (binary left t right).Fits := by
  have hall : ∀ type ∈ TokenType.all, type.isBinary = true →
      type ∈ [TokenType.equalEqual, .bangEqual, .less, .lessEqual, .greater, .greaterEqual,
        .plus, .minus, .star, .slash] := by decide
  exact hall t.type (TokenType.mem_all _) h

/-- Where all checks of the construction of a tree pass, its operators fit. -/
lemma fits_of_passes {e d : OpenExpr} (h : ∀ k ∈ e.request.checks, k.passes = true)
    (hd : e.Contains d) : d.Fits := by
  induction e with
  | literal value =>
      rw [contains_literal.mp hd]
      trivial
  | grouping inner ih =>
      obtain rfl | hd := contains_grouping.mp hd
      · trivial
      · exact ih (fun k hk => h k (List.mem_append_left _ hk)) hd
  | unary operator operand ih =>
      rw [request, Construction.checks, List.append_assoc] at h
      simp only [List.forall_mem_append, List.forall_mem_cons] at h
      obtain ⟨-, hoperand, hoperator, -⟩ := h
      obtain rfl | hd := contains_unary.mp hd
      · rw [Check.passes, Requirement.passes_operator] at hoperator
        exact fits_unary hoperator operand
      · exact ih hoperand hd
  | binary left operator right ihl ihr =>
      rw [request, Construction.checks, List.append_assoc, List.append_assoc] at h
      simp only [List.forall_mem_append, List.forall_mem_cons] at h
      obtain ⟨hleft, -, hright, -, hoperator, -⟩ := h
      obtain rfl | hd | hd := contains_binary.mp hd
      · rw [Check.passes, Requirement.passes_operator] at hoperator
        exact fits_binary hoperator left right
      · exact ihl hleft hd
      · exact ihr hright hd
  | bare mark =>
      rw [contains_bare.mp hd]
      trivial

end Tree

lemma Construction.passes_of_build {c : Construction} {v : Value} (h : c.build = .ok v) :
    v.request = c ∧ ∀ k ∈ c.checks, k.passes = true := by
  have hends := c.build_ends
  cases hfailing : c.failing? with
  | some k =>
      obtain ⟨w, -, -, herror⟩ := hfailing ▸ hends
      cases h.symm.trans herror
  | none =>
      obtain ⟨w, hw, hok⟩ := hfailing ▸ hends
      obtain rfl := Except.ok.inj (h.symm.trans hok)
      exact ⟨hw, fun k hk => by simpa using List.find?_eq_none.mp hfailing k hk⟩

/-! ### What is printed -/

/-- Only a whole number with too many digits has no text in a printed tree. -/
lemma Scalar.canonical?_eq_none_iff {value : Scalar} :
    value.canonical? = none ↔ ∃ n, value = .int n ∧ 10 ^ Integer.maxDigits ≤ n.natAbs := by
  rw [← Integer.textBound_eq]
  cases value with
  | int n => simp [canonical?, Integer.text?_eq_none_iff]
  | double x =>
      rw [canonical?]
      split <;> simp
  | _ => simp [canonical?]

/-- How printing a tree ends where there is room for a number of levels, as for any value. -/
lemma Value.printIn_cases (room : Option Nat) (e : OpenExpr) :
    match (Value.expression e).printIn room with
    | .ok _ =>
      ¬e.Contains (.bare ()) ∧
        (∀ n, e.Contains (.literal (.int n)) → n.natAbs < 10 ^ Integer.maxDigits) ∧
        ∀ levels, room = some levels → e.height ≤ levels
    | .error (.noNode kindName) =>
      (PrintError.noNode kindName).message = "Cannot print Expression: not an expression node" ∧
        e.Contains (.bare ())
    | .error .tooManyDigits =>
      ∃ n, e.Contains (.literal (.int n)) ∧ 10 ^ Integer.maxDigits ≤ n.natAbs
    | .error .stackFull => ∃ levels, room = some levels ∧ levels < e.height := by
  have hfails := Tree.printIn_failsBy room e
  rw [printIn]
  cases h : e.printIn room with
  | ok text =>
      rw [h] at hfails
      refine ⟨hfails (.bare ()), fun n hn => ?_, fun levels hroom => ?_⟩
      · by_contra hlong
        exact hfails .tooManyDigits
          ⟨.int n, hn, Scalar.canonical?_eq_none_iff.mpr ⟨n, rfl, not_lt.mp hlong⟩⟩
      · by_contra hfull
        exact hfails .stackFull ⟨levels, hroom, not_le.mp hfull⟩
  | error reason =>
      rw [h] at hfails
      cases reason with
      | bare mark =>
          obtain ⟨⟩ := mark
          exact ⟨by decide, hfails⟩
      | tooManyDigits =>
          obtain ⟨value, hvalue, hnone⟩ := hfails
          obtain ⟨n, rfl, hn⟩ := Scalar.canonical?_eq_none_iff.mp hnone
          exact ⟨n, hvalue, hn⟩
      | stackFull => exact hfails

/-- **What is built is well formed**, and there are three reasons why it is not printed. A
construction is built unless a check fails: then the error is that of the first check that fails,
and it carries what the argument of this check is built to. It can be put into words unless the
check is one for an operator, which is written in them, and a number in this has too many digits, or
it is nested more deeply than there is room on the stack. Otherwise the value is the one that was
asked for. If it is a node, then all checks pass at every depth, where the operators are as they
should be. It is printed unless a bare expression occurs in it, or a literal with a number that has
too many digits, or nodes are nested more deeply than there is room on the stack, and the error
tells one of these that is the case. Its nodes, which are found by asking each for its operands, can
be listed unless a bare expression occurs. -/
theorem build_wellFormed (c : Construction) :
    (match c.failing? with
      | some k =>
        ∃ v, v.request = k.argument ∧ k.argument.build = .ok v ∧ c.build = .error (k.error v) ∧
          ∀ room, match (k.error v).messageIn room with
            | .ok _ =>
              (∃ arity, k.requirement = .operator arity) →
                (∀ n ∈ v.numbers, n.natAbs < 10 ^ Integer.maxDigits) ∧
                  ∀ levels, room = some levels → v.levels ≤ levels
            | .error .tooManyDigits =>
              (∃ arity, k.requirement = .operator arity) ∧
                ∃ n ∈ v.numbers, 10 ^ Integer.maxDigits ≤ n.natAbs
            | .error .stackFull =>
              (∃ arity, k.requirement = .operator arity) ∧
                ∃ levels, room = some levels ∧ levels < v.levels
      | none => ∃ v, v.request = c ∧ c.build = .ok v) ∧
    ∀ e, c.build = .ok (.expression e) →
      e.request = c ∧ (∀ k ∈ c.checks, k.passes = true) ∧
      (∀ d, e.Contains d → d.Fits) ∧
      (∀ room, match (Value.expression e).printIn room with
        | .ok _ =>
          ¬e.Contains (.bare ()) ∧
            (∀ n, e.Contains (.literal (.int n)) → n.natAbs < 10 ^ Integer.maxDigits) ∧
            ∀ levels, room = some levels → e.height ≤ levels
        | .error (.noNode kindName) =>
          (PrintError.noNode kindName).message = "Cannot print Expression: not an expression node" ∧
            e.Contains (.bare ())
        | .error .tooManyDigits =>
          ∃ n, e.Contains (.literal (.int n)) ∧ 10 ^ Integer.maxDigits ≤ n.natAbs
        | .error .stackFull => ∃ levels, room = some levels ∧ levels < e.height) ∧
      (e.preorder? = do
        let operands ← e.children
        let lists ← operands.mapM Tree.preorder?
        return e.label ++ lists.flatten) ∧
      (e.preorder? = .error () ↔ e.Contains (.bare ())) := by
  refine ⟨?_, fun e he => ?_⟩
  · have hends := c.build_ends
    cases hfailing : c.failing? with
    | some k =>
        obtain ⟨v, hv, hargument, hbuild⟩ := hfailing ▸ hends
        exact ⟨v, hv, hargument, hbuild, fun room => k.requirement.messageIn_cases room v⟩
    | none =>
        obtain ⟨v, hv, hbuild⟩ := hfailing ▸ hends
        exact ⟨v, hv, hbuild⟩
  · obtain ⟨rfl, hpasses⟩ := Construction.passes_of_build he
    exact ⟨rfl, hpasses, fun d hd => Tree.fits_of_passes hpasses hd,
      fun room => Value.printIn_cases room e, e.preorder?_eq_walk,
      e.preorder?_failsBy.error_iff⟩

/-- The negation of a parenthesised bare expression is built, and cannot be listed. -/
theorem build_wellFormed_bare :
    let c : Construction := .unary (.token .minus "-" (.scalar .nil) 1) (.grouping .bare)
    let e : OpenExpr := .unary ⟨.minus, "-", .nil, 1⟩ (.grouping (.bare ()))
    c.build = .ok (.expression e) ∧ e.Fits ∧ e.preorder? = .error () ∧ e.Contains (.bare ()) := by
  intro c e
  have hbuild : c.build = .ok (.expression e) := rfl
  obtain ⟨-, hwell⟩ := build_wellFormed c
  obtain ⟨-, -, hfits, -, -, hlisted⟩ := hwell e hbuild
  exact ⟨hbuild, hfits e (.self e), rfl, hlisted.mp rfl⟩

/-- A literal in parentheses, so many times. -/
def Tree.nested (n : Nat) : OpenExpr := Nat.repeat .grouping n (.literal .nil)

namespace Tree

lemma build_nested (n : Nat) :
    (Nat.repeat Construction.grouping n (.literal (.scalar .nil))).build =
      .ok (.expression (nested n)) := by
  induction n with
  | zero => rfl
  | succ n ih =>
      rw [Nat.repeat, Construction.build, ih]
      rfl

lemma not_contains_nested (n : Nat) : ¬(nested n).Contains (.bare ()) := by
  induction n with
  | zero => simp [nested, Nat.repeat]
  | succ n ih => simpa [nested, Nat.repeat] using ih

/-- More levels than there is room for are not printed. -/
lemma printIn_nested {n levels : Nat} (h : levels < n) :
    (nested n).printIn (some levels) = .error .stackFull := by
  induction n generalizing levels with
  | zero => omega
  | succ n ih =>
      cases levels with
      | zero => rfl
      | succ levels =>
          have hinner : (nested n).printIn (some levels) = .error .stackFull := ih (by omega)
          rw [nested, Nat.repeat, ← nested, printIn, roomBelow]
          change (nested n).printIn (some levels) >>= _ = _
          rw [hinner]
          rfl

end Tree

/-- Printing does not only fail at bare expressions: the least number with too many digits is built
and not printed, and neither are a thousand pairs of parentheses where there is room for a quarter.
As an operator, the number is refused, and cannot be written in the words for this. -/
theorem print_fails_without_bare :
    let long : Scalar := .int (10 ^ Integer.maxDigits : Nat)
    let e : OpenExpr := .literal long
    ((Construction.literal (.scalar long)).build = .ok (.expression e) ∧
        ¬e.Contains (.bare ()) ∧ (Value.expression e).print? = .error .tooManyDigits) ∧
      (Nat.repeat Construction.grouping 1000 (.literal (.scalar .nil))).build =
          .ok (.expression (Tree.nested 1000)) ∧
        ¬(Tree.nested 1000).Contains (.bare ()) ∧
        (Value.expression (Tree.nested 1000)).printIn (some 250) = .error .stackFull ∧
      ∃ refused, (Construction.unary (.scalar long) (.literal (.scalar .nil))).build =
          .error refused ∧ refused.messageIn none = .error .tooManyDigits := by
  intro long e
  have hlong : long.canonical? = none := Scalar.canonical?_eq_none_iff.mpr ⟨_, rfl, le_rfl⟩
  refine ⟨⟨rfl, by simp [e], ?_⟩, Tree.build_nested 1000, Tree.not_contains_nested 1000, ?_,
    .operatorRefused .unary (.scalar long), rfl, ?_⟩
  · rw [Value.print?, Value.printIn, Tree.printIn, hlong]
    rfl
  · rw [Value.printIn, Tree.printIn_nested (by decide)]
    rfl
  · have hwritten : long.written? = none := hlong
    rw [BuildError.messageIn, Value.writtenIn, hwritten]
    rfl

end ExprFront
