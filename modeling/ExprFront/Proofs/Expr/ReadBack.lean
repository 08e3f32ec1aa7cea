import Mathlib.Data.List.Forall2
import ExprFront.Expr.Datum
import ExprFront.Proofs.Expr.Printing

/-!
The prefix form of a tree can be read back.

A text reads as a datum (`Datum.ReadsAs`) if it adds the datum to the innermost open list, whatever
lists are open and whatever comes behind the text, except more of an atom. An atom reads as itself
(`IsAtom.readsAs`), and a name and texts in parentheses read as the list of what each of them reads
as (`readsAs_parenthesized`). So the prefix form of a legible tree reads as the shape of the tree
(`readsAs_print`), and where no operator is called like a group, the shape tells the nodes
(`Alike.of_shape_eq`).
-/

namespace ExprFront

namespace Datum

/-! ### Atoms and symbols -/

/-- A text that is an atom. -/
structure IsAtom (text : String) : Prop where
  ne_empty : text ≠ ""
  atomic : ∀ c ∈ text.toList, isAtomic c = true

instance (text : String) : Decidable (IsAtom text) :=
  decidable_of_iff (text ≠ "" ∧ text.toList.all isAtomic = true)
    ⟨fun h => ⟨h.1, List.all_eq_true.mp h.2⟩, fun h => ⟨h.ne_empty, List.all_eq_true.mpr h.atomic⟩⟩

/-- Behind an atom, a text that does not go on with it. -/
def EndsAtom (rest : List Char) : Prop := ∀ c ∈ rest.head?, isAtomic c = false

lemma symbols_opening (rest : List Char) : symbols ('(' :: rest) = .opening :: symbols rest := by
  rw [symbols, if_pos rfl]

lemma symbols_closing (rest : List Char) : symbols (')' :: rest) = .closing :: symbols rest := by
  rw [symbols, if_neg (by decide), if_pos rfl]

lemma symbols_space (rest : List Char) : symbols (' ' :: rest) = symbols rest := by
  rw [symbols, if_neg (by decide), if_neg (by decide), if_pos Text.isBlank_space]

/-- An atom is read as a whole. -/
lemma symbols_atom {text : String} (h : IsAtom text) {rest : List Char} (hrest : EndsAtom rest) :
    symbols (text.toList ++ rest) = .atom text :: symbols rest := by
  have hne : text.toList ≠ [] := by simpa using h.ne_empty
  obtain ⟨c, cs, htext⟩ := List.exists_cons_of_ne_nil hne
  have hatomic := h.atomic
  rw [htext] at hatomic
  have hc : c ≠ '(' ∧ c ≠ ')' ∧ Text.isBlank c = false := by
    simpa [isAtomic, and_assoc] using hatomic c List.mem_cons_self
  have hcs : ∀ d ∈ cs, isAtomic d = true := fun d hd => hatomic d (List.mem_cons_of_mem c hd)
  have hend : rest.takeWhile isAtomic = [] ∧ rest.dropWhile isAtomic = rest := by
    cases rest with
    | nil => exact ⟨rfl, rfl⟩
    | cons d rest =>
        have hd : ¬isAtomic d = true := by simp [hrest d rfl]
        exact ⟨List.takeWhile_cons_of_neg hd, List.dropWhile_cons_of_neg hd⟩
  rw [htext, List.cons_append, symbols, if_neg hc.1, if_neg hc.2.1, if_neg (by simp [hc.2.2]),
    List.takeWhile_append_of_pos hcs, List.dropWhile_append_of_pos hcs, hend.1, hend.2,
    List.append_nil, ← htext, String.ofList_toList]

/-! ### Texts that read as data -/

/-- A text reads as a datum: it adds the datum to the items of the innermost open list. -/
def ReadsAs (text : String) (d : Datum) : Prop :=
  ∀ items around rest, EndsAtom rest →
    collect items around (symbols (text.toList ++ rest)) =
      collect (items ++ [d]) around (symbols rest)

lemma IsAtom.readsAs {text : String} (h : IsAtom text) : ReadsAs text (.atom text) := by
  intro items around rest hrest
  rw [symbols_atom h hrest, collect]

/-- Texts with a space before each of them end an atom, whatever they are. -/
lemma EndsAtom.spaced {rest : List Char} (hrest : EndsAtom rest) (texts : List String) :
    EndsAtom ((String.join (texts.map (" " ++ ·))).toList ++ rest) := by
  cases texts with
  | nil => exact hrest
  | cons text texts =>
      have hspace : isAtomic ' ' = false := by decide
      simpa [EndsAtom, String.toList_join] using hspace

/-- Texts with a space before each of them read as one datum after the other. -/
lemma collect_spaced {texts : List String} {ds : List Datum} (h : List.Forall₂ ReadsAs texts ds)
    {rest : List Char} (hrest : EndsAtom rest) (items : List Datum) (around : List (List Datum)) :
    collect items around (symbols ((String.join (texts.map (" " ++ ·))).toList ++ rest)) =
      collect (items ++ ds) around (symbols rest) := by
  induction h generalizing items with
  | nil => rw [List.append_nil]; rfl
  | @cons text d texts ds htext _ ih =>
      have hsplit : (String.join ((text :: texts).map (" " ++ ·))).toList ++ rest =
          ' ' :: (text.toList ++ ((String.join (texts.map (" " ++ ·))).toList ++ rest)) := by
        simp [String.toList_join]
      rw [hsplit, symbols_space, htext items around _ (hrest.spaced texts), ih, List.append_assoc,
        List.singleton_append]

/-- A name and texts in parentheses read as a list. -/
lemma readsAs_parenthesized {name : String} (hname : IsAtom name) {texts : List String}
    {ds : List Datum} (h : List.Forall₂ ReadsAs texts ds) :
    ReadsAs (Tree.parenthesized name texts) (.list (.atom name :: ds)) := by
  intro items around rest _
  have hsplit : (Tree.parenthesized name texts).toList ++ rest =
      '(' :: (name.toList ++ ((String.join (texts.map (" " ++ ·))).toList ++ ')' :: rest)) := by
    simp [Tree.parenthesized]
  have hclosing : EndsAtom (')' :: rest) := by
    rintro _ ⟨⟩
    decide
  rw [hsplit, symbols_opening, collect, symbols_atom hname (hclosing.spaced texts), collect,
    collect_spaced h hclosing, symbols_closing, collect]
  rfl

end Datum

namespace Tree

open Datum

variable {P : Type}

/-! ### Legible trees -/

/-- All operators of a tree have one property, and all its literals have another one. -/
def All (p : TokenOf P → Prop) (q : Scalar → Prop) : Tree P Empty → Prop
  | .literal value => q value
  | .grouping inner => inner.All p q
  | .unary operator operand => p operator ∧ operand.All p q
  | .binary left operator right => left.All p q ∧ p operator ∧ right.All p q
  | .bare mark => mark.elim

instance decidableAll {p : TokenOf P → Prop} {q : Scalar → Prop} [DecidablePred p]
    [DecidablePred q] : (e : Tree P Empty) → Decidable (e.All p q)
  | .literal value => inferInstanceAs (Decidable (q value))
  | .grouping inner => decidableAll inner
  | .unary _ operand => @instDecidableAnd _ _ _ (decidableAll operand)
  | .binary left _ right =>
    @instDecidableAnd _ _ (decidableAll left) (@instDecidableAnd _ _ _ (decidableAll right))
  | .bare mark => mark.elim

/-- All operators and literals have texts that are atoms. -/
def Legible (e : Tree P Empty) : Prop :=
  e.All (fun t => IsAtom t.lexeme) fun value => ∃ text ∈ value.canonical?, IsAtom text

/-- No operator is called like a group. -/
def TellsGroups (e : Tree P Empty) : Prop := e.All (fun t => t.lexeme ≠ "group") fun _ => True

instance (e : Tree P Empty) : Decidable e.Legible := decidableAll e

instance (e : Tree P Empty) : Decidable e.TellsGroups := decidableAll e

/-! ### Shapes -/

section Shape

variable {d : Datum}

lemma shape?_literal_eq_some {value : Scalar} :
    (literal value : Tree P Empty).shape? = some d ↔
      ∃ text, value.canonical? = some text ∧ .atom text = d := by
  simp [shape?, Option.bind_eq_some_iff]

lemma shape?_grouping_eq_some {inner : Tree P Empty} :
    (grouping inner).shape? = some d ↔
      ∃ shape, inner.shape? = some shape ∧ .list [.atom "group", shape] = d := by
  simp [shape?, Option.bind_eq_some_iff]

lemma shape?_unary_eq_some {operator : TokenOf P} {operand : Tree P Empty} :
    (unary operator operand).shape? = some d ↔
      ∃ shape, operand.shape? = some shape ∧ .list [.atom operator.lexeme, shape] = d := by
  simp [shape?, Option.bind_eq_some_iff]

lemma shape?_binary_eq_some {left right : Tree P Empty} {operator : TokenOf P} :
    (binary left operator right).shape? = some d ↔
      ∃ leftShape, left.shape? = some leftShape ∧ ∃ rightShape, right.shape? = some rightShape ∧
        .list [.atom operator.lexeme, leftShape, rightShape] = d := by
  simp [shape?, Option.bind_eq_some_iff]

end Shape

/-- A legible tree is printed, and its prefix form reads as its shape. -/
lemma readsAs_print {e : Tree P Empty} (h : e.Legible) :
    ∃ text d, e.print? = .ok text ∧ e.shape? = some d ∧ ReadsAs text d := by
  induction e with
  | literal value =>
      obtain ⟨text, htext, hatom⟩ := h
      exact ⟨text, _, print?_literal_eq_ok.mpr htext, shape?_literal_eq_some.mpr ⟨_, htext, rfl⟩,
        hatom.readsAs⟩
  | grouping inner ih =>
      obtain ⟨text, d, hprint, hshape, hreads⟩ := ih h
      exact ⟨_, _, print?_grouping_eq_ok.mpr ⟨text, hprint, rfl⟩,
        shape?_grouping_eq_some.mpr ⟨d, hshape, rfl⟩,
        readsAs_parenthesized (by decide) (.cons hreads .nil)⟩
  | unary operator operand ih =>
      obtain ⟨text, d, hprint, hshape, hreads⟩ := ih h.2
      exact ⟨_, _, print?_unary_eq_ok.mpr ⟨text, hprint, rfl⟩,
        shape?_unary_eq_some.mpr ⟨d, hshape, rfl⟩,
        readsAs_parenthesized h.1 (.cons hreads .nil)⟩
  | binary left operator right ihl ihr =>
      obtain ⟨text, d, hprint, hshape, hreads⟩ := ihl h.1
      obtain ⟨text', d', hprint', hshape', hreads'⟩ := ihr h.2.2
      exact ⟨_, _, print?_binary_eq_ok.mpr ⟨text, hprint, text', hprint', rfl⟩,
        shape?_binary_eq_some.mpr ⟨d, hshape, d', hshape', rfl⟩,
        readsAs_parenthesized h.2.1 (.cons hreads (.cons hreads' .nil))⟩
  | bare mark => exact mark.elim

/-! ### Trees of one shape -/

/-- Trees with the same nodes in the same places, operators with the same texts and literals with
the same texts. -/
inductive Alike : Tree P Empty → Tree P Empty → Prop where
  | literal {v w} (h : v.canonical? = w.canonical?) : Alike (.literal v) (.literal w)
  | grouping {e f} (h : Alike e f) : Alike (.grouping e) (.grouping f)
  | unary {t u e f} (ht : t.lexeme = u.lexeme) (h : Alike e f) : Alike (.unary t e) (.unary u f)
  | binary {t u l l' r r'} (hl : Alike l l') (ht : t.lexeme = u.lexeme) (hr : Alike r r') :
    Alike (.binary l t r) (.binary l' u r')

/-- The shape tells the nodes of trees in which no operator is called like a group. -/
lemma Alike.of_shape_eq {e f : Tree P Empty} (he : e.TellsGroups) (hf : f.TellsGroups)
    {shape : Datum} (h : e.shape? = some shape) (h' : f.shape? = some shape) : e.Alike f := by
  induction e generalizing f shape with
  | literal v =>
      obtain ⟨text, hv, rfl⟩ := shape?_literal_eq_some.mp h
      cases f with
      | literal w =>
          obtain ⟨text', hw, htext⟩ := shape?_literal_eq_some.mp h'
          rw [← Datum.atom.inj htext] at hv
          exact .literal (hv.trans hw.symm)
      | bare mark => exact mark.elim
      | _ => simp [shape?, Option.bind_eq_some_iff] at h'
  | grouping e ih =>
      obtain ⟨d, hd, rfl⟩ := shape?_grouping_eq_some.mp h
      cases f with
      | grouping f =>
          obtain ⟨d', hd', hlist⟩ := shape?_grouping_eq_some.mp h'
          simp only [Datum.list.injEq, List.cons.injEq, and_true, true_and] at hlist
          exact .grouping (ih he hf hd (hlist ▸ hd'))
      | unary u f =>
          obtain ⟨d', -, hlist⟩ := shape?_unary_eq_some.mp h'
          simp only [Datum.list.injEq, List.cons.injEq, Datum.atom.injEq] at hlist
          exact absurd hlist.1 hf.1
      | bare mark => exact mark.elim
      | _ => simp [shape?, Option.bind_eq_some_iff] at h'
  | unary t e ih =>
      obtain ⟨d, hd, rfl⟩ := shape?_unary_eq_some.mp h
      cases f with
      | grouping f =>
          obtain ⟨d', -, hlist⟩ := shape?_grouping_eq_some.mp h'
          simp only [Datum.list.injEq, List.cons.injEq, Datum.atom.injEq] at hlist
          exact absurd hlist.1.symm he.1
      | unary u f =>
          obtain ⟨d', hd', hlist⟩ := shape?_unary_eq_some.mp h'
          simp only [Datum.list.injEq, List.cons.injEq, Datum.atom.injEq, and_true] at hlist
          exact .unary hlist.1.symm (ih he.2 hf.2 hd (hlist.2 ▸ hd'))
      | bare mark => exact mark.elim
      | _ => simp [shape?, Option.bind_eq_some_iff] at h'
  | binary l t r ihl ihr =>
      obtain ⟨d, hd, c, hc, rfl⟩ := shape?_binary_eq_some.mp h
      cases f with
      | binary l' u r' =>
          obtain ⟨d', hd', c', hc', hlist⟩ := shape?_binary_eq_some.mp h'
          simp only [Datum.list.injEq, List.cons.injEq, Datum.atom.injEq, and_true] at hlist
          obtain ⟨ht, rfl, rfl⟩ := hlist
          exact .binary (ihl he.1 hf.1 hd hd') ht.symm (ihr he.2.2 hf.2.2 hc hc')
      | bare mark => exact mark.elim
      | _ => simp [shape?, Option.bind_eq_some_iff] at h'
  | bare mark => exact mark.elim

end Tree

/-- **Printing can be read back**: a tree whose operators and literals have atoms as their texts is
printed, and the text is read as one datum, which is the shape of the tree. So two such trees that
print alike have the same nodes with the same texts, if none of their operators is called like a
group. -/
theorem print_reads_back {e : Expr} (he : e.Legible) :
    ∃ text d, (Value.expression e.weaken).print? = .ok text ∧ e.shape? = some d ∧
      Datum.read? text = some d ∧
      ∀ f : Expr, f.Legible → e.TellsGroups → f.TellsGroups →
        (Value.expression f.weaken).print? = .ok text → e.Alike f := by
  have hread {f : Expr} (hf : f.Legible) :
      ∃ text d, f.print? = .ok text ∧ f.shape? = some d ∧ Datum.read? text = some d := by
    obtain ⟨text, d, hprint, hshape, hreads⟩ := Tree.readsAs_print hf
    have hall := hreads [] [] [] (by simp [Datum.EndsAtom])
    rw [List.append_nil] at hall
    refine ⟨text, d, hprint, hshape, ?_⟩
    rw [Datum.read?, hall, Datum.symbols]
    rfl
  obtain ⟨text, d, hprint, hshape, htext⟩ := hread he
  refine ⟨text, d, Value.print?_expression_eq_ok.mpr hprint, hshape, htext,
    fun f hf hge hgf hf' => ?_⟩
  obtain ⟨text', d', hprint', hshape', htext'⟩ := hread hf
  obtain rfl := Except.ok.inj (hprint'.symm.trans (Value.print?_expression_eq_ok.mp hf'))
  obtain rfl := Option.some.inj (htext'.symm.trans htext)
  exact .of_shape_eq hge hgf hshape hshape'

/-- An instance of the theorem: the product of a negation and a group, with an integer on one line
and with a double on another one. -/
theorem print_reads_back_product :
    let minus (line : Int) : Token := ⟨.minus, "-", .nil, line⟩
    let star (line : Int) : Token := ⟨.star, "*", .nil, line⟩
    let group : Expr := .grouping (.literal (.double (Double.ofPlainDigits "45.67".toList)))
    let e : Expr := .binary (.unary (minus 1) (.literal (.int 123))) (star 1) group
    let f : Expr := .binary
      (.unary (minus 3) (.literal (.double (Double.ofPlainDigits "123.0".toList)))) (star 2) group
    (Value.expression e.weaken).print? = .ok "(* (- 123) (group 45.67))" ∧
      (∃ d, e.shape? = some d ∧ Datum.read? "(* (- 123) (group 45.67))" = some d) ∧
      e.Alike f := by
  intro minus star group e f
  have hprint : e.print? = .ok "(* (- 123) (group 45.67))" := by decide +kernel
  have hprint' : f.print? = .ok "(* (- 123) (group 45.67))" := by decide +kernel
  have he : e.Legible := by decide +kernel
  have hf : f.Legible := by decide +kernel
  have hge : e.TellsGroups := by decide +kernel
  have hgf : f.TellsGroups := by decide +kernel
  obtain ⟨text, d, htext, hshape, hread, halike⟩ := print_reads_back he
  obtain rfl := Except.ok.inj (hprint.symm.trans (Value.print?_expression_eq_ok.mp htext))
  exact ⟨htext, ⟨d, hshape, hread⟩, halike f hf hge hgf (Value.print?_expression_eq_ok.mpr hprint')⟩

end ExprFront
