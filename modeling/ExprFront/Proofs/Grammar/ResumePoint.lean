import Mathlib.Order.Lattice.Nat
import ExprFront.Grammar.Recovery

/-!
Where parsing goes on after a fault, from any position of any list of tokens.

* `Recovery.BoundaryAt`, `Recovery.ResumesAt`: the next boundary after a position, in terms of
  positions in the list of all tokens. The list need not have an end of the input.
* `Recovery.resume?_eq_some_iff`: the search ends at the next boundary. It looks at two tokens in a
  row and goes on by one token where it finds no boundary between them
  (`Recovery.resume?_of_not_boundary`), and the next boundary does the same
  (`Recovery.resumesAt_succ_iff`).
* `Recovery.resumesAt_afterSemicolon` finds the next boundary along the tokens not yet read, if the
  list goes on to an end of the input.
* `resumes_at_next_boundary`: the same by the types of the tokens, with the lists on which the
  search gives up. A search from a later position does not end earlier (`Recovery.ResumesAt.mono`).
-/

namespace ExprFront

lemma TokenOf.isEof_iff {P : Type} {t : TokenOf P} : t.isEof = true ↔ t.type = .eof := beq_iff_eq

namespace Recovery

/-- Parsing may go on at a position in a list of tokens. -/
def BoundaryAt (ts : List Token) (k : Nat) : Prop :=
  ∃ previous current, ts[k - 1]? = some previous ∧ ts[k]? = some current ∧
    isBoundary (some previous) current = true

/-- After a fault at a position parsing goes on at the next boundary, or stays at the end of the
input. -/
def ResumesAt (ts : List Token) (p k : Nat) : Prop :=
  ∃ t, ts[p]? = some t ∧
    if t.isEof then k = p else IsLeast {j | p < j ∧ BoundaryAt ts j} k

/-- The positions after a given one that come right after a semicolon, or hold an end of the
input. -/
def boundariesAfter (ts : List Token) (p : Nat) : Set Nat :=
  {k | p < k ∧ ∃ h : k < ts.length, ts[k - 1].type = .semicolon ∨ ts[k].type = .eof}

variable {ts : List Token} {t : Token} {p q k l : Nat}

/-! ### Boundaries by the types of the tokens -/

lemma isBoundary_iff {u : Token} :
    isBoundary (some t) u = true ↔ t.type = .semicolon ∨ u.type = .eof := by
  simp [isBoundary, TokenOf.isEof_iff]

lemma boundaryAt_iff_type :
    BoundaryAt ts k ↔ ∃ h : k < ts.length, ts[k - 1].type = .semicolon ∨ ts[k].type = .eof := by
  constructor
  · rintro ⟨t, u, ht, hu, hb⟩
    obtain ⟨_, rfl⟩ := List.getElem?_eq_some_iff.mp ht
    obtain ⟨h, rfl⟩ := List.getElem?_eq_some_iff.mp hu
    exact ⟨h, isBoundary_iff.mp hb⟩
  · rintro ⟨h, hb⟩
    exact ⟨ts[k - 1], ts[k], List.getElem?_eq_getElem (by omega), List.getElem?_eq_getElem h,
      isBoundary_iff.mpr hb⟩

lemma BoundaryAt.lt_length (h : BoundaryAt ts k) : k < ts.length :=
  (boundaryAt_iff_type.mp h).1

lemma boundaryAt_succ_iff (h : p + 1 < ts.length) :
    BoundaryAt ts (p + 1) ↔ isBoundary (some ts[p]) ts[p + 1] = true := by
  rw [boundaryAt_iff_type, isBoundary_iff, exists_prop_of_true h]
  rfl

/-- An end of the input is a boundary, whatever comes before it. -/
lemma boundaryAt_of_isEof (ht : ts[k]? = some t) (h : t.isEof = true) : BoundaryAt ts k := by
  obtain ⟨hk, rfl⟩ := List.getElem?_eq_some_iff.mp ht
  exact boundaryAt_iff_type.mpr ⟨hk, Or.inr (TokenOf.isEof_iff.mp h)⟩

lemma boundariesAfter_eq : boundariesAfter ts p = {j | p < j ∧ BoundaryAt ts j} := by
  simp only [boundariesAfter, boundaryAt_iff_type]

/-- There is no boundary after a position if and only if there is no end of the input after it, and
no semicolon from it on except as the last token. -/
lemma boundariesAfter_eq_empty_iff :
    boundariesAfter ts p = ∅ ↔
      (∀ j, p < j → ∀ h : j < ts.length, ts[j].type ≠ .eof) ∧
        ∀ j, p ≤ j → ∀ h : j + 1 < ts.length, ts[j].type ≠ .semicolon := by
  rw [Set.eq_empty_iff_forall_notMem]
  constructor
  · intro hnone
    refine ⟨fun j hj h he => hnone j ⟨hj, h, Or.inr he⟩, fun j hj h hs => ?_⟩
    exact hnone (j + 1) ⟨Nat.lt_succ_of_le hj, h, Or.inl hs⟩
  · rintro ⟨heof, hsemi⟩ j ⟨hj, h, hs | he⟩
    · exact hsemi (j - 1) (by omega) (by omega) hs
    · exact heof j hj h he

/-! ### The next boundary -/

lemma resumesAt_iff (ht : ts[p]? = some t) :
    ResumesAt ts p k ↔ if t.isEof then k = p else IsLeast (boundariesAfter ts p) k := by
  simp [ResumesAt, ht, boundariesAfter_eq]

lemma resumesAt_iff_of_isEof (ht : ts[p]? = some t) (h : t.isEof = true) :
    ResumesAt ts p k ↔ k = p := by
  rw [resumesAt_iff ht, if_pos h]

lemma resumesAt_iff_isLeast (ht : ts[p]? = some t) (h : t.isEof = false) :
    ResumesAt ts p k ↔ IsLeast (boundariesAfter ts p) k := by
  rw [resumesAt_iff ht, if_neg (by simp [h])]

lemma not_resumesAt (h : ts.length ≤ p) : ¬ResumesAt ts p k := by
  rintro ⟨t, ht, -⟩
  exact h.not_gt (List.getElem?_eq_some_iff.mp ht).1

/-- A boundary right after a token is the next one. -/
lemma resumesAt_iff_of_boundary (ht : ts[p]? = some t) (h : t.isEof = false)
    (hb : BoundaryAt ts (p + 1)) : ResumesAt ts p k ↔ k = p + 1 := by
  have hleast : IsLeast (boundariesAfter ts p) (p + 1) :=
    ⟨boundariesAfter_eq ▸ ⟨Nat.lt_succ_self p, hb⟩, fun j hj => hj.1⟩
  rw [resumesAt_iff_isLeast ht h]
  exact ⟨fun hk => hk.unique hleast, fun hk => hk ▸ hleast⟩

/-- Without a boundary right after a token, the next one is that after the next token. -/
lemma resumesAt_succ_iff (ht : ts[p]? = some t) (h : t.isEof = false)
    (hb : ¬BoundaryAt ts (p + 1)) : ResumesAt ts p k ↔ ResumesAt ts (p + 1) k := by
  have hset : boundariesAfter ts p = boundariesAfter ts (p + 1) := by
    rw [boundariesAfter_eq, boundariesAfter_eq]
    ext j
    refine ⟨fun hj => ⟨lt_of_le_of_ne hj.1 ?_, hj.2⟩, fun hj => ⟨Nat.lt_of_succ_lt hj.1, hj.2⟩⟩
    rintro rfl
    exact hb hj.2
  rw [resumesAt_iff_isLeast ht h, hset]
  cases hu : ts[p + 1]? with
  | none =>
      have hle : ts.length ≤ p + 1 := List.getElem?_eq_none_iff.mp hu
      refine ⟨fun hk => ?_, fun hk => absurd hk (not_resumesAt hle)⟩
      exact absurd (hk.1.1.trans hk.1.2.1) hle.not_gt
  | some u =>
      have heof : u.isEof = false := Bool.eq_false_iff.mpr fun hi => hb (boundaryAt_of_isEof hu hi)
      exact (resumesAt_iff_isLeast hu heof).symm

namespace ResumesAt

lemma le (h : ResumesAt ts p k) : p ≤ k := by
  obtain ⟨t, -, hk⟩ := h
  split at hk
  · exact hk.ge
  · exact hk.1.1.le

lemma lt_length (h : ResumesAt ts p k) : k < ts.length := by
  obtain ⟨t, ht, hk⟩ := h
  split at hk
  · exact hk.trans_lt (List.getElem?_eq_some_iff.mp ht).1
  · exact hk.1.2.lt_length

/-- From a later position parsing does not go on earlier. -/
lemma mono (hk : ResumesAt ts p k) (hl : ResumesAt ts q l) (hpq : p ≤ q) : k ≤ l := by
  obtain ⟨t, ht, hk⟩ := hk
  split at hk
  · exact hk.trans_le (hpq.trans hl.le)
  · next hgo =>
      obtain ⟨u, hu, hl⟩ := hl
      split at hl
      · next hstay =>
          have hne : p ≠ q := by
            rintro rfl
            obtain rfl := Option.some.inj (ht.symm.trans hu)
            exact hgo hstay
          exact hl ▸ hk.2 ⟨lt_of_le_of_ne hpq hne, boundaryAt_of_isEof hu hstay⟩
      · exact hk.2 ⟨hpq.trans_lt hl.1.1, hl.1.2⟩

end ResumesAt

/-! ### Along the tokens of a stream -/

/-- The token at a position in the body of a stream, or the end of the input. -/
lemma getElem?_length_append (us ts after : List Token) (eof : Token) :
    (us ++ (ts ++ eof :: after))[us.length]? = some (ts.headD eof) := by
  rw [List.getElem?_append_right le_rfl, Nat.sub_self]
  cases ts <;> rfl

/-- The boundary between two tokens in a row. -/
lemma boundaryAt_iff (us ts after : List Token) (t eof : Token) :
    BoundaryAt (us ++ (t :: ts ++ eof :: after)) (us.length + 1) ↔
      isBoundary (some t) (ts.headD eof) = true := by
  have hprev : (us ++ (t :: ts ++ eof :: after))[us.length]? = some t :=
    getElem?_length_append us (t :: ts) after eof
  have hnext : (us ++ (t :: ts ++ eof :: after))[us.length + 1]? = some (ts.headD eof) := by
    have h := getElem?_length_append (us ++ [t]) ts after eof
    rwa [List.append_assoc, List.singleton_append, List.length_append, List.length_singleton] at h
  rw [BoundaryAt, Nat.add_sub_cancel, hprev, hnext]
  simp

/-- Tokens in the body of a stream that come after a position reach its next boundary where the
next semicolon does. -/
lemma resumesAt_afterSemicolon {ts after : List Token} {eof : Token} (heof : eof.isEof = true)
    (hts : ∀ t ∈ ts, t.isEof = false) (us : List Token) :
    ∃ vs, ts = vs ++ afterSemicolon ts ∧
      ResumesAt (us ++ (ts ++ eof :: after)) us.length (us.length + vs.length) := by
  induction ts generalizing us with
  | nil =>
      exact ⟨[], rfl,
        (resumesAt_iff_of_isEof (getElem?_length_append us [] after eof) heof).mpr rfl⟩
  | cons t ts ih =>
      have ht : t.isEof = false := hts t List.mem_cons_self
      have hget : (us ++ (t :: ts ++ eof :: after))[us.length]? = some t :=
        getElem?_length_append us (t :: ts) after eof
      rw [afterSemicolon]
      by_cases hb : BoundaryAt (us ++ (t :: ts ++ eof :: after)) (us.length + 1)
      · -- a boundary right after the token
        refine ⟨[t], ?_, (resumesAt_iff_of_boundary hget ht hb).mpr rfl⟩
        split
        · rfl
        · next hs =>
            rw [boundaryAt_iff, isBoundary_iff, or_iff_right hs] at hb
            cases ts with
            | nil => rfl
            | cons u ts => exact absurd (TokenOf.isEof_iff.mpr hb) (by simp [hts u (by simp)])
      · have hs : t.type ≠ .semicolon := fun hs =>
          hb ((boundaryAt_iff us ts after t eof).mpr (isBoundary_iff.mpr (Or.inl hs)))
        obtain ⟨vs, hvs, hk⟩ := ih (fun v hv => hts v (List.mem_cons_of_mem t hv)) (us ++ [t])
        refine ⟨t :: vs, by rw [if_neg hs, List.cons_append, ← hvs],
          (resumesAt_succ_iff hget ht hb).mpr ?_⟩
        simpa [Nat.add_assoc, Nat.add_comm 1] using hk

/-! ### The search -/

lemma resume?_natCast (ts : List Token) (p : Nat) :
    resume? ts p = (skipped? (ts.drop p)).map fun n => ((p + n : Nat) : Int) := by
  rw [resume?, if_pos (Int.natCast_nonneg p), Int.toNat_natCast]
  cases skipped? (ts.drop p) <;> rfl

lemma resume?_of_length_le (h : ts.length ≤ p) : resume? ts p = none := by
  rw [resume?_natCast, List.drop_eq_nil_of_le h]
  rfl

lemma resume?_of_isEof (hp : p < ts.length) (h : ts[p].isEof = true) :
    resume? ts p = some (p : Int) := by
  rw [resume?_natCast, List.drop_eq_getElem_cons hp, skipped?, if_pos h]
  rfl

lemma resume?_of_boundary (hp : p < ts.length) (h : ts[p].isEof = false)
    (hb : BoundaryAt ts (p + 1)) : resume? ts p = some ((p + 1 : Nat) : Int) := by
  have hn : p + 1 < ts.length := hb.lt_length
  rw [resume?_natCast, List.drop_eq_getElem_cons hp, skipped?, if_neg (by simp [h]),
    List.drop_eq_getElem_cons hn, toBoundary?, if_pos ((boundaryAt_succ_iff hn).mp hb)]
  rfl

/-- Where there is no boundary right after a token, the search goes on from the next one. -/
lemma resume?_of_not_boundary (hp : p < ts.length) (h : ts[p].isEof = false)
    (hb : ¬BoundaryAt ts (p + 1)) : resume? ts p = resume? ts (p + 1 : Nat) := by
  rw [resume?_natCast, resume?_natCast, List.drop_eq_getElem_cons hp, skipped?,
    if_neg (by simp [h])]
  rcases Nat.lt_or_ge (p + 1) ts.length with hn | hn
  · have heof : ¬ts[p + 1].isEof = true :=
      fun he => hb (boundaryAt_of_isEof (List.getElem?_eq_getElem hn) he)
    rw [boundaryAt_succ_iff hn] at hb
    rw [List.drop_eq_getElem_cons hn, toBoundary?, if_neg hb, skipped?, if_neg heof,
      Option.map_map, Option.map_map, Option.map_map]
    refine congrArg (Option.map · _) (funext fun n => ?_)
    change ((p + (n + 1 + 1) : Nat) : Int) = ((p + 1 + (n + 1) : Nat) : Int)
    omega
  · rw [List.drop_eq_nil_of_le hn]
    rfl

/-- The search ends where parsing goes on. -/
lemma resume?_eq_some_iff : resume? ts p = some (k : Int) ↔ ResumesAt ts p k := by
  -- along the tokens from the position on
  induction hn : ts.length - p generalizing p with
  | zero =>
      have hle : ts.length ≤ p := Nat.sub_eq_zero_iff_le.mp hn
      rw [resume?_of_length_le hle]
      exact ⟨nofun, fun h => absurd h (not_resumesAt hle)⟩
  | succ n ih =>
      have hp : p < ts.length := by omega
      have ht := List.getElem?_eq_getElem hp
      cases h : ts[p].isEof with
      | true =>
          rw [resume?_of_isEof hp h, resumesAt_iff_of_isEof ht h, Option.some_inj, Int.natCast_inj,
            eq_comm]
      | false =>
          by_cases hb : BoundaryAt ts (p + 1)
          · rw [resume?_of_boundary hp h hb, resumesAt_iff_of_boundary ht h hb, Option.some_inj,
              Int.natCast_inj, eq_comm]
          · rw [resume?_of_not_boundary hp h hb, resumesAt_succ_iff ht h hb]
            exact ih (by omega)

lemma exists_resumesAt {r : Int} (h : resume? ts p = some r) :
    ∃ k : Nat, r = k ∧ ResumesAt ts p k := by
  obtain ⟨n, -, rfl⟩ := Option.map_eq_some_iff.mp ((resume?_natCast ts p).symm.trans h)
  exact ⟨p + n, rfl, resume?_eq_some_iff.mp h⟩

/-- Before the end of the input the search gives up only where there is no boundary. -/
lemma resume?_eq_none_iff (ht : ts[p]? = some t) (h : t.isEof = false) :
    resume? ts p = none ↔ boundariesAfter ts p = ∅ := by
  constructor
  · intro hnone
    by_contra hne
    have hmem := Nat.sInf_mem (Set.nonempty_iff_ne_empty.mpr hne)
    have hleast : IsLeast (boundariesAfter ts p) (sInf (boundariesAfter ts p)) :=
      ⟨hmem, fun _ => Nat.sInf_le⟩
    have hsome := resume?_eq_some_iff.mpr ((resumesAt_iff_isLeast ht h).mpr hleast)
    simp [hnone] at hsome
  · intro hempty
    cases hr : resume? ts p with
    | none => rfl
    | some r =>
        obtain ⟨k, -, hk⟩ := exists_resumesAt hr
        have hmem := ((resumesAt_iff_isLeast ht h).mp hk).1
        simp [hempty] at hmem

end Recovery

/-- **The resume point**: from an end of the input on, a search stays where it is. From any other
position it ends at the first later one that comes right after a semicolon or holds an end of the
input, and gives up if there is none. A search from a later position does not end earlier. -/
theorem resumes_at_next_boundary {ts : List Token} {p : Nat} (hp : p < ts.length) :
    (ts[p].type = .eof → Recovery.resume? ts p = some (p : Int)) ∧
      (ts[p].type ≠ .eof →
        (∀ k : Nat, Recovery.resume? ts p = some (k : Int) ↔
          IsLeast (Recovery.boundariesAfter ts p) k) ∧
        (Recovery.resume? ts p = none ↔ Recovery.boundariesAfter ts p = ∅) ∧
        (Recovery.resume? ts p = none ↔
          (∀ j, p < j → ∀ h : j < ts.length, ts[j].type ≠ .eof) ∧
            ∀ j, p ≤ j → ∀ h : j + 1 < ts.length, ts[j].type ≠ .semicolon)) ∧
      ∀ (q : Nat) (r r' : Int), p ≤ q → Recovery.resume? ts p = some r →
        Recovery.resume? ts q = some r' → r ≤ r' := by
  have ht := List.getElem?_eq_getElem hp
  refine ⟨fun he => Recovery.resume?_of_isEof hp (TokenOf.isEof_iff.mpr he), fun he => ?_, ?_⟩
  · have h : ts[p].isEof = false := Bool.eq_false_iff.mpr fun hi => he (TokenOf.isEof_iff.mp hi)
    have hnone := Recovery.resume?_eq_none_iff ht h
    refine ⟨fun k => ?_, hnone, hnone.trans Recovery.boundariesAfter_eq_empty_iff⟩
    exact Recovery.resume?_eq_some_iff.trans (Recovery.resumesAt_iff_isLeast ht h)
  · intro q r r' hpq hr hr'
    obtain ⟨k, rfl, hk⟩ := Recovery.exists_resumesAt hr
    obtain ⟨l, rfl, hl⟩ := Recovery.exists_resumesAt hr'
    exact Int.ofNat_le.mpr (hk.mono hl hpq)

/-- Searches from a semicolon, from an end of the input after it, and from a semicolon that nothing
comes after. -/
theorem resumes_behind_semicolon :
    let ts : List Token := [⟨.rightParen, ")", .nil, 1⟩, ⟨.semicolon, ";", .nil, 1⟩,
      ⟨.nil, "nil", .nil, 1⟩, ⟨.eof, "", .nil, 1⟩, ⟨.semicolon, ";", .nil, 1⟩]
    (1 < ts.length ∧ ts[1].type ≠ .eof ∧ IsLeast (Recovery.boundariesAfter ts 1) 2 ∧
        Recovery.resume? ts (1 : Nat) = some (2 : Nat)) ∧
      (3 < ts.length ∧ ts[3].type = .eof ∧ Recovery.resume? ts (3 : Nat) = some (3 : Nat)) ∧
      (4 < ts.length ∧ ts[4].type ≠ .eof ∧ Recovery.resume? ts (4 : Nat) = none) ∧
      ∃ r r', 1 ≤ 3 ∧ Recovery.resume? ts (1 : Nat) = some r ∧
        Recovery.resume? ts (3 : Nat) = some r' ∧ r ≤ r' := by
  intro ts
  have hsemi : ts[1].type ≠ .eof := nofun
  have hlast : ts[4].type ≠ .eof := nofun
  have hleast : IsLeast (Recovery.boundariesAfter ts 1) 2 :=
    ⟨⟨by decide, by decide, Or.inl rfl⟩, fun j hj => hj.1⟩
  obtain ⟨-, hsearch, hmono⟩ := resumes_at_next_boundary (show 1 < ts.length by decide)
  obtain ⟨hstay, -, -⟩ := resumes_at_next_boundary (show 3 < ts.length by decide)
  obtain ⟨-, hgiveUp, -⟩ := resumes_at_next_boundary (show 4 < ts.length by decide)
  have htwo := ((hsearch hsemi).1 2).mpr hleast
  have hthree := hstay rfl
  have hnone : Recovery.resume? ts (4 : Nat) = none := by
    refine (hgiveUp hlast).2.2.mpr ⟨fun j hj h => ?_, fun j hj h => ?_⟩
    · exact absurd h (Nat.not_lt_of_ge hj)
    · exact absurd h (Nat.not_lt_of_ge (Nat.succ_le_succ hj))
  exact ⟨⟨by decide, hsemi, hleast, htwo⟩, ⟨by decide, rfl, hthree⟩, ⟨by decide, hlast, hnone⟩,
    _, _, by decide, htwo, hthree, hmono 3 _ _ (by decide) htwo hthree⟩

end ExprFront
