import Mathlib.Order.Defs.Unbundled
import Mathlib.Tactic.Lemma
import ExprFront.Method

/-!
What methods do to a state.

`Method.Moves R`: whether a method gives a result or is broken off, it takes each state to one in
the relation `R`. Where `R` is reflexive and transitive, methods that change nothing move along it,
and methods in a row do if each of them does. So only those that change the state themselves need a
look. `Method.Keeps` is the relation of an invariant.
-/

namespace ExprFront.Method

variable {ε σ α β : Type} {R R' : σ → σ → Prop}

/-- The method takes each state to one in the relation, also where it is broken off. -/
def Moves (R : σ → σ → Prop) (m : Method ε σ α) : Prop := ∀ c, R c (m c).2

lemma Moves.mono {m : Method ε σ α} (h : m.Moves R) (hR : ∀ c c', R c c' → R' c c') :
    m.Moves R' := fun c => hR c _ (h c)

section Refl

variable [Std.Refl R]

lemma pure_moves (a : α) : (pure a : Method ε σ α).Moves R := fun c => refl_of R c

lemma stop_moves (b : ε) : (stop b : Method ε σ α).Moves R := fun c => refl_of R c

lemma state_moves : (state : Method ε σ σ).Moves R := fun c => refl_of R c

lemma need_moves (b : ε) (get? : σ → Option α) : (need b get?).Moves R := by
  intro c
  rw [need]
  split <;> exact refl_of R c

end Refl

lemma Moves.bind [IsTrans σ R] {m : Method ε σ α} {f : α → Method ε σ β} (hm : m.Moves R)
    (hf : ∀ a, (f a).Moves R) : (m >>= f).Moves R := by
  intro c
  have hfirst := hm c
  cases hr : m c with
  | mk r c' =>
      rw [hr] at hfirst
      cases r with
      | ok a =>
          rw [bind_of_ok hr]
          exact trans_of R hfirst (hf a c')
      | error b =>
          rw [bind_of_error hr]
          exact hfirst

lemma Moves.map [IsPreorder σ R] {m : Method ε σ α} (hm : m.Moves R) (g : α → β) :
    (g <$> m).Moves R := hm.bind fun a => pure_moves (g a)

lemma Moves.ite {m m' : Method ε σ α} (hm : m.Moves R) (hm' : m'.Moves R) (p : Prop)
    [Decidable p] : (if p then m else m').Moves R := by
  split
  · exact hm
  · exact hm'

/-- What holds before holds after. -/
def Keeps (P : σ → Prop) (c c' : σ) : Prop := P c → P c'

instance (P : σ → Prop) : IsPreorder σ (Keeps P) where
  refl _ := id
  trans _ _ _ h h' := h' ∘ h

end ExprFront.Method
