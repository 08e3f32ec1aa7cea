/-!
Methods: programs that change a state and may be broken off. What a method has changed by then stays
changed.
-/

namespace ExprFront

/-- A method gives a result or is broken off, and changes the state in either case. -/
def Method (ε σ α : Type) : Type := σ → Except ε α × σ

namespace Method

variable {ε σ α β : Type}

instance : Monad (Method ε σ) where
  pure a := fun c => (.ok a, c)
  bind m f := fun c =>
    match m c with
    | (.ok a, c) => f a c
    | (.error b, c) => (.error b, c)

/-- Breaks off. -/
def stop (b : ε) : Method ε σ α := fun c => (.error b, c)

/-- The state as it stands. -/
def state : Method ε σ σ := fun c => (.ok c, c)

/-- Changes the state. -/
def change (f : σ → σ) : Method ε σ Unit := fun c => (.ok (), f c)

/-- What a state has at hand, or a break where it has nothing. -/
def need (b : ε) (get? : σ → Option α) : Method ε σ α := fun c =>
  match get? c with
  | some a => (.ok a, c)
  | none => (.error b, c)

/-- Runs a method and changes the state on every way out of it. -/
def leaving (f : σ → σ) (m : Method ε σ α) : Method ε σ α := fun c => ((m c).1, f (m c).2)

/-! ### Methods in a row -/

variable {m : Method ε σ α} {f : α → Method ε σ β} {g : α → β} {a : α} {b : ε} {c c' : σ}

/-- After a method that gives a result comes the next one. -/
theorem bind_of_ok (h : m c = (.ok a, c')) : (m >>= f) c = f a c' := by
  change (match m c with | (.ok a, c) => f a c | (.error b, c) => (.error b, c)) = _
  rw [h]

/-- After a method that is broken off comes nothing. -/
theorem bind_of_error (h : m c = (.error b, c')) : (m >>= f) c = (.error b, c') := by
  change (match m c with | (.ok a, c) => f a c | (.error b, c) => (.error b, c)) = _
  rw [h]

/-- What is at hand is the result. -/
theorem need_of_some {get? : σ → Option α} (h : get? c = some a) :
    (need b get? : Method ε σ α) c = (.ok a, c) := by
  rw [need, h]

/-- What is not at hand breaks a method off. -/
theorem need_of_none {get? : σ → Option α} (h : get? c = none) :
    (need b get? : Method ε σ α) c = (.error b, c) := by
  rw [need, h]

/-- A result is turned into another one. -/
theorem map_of_ok (h : m c = (.ok a, c')) : (g <$> m) c = (.ok (g a), c') := bind_of_ok h

/-- A break stays what it is. -/
theorem map_of_error (h : m c = (.error b, c')) : (g <$> m) c = (.error b, c') := bind_of_error h

end Method

end ExprFront
