import ExprFront.Value

/-!
Depth limits. The depth of an expression is limited by a number that is at least one; it is usually
a whole number, but any number will do, and one that compares with nothing limits nothing.
-/

namespace ExprFront

/-- A number that limits the depth of expressions. -/
structure DepthLimit where
  value : Scalar
  deriving DecidableEq

/-- Why a value is no depth limit. -/
inductive LimitError where
  | notNumber (kindName : String)
  | belowOne (value : Scalar)
  deriving DecidableEq

namespace LimitError

/-- The words for a value that is no depth limit. If the value cannot be written, they are the words
for this. -/
def message : LimitError → String
  | .notNumber kindName => "'<' not supported between instances of '" ++ kindName ++ "' and 'int'"
  | .belowOne value =>
    match value.plain? with
    | some text => "max_depth must be at least 1, got " ++ text
    | none => Integer.tooLong

end LimitError

namespace DepthLimit

/-- The limit that is a given whole number. -/
def ofInt (n : Int) : DepthLimit := ⟨.int n⟩

/-- The limit where none is given. -/
def standard : DepthLimit := ofInt 64

/-- A value as a depth limit. -/
def ofValue? : Value → Except LimitError DepthLimit
  | .scalar s =>
    match s.quantity? with
    | some q => if q.below (.ofInt 1) then .error (.belowOne s) else .ok ⟨s⟩
    | none => .error (.notNumber s.kindName)
  | v => .error (.notNumber v.kindName)

/-- The text of the limit in messages. -/
def text? (limit : DepthLimit) : Option String := limit.value.plain?

/-- Whether a depth is within the limit. -/
def allows (limit : DepthLimit) (depth : Nat) : Bool :=
  match limit.value.quantity? with
  | some q => !q.below (.ofInt depth)
  | none => true

/-- Whether a count of open levels is beyond the limit. -/
def exceededBy (limit : DepthLimit) (levels : Int) : Bool :=
  match limit.value.quantity? with
  | some q => q.below (.ofInt levels)
  | none => false

/-- A limit allows the depths that are not beyond it. -/
theorem exceededBy_eq (limit : DepthLimit) (depth : Nat) :
    limit.exceededBy depth = !limit.allows depth := by
  rw [exceededBy, allows]
  cases limit.value.quantity? with
  | none => rfl
  | some q => exact (Bool.not_not _).symm

end DepthLimit

end ExprFront
