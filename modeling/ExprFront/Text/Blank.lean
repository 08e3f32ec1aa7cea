import ExprFront.Text.Interval

/-!
Blank characters: the characters that separate words without being part of one. Beside the
separators of the Unicode character database, version 14.0, these are the tab, the line and page
breaks and the four information separators of the control block.
-/

namespace ExprFront.Text

/-- The code points of the blank characters, as increasing intervals. -/
def blankIntervals : List (Nat × Nat) :=
  [(0x9, 0xD), (0x1C, 0x20), (0x85, 0x85), (0xA0, 0xA0), (0x1680, 0x1680), (0x2000, 0x200A),
   (0x2028, 0x2029), (0x202F, 0x202F), (0x205F, 0x205F), (0x3000, 0x3000)]

/-- Whether a character is blank. -/
def isBlank (c : Char) : Bool := within blankIntervals c.toNat

/-- The plain space is blank. -/
theorem isBlank_space : isBlank ' ' = true := by decide

/-- A line break is blank. -/
theorem isBlank_newline : isBlank '\n' = true := by decide

end ExprFront.Text
