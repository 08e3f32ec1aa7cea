/-!
Lines of a text. A file may end its lines by a line feed, a carriage return or both; inside the
program a line ends by a line feed alone.
-/

namespace ExprFront.Text

/-- Every line end of the three kinds becomes a line feed. -/
def unifyLineEnds : List Char → List Char
  | [] => []
  | '\r' :: '\n' :: rest => '\n' :: unifyLineEnds rest
  | c :: rest => (if c = '\r' then '\n' else c) :: unifyLineEnds rest

/-- The lines of a text, each with its line feed; the last one may have none. -/
def lines : List Char → List (List Char)
  | [] => []
  | c :: rest =>
    if c = '\n' then [c] :: lines rest
    else
      match lines rest with
      | [] => [[c]]
      | line :: others => (c :: line) :: others

/-- The first line of a text with its line feed, if it has one, and the text after it. -/
def cutLine : List Char → List Char × List Char
  | [] => ([], [])
  | c :: rest =>
    if c = '\n' then ([c], rest)
    else
      let (line, after) := cutLine rest
      (c :: line, after)

/-- The lines of a text, put together again, are the text. -/
theorem flatten_lines (cs : List Char) : (lines cs).flatten = cs := by
  induction cs with
  | nil => rfl
  | cons c rest ih =>
    simp only [lines]
    split
    · simp [ih]
    · split
      next h => rw [h] at ih; simp [← ih]
      next line others h => rw [h] at ih; simp [← ih]

end ExprFront.Text
