import PublisherConsole.Unicode.TextWidth

/-!
# Cutting texts to a width

A text that takes too many cells is cut off and ends in three dots, which count towards the width.
The cut is made character by character.
-/

namespace PublisherConsole.Text

/-- The characters from the start of a text that take no more than `room` cells, each counted on
its own. -/
def takeCells : Nat → List Char → List Char
  | _, [] => []
  | room, c :: cs =>
    if Unicode.charWidth c ≤ room then c :: takeCells (room - Unicode.charWidth c) cs else []

/-- A text cut to the given number of cells, if it takes more. -/
def truncate (text : String) (width : Nat) : String :=
  if Unicode.textWidth text.toList ≤ width then text
  else String.ofList (takeCells (width - 3) text.toList) ++ "..."

end PublisherConsole.Text
