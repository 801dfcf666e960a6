import PublisherConsole.Editing.TextBuffer
import PublisherConsole.Screen.Frame
import PublisherConsole.Screen.Theme

/-!
# The text area

A text area shows the rows of a text behind their numbers, scrolled so far that the row of the
cursor is the last one in sight, or not at all if it is in sight anyway. A focused text area
highlights the cell at the cursor: the cell behind what the characters before the cursor take.
-/

namespace PublisherConsole.Screen

/-- The cells of a row number and the blank behind it. -/
def gutterWidth : Nat := 5

/-- What the gutter shows in front of a row. -/
def gutterText (row : Nat) : String :=
  let digits := toString (row + 1)
  String.ofList (List.replicate (4 - digits.length) ' ') ++ digits ++ " "

/-- How a text is shown for editing. -/
structure TextArea where
  buffer : TextBuffer
  frame : Option Frame := none
  focused : Bool := true
  deriving Repr, Inhabited

namespace TextArea

/-- The first row in sight when there is room for `height` rows. -/
def firstRow (b : TextBuffer) (height : Nat) : Nat := b.position.row + 1 - height

/-- Draw rows of text below each other; `row` is the number of the first one. -/
def drawRows? (r : Rect) : List (List Char) → Nat → Buffer → Nat → Option Buffer
  | [], _, b, _ => some b
  | cs :: rest, row, b, y => do
    let y' ← coordinate? y
    let (b, _) ← b.drawText? r.x y' (gutterText row) gutterWidth Theme.gutter
    let (b, _) ←
      b.drawText? (r.x + gutterWidth) y' (String.ofList cs) (r.width - gutterWidth) Theme.text
    drawRows? r rest (row + 1) b (y + 1)

/-- The cell of the cursor: none if it is not in sight. -/
def cursorCell (t : TextBuffer) (r : Rect) : Option (Nat × Nat) :=
  let p := t.position
  let before := (t.row p.row).take p.column
  let x := r.x + gutterWidth + Unicode.textWidth before
  if x < r.right then some (x, r.y + (p.row - firstRow t r.height)) else none

/-- Draw the text into an area inside of a frame. -/
def drawText? (t : TextBuffer) (focused : Bool) (b : Buffer) (r : Rect) : Option Buffer :=
  if r.height < 1 || r.width ≤ gutterWidth then some b
  else do
    let _ ← coordinate? (r.x + r.width)
    let first := firstRow t r.height
    let b ← drawRows? r ((t.rows.drop first).take r.height) first b r.y
    match cursorCell t r with
    | some (x, y) => if focused then b.modify? x y (·.restyled Theme.cursor) else return b
    | none => return b

/-- Draw the text area. -/
def draw? (t : TextArea) (b : Buffer) (r : Rect) : Option Buffer :=
  match t.frame with
  | none => drawText? t.buffer t.focused b r
  | some f => (b.drawFrame? r f).bind fun b => drawText? t.buffer t.focused b r.inner

end TextArea

end PublisherConsole.Screen
