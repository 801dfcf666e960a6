import PublisherConsole.Text.Rows
import PublisherConsole.Text.Total

/-!
# Text with a cursor

The text being edited and the cursor, which stands in front of the character with its number, or
behind the last one. Rows end at line feeds; rows and columns count from zero, in characters.
-/

namespace PublisherConsole

/-- A text and a cursor in it. -/
structure TextBuffer where
  chars : List Char
  cursor : Nat
  deriving DecidableEq, Repr, Inhabited

namespace TextBuffer

/-- The buffer without text. -/
def empty : TextBuffer := ⟨[], 0⟩

/-- A text with the cursor behind it. -/
def ofText (text : String) : TextBuffer := ⟨text.toList, text.toList.length⟩

/-- The text of a buffer. -/
def text (b : TextBuffer) : String := String.ofList b.chars

/-- Whether there is no text. -/
def isEmpty (b : TextBuffer) : Bool := b.chars.isEmpty

/-- Write characters at the cursor, which moves behind them. -/
def insertAll (b : TextBuffer) (cs : List Char) : TextBuffer :=
  ⟨b.chars.take b.cursor ++ cs ++ b.chars.drop b.cursor, b.cursor + cs.length⟩

/-- Write a character at the cursor. -/
def insert (b : TextBuffer) (c : Char) : TextBuffer := b.insertAll [c]

/-- Remove the character in front of the cursor. -/
def backspace (b : TextBuffer) : TextBuffer :=
  if b.cursor = 0 then b else ⟨b.chars.eraseIdx (b.cursor - 1), b.cursor - 1⟩

/-- Remove the character behind the cursor. -/
def delete (b : TextBuffer) : TextBuffer :=
  if b.cursor < b.chars.length then { b with chars := b.chars.eraseIdx b.cursor } else b

/-- Move to the previous character. -/
def moveLeft (b : TextBuffer) : TextBuffer := { b with cursor := b.cursor - 1 }

/-- Move to the next character. -/
def moveRight (b : TextBuffer) : TextBuffer :=
  { b with cursor := min (b.cursor + 1) b.chars.length }

/-- A row and a column. -/
structure Position where
  row : Nat
  column : Nat
  deriving DecidableEq, Repr, Inhabited

/-- The position behind one more character. -/
def Position.after (p : Position) (c : Char) : Position :=
  if c = '\n' then ⟨p.row + 1, 0⟩ else ⟨p.row, p.column + 1⟩

/-- Where the cursor stands. -/
def position (b : TextBuffer) : Position := (b.chars.take b.cursor).foldl Position.after ⟨0, 0⟩

/-- The rows of the text. -/
def rows (b : TextBuffer) : List (List Char) := Text.splitRows b.chars

/-- How many rows there are. -/
def rowCount (b : TextBuffer) : Nat := b.rows.length

/-- The number of the first character of a row. -/
def rowStart (b : TextBuffer) (row : Nat) : Nat := Text.total (·.length + 1) (b.rows.take row)

/-- The characters of a row. -/
def row (b : TextBuffer) (row : Nat) : List Char := b.rows.getD row []

/-- How many characters a row has. -/
def rowLength (b : TextBuffer) (row : Nat) : Nat := (b.row row).length

/-- Put the cursor into a row, in the given column or at the end of a shorter row. -/
def moveTo (b : TextBuffer) (row column : Nat) : TextBuffer :=
  { b with cursor := b.rowStart row + min column (b.rowLength row) }

/-- Move to the start of the row. -/
def moveHome (b : TextBuffer) : TextBuffer := { b with cursor := b.rowStart b.position.row }

/-- Move to the end of the row. -/
def moveEnd (b : TextBuffer) : TextBuffer :=
  { b with cursor := b.rowStart b.position.row + b.rowLength b.position.row }

/-- Move to the row above. -/
def moveUp (b : TextBuffer) : TextBuffer :=
  if b.position.row = 0 then b else b.moveTo (b.position.row - 1) b.position.column

/-- Move to the row below. -/
def moveDown (b : TextBuffer) : TextBuffer :=
  if b.position.row + 1 < b.rowCount then b.moveTo (b.position.row + 1) b.position.column else b

end TextBuffer

end PublisherConsole
