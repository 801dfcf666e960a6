import PublisherConsole.Screen.Line
import PublisherConsole.Screen.Rect
import PublisherConsole.Unicode.Cluster

/-!
# The cells of a screen

A buffer holds one cell for each position of its area. Drawing outside the area is a fault: every
operation that touches cells gives none then, and is otherwise total.

Text is drawn one user-perceived character after the other. Those that hold a control character
and those that take no cell are left out, and drawing stops before the first one that does not fit.
-/

namespace PublisherConsole.Screen

/-- One cell: what it shows and how. -/
structure Cell where
  symbol : String
  foreground : Color
  background : Color
  emphasis : Emphasis
  deriving DecidableEq, Repr, Inhabited

namespace Cell

/-- The empty cell. -/
def blank : Cell := ⟨" ", .reset, .reset, .none⟩

/-- A cell with a style laid over it. -/
def restyled (c : Cell) (s : Style) : Cell :=
  { c with
    foreground := s.foreground.getD c.foreground
    background := s.background.getD c.background
    emphasis := c.emphasis.union s.emphasis }

/-- A cell with another symbol in the given style. -/
def drawn (c : Cell) (symbol : String) (s : Style) : Cell := { c with symbol }.restyled s

/-- A cell with more behind its symbol, in the given style. -/
def extended (c : Cell) (more : String) (s : Style) : Cell :=
  { c with symbol := c.symbol ++ more }.restyled s

end Cell

/-- The cells of an area, row by row. -/
structure Buffer where
  area : Rect
  cells : Array Cell
  deriving Repr, Inhabited

namespace Buffer

/-- The buffer whose cells are all the same. -/
def filled (area : Rect) (cell : Cell) : Buffer :=
  ⟨area, Array.replicate (area.width * area.height) cell⟩

/-- The empty buffer. -/
def blank (area : Rect) : Buffer := filled area Cell.blank

/-- Where the cell of a position is kept. -/
def index? (b : Buffer) (x y : Nat) : Option Nat :=
  if b.area.contains x y then some ((y - b.area.y) * b.area.width + (x - b.area.x)) else none

/-- The cell at a position. -/
def cell? (b : Buffer) (x y : Nat) : Option Cell := (b.index? x y).bind fun i => b.cells[i]?

/-- Change the cell at a position. -/
def modify? (b : Buffer) (x y : Nat) (f : Cell → Cell) : Option Buffer :=
  (b.index? x y).map fun i => { b with cells := b.cells.modify i f }

/-- Change `n` cells of a row from the given position on. -/
def modifyRow? (f : Cell → Cell) : Nat → Buffer → Nat → Nat → Option Buffer
  | 0, b, _, _ => some b
  | n + 1, b, x, y => (b.modify? x y f).bind fun b => modifyRow? f n b (x + 1) y

/-- Change the cells of `n` rows of the given width from the given position on. -/
def modifyRows? (f : Cell → Cell) (width : Nat) : Nat → Buffer → Nat → Nat → Option Buffer
  | 0, b, _, _ => some b
  | n + 1, b, x, y => (modifyRow? f width b x y).bind fun b => modifyRows? f width n b x (y + 1)

/-- Change every cell of an area. -/
def modifyArea? (b : Buffer) (r : Rect) (f : Cell → Cell) : Option Buffer :=
  modifyRows? f r.width r.height b r.x r.y

/-- Lay a style over an area, as far as it is in the buffer. -/
def setStyle? (b : Buffer) (r : Rect) (s : Style) : Option Buffer :=
  b.modifyArea? (b.area.intersection r) (·.restyled s)

/-- Empty every cell of an area. -/
def clear? (b : Buffer) (r : Rect) : Option Buffer := b.modifyArea? r fun _ => Cell.blank

/-- A user-perceived character with its width in cells, as far as a coordinate can hold it. -/
structure Glyph where
  symbol : List Char
  width : Nat
  deriving DecidableEq, Repr, Inhabited

/-- The glyph of a user-perceived character. -/
def Glyph.ofCluster (symbol : List Char) : Glyph :=
  ⟨symbol, Unicode.textWidth symbol % (maxCoordinate + 1)⟩

/-- The glyphs of a text that are drawn at all. -/
def glyphs (text : String) : List Glyph :=
  (((Unicode.clusters text.toList).filter fun g => !g.any Unicode.isControl).map
    Glyph.ofCluster).filter fun g => g.width > 0

/-- Draw glyphs from a position on, as long as they fit in the given number of cells; the answer
has the column behind the last one. The cells hidden by a wide glyph are emptied. -/
def drawGlyphs? (style : Style) : List Glyph → Nat → Buffer → Nat → Nat → Option (Buffer × Nat)
  | [], _, b, x, _ => some (b, x)
  | g :: gs, room, b, x, y =>
    if g.width ≤ room then do
      let b ← b.modify? x y (·.drawn (String.ofList g.symbol) style)
      let b ← modifyRow? (fun _ => Cell.blank) (g.width - 1) b (x + 1) y
      drawGlyphs? style gs (room - g.width) b (x + g.width) y
    else some (b, x)

/-- Draw a text over at most `room` cells. -/
def drawText? (b : Buffer) (x y : Nat) (text : String) (room : Nat) (style : Style) :
    Option (Buffer × Nat) :=
  drawGlyphs? style (glyphs text) (min (b.area.right - x) room) b x y

/-- Draw spans one behind the other over at most `room` cells. -/
def drawSpans? : List Span → Nat → Buffer → Nat → Nat → Option Buffer
  | [], _, b, _, _ => some b
  | s :: ss, room, b, x, y =>
    if room = 0 then some b
    else do
      let (b, behind) ← b.drawText? x y s.text room s.style
      drawSpans? ss (room - (behind - x)) b behind y

/-- Draw a line over at most `room` cells. -/
def drawLine? (b : Buffer) (x y : Nat) (l : Line) (room : Nat) : Option Buffer :=
  drawSpans? l.spans room b x y

/-- The rows of a buffer. -/
def rows (b : Buffer) : List (List Cell) :=
  (List.range b.area.height).map fun y =>
    (b.cells.extract (y * b.area.width) ((y + 1) * b.area.width)).toList

end Buffer

end PublisherConsole.Screen
