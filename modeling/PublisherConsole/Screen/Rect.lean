/-!
# Areas of the screen

An area is a rectangle of cells. Coordinates run up to 65535, so `Rect.new` cuts off what would
reach beyond; `coordinate?` says whether a number is one.

The main screen gives its last row to the status bar unless it has three rows or fewer. The dialog
has a header of three rows above two panes that share the width, the left one getting the odd cell.
-/

namespace PublisherConsole.Screen

/-- The largest coordinate of a cell border. -/
def maxCoordinate : Nat := 65535

/-- A number as a coordinate, if it is small enough. -/
def coordinate? (n : Nat) : Option Nat := if n ≤ maxCoordinate then some n else none

/-- A rectangle of cells. -/
structure Rect where
  x : Nat
  y : Nat
  width : Nat
  height : Nat
  deriving DecidableEq, Repr, Inhabited

namespace Rect

/-- The rectangle of a corner and a size, cut off at the largest coordinate. -/
def new (x y width height : Nat) : Rect :=
  ⟨x, y, min width (maxCoordinate - x), min height (maxCoordinate - y)⟩

/-- The column behind the rectangle. -/
def right (r : Rect) : Nat := r.x + r.width

/-- The row below the rectangle. -/
def bottom (r : Rect) : Nat := r.y + r.height

/-- Whether a rectangle has no cells. -/
def isEmpty (r : Rect) : Bool := r.width = 0 || r.height = 0

/-- Whether a cell lies in a rectangle. -/
def contains (r : Rect) (x y : Nat) : Bool :=
  r.x ≤ x && x < r.right && r.y ≤ y && y < r.bottom

/-- The cells that two rectangles share. -/
def intersection (a b : Rect) : Rect :=
  let x := max a.x b.x
  let y := max a.y b.y
  ⟨x, y, min a.right b.right - x, min a.bottom b.bottom - y⟩

/-- What a border of one cell on every side leaves of a rectangle. -/
def inner (r : Rect) : Rect :=
  ⟨min (r.x + 1) r.right, min (r.y + 1) r.bottom, r.width - 1 - 1, r.height - 1 - 1⟩

/-- The middle of a rectangle, as far as the given size fits. -/
def centered (r : Rect) (width height : Nat) : Rect :=
  new (r.x + (r.width - width) / 2) (r.y + (r.height - height) / 2) (min width r.width)
    (min height r.height)

/-- The upper `n` rows of a rectangle and the others. -/
def splitRows (r : Rect) (n : Nat) : Rect × Rect :=
  (⟨r.x, r.y, r.width, n⟩, ⟨r.x, r.y + n, r.width, r.height - n⟩)

/-- The left `n` columns of a rectangle and the others. -/
def splitColumns (r : Rect) (n : Nat) : Rect × Rect :=
  (⟨r.x, r.y, n, r.height⟩, ⟨r.x + n, r.y, r.width - n, r.height⟩)

/-- The main part of the screen and the row of the status bar. -/
def mainLayout (r : Rect) : Rect × Rect :=
  r.splitRows (if r.height ≤ 3 then r.height else r.height - 1)

/-- The three parts of the dialog. -/
structure DialogLayout where
  header : Rect
  editor : Rect
  preview : Rect
  deriving DecidableEq, Repr, Inhabited

/-- The parts of the dialog: the panes keep three rows when there are fewer than six. -/
def dialogLayout (r : Rect) : DialogLayout :=
  let (header, body) := r.splitRows (min 3 (r.height - min 3 r.height))
  let (editor, preview) := body.splitColumns ((r.width + 1) / 2)
  ⟨header, editor, preview⟩

/-- The width of the preview inside its border, for a terminal of the given size. -/
def previewWidth (r : Rect) : Nat := r.mainLayout.1.dialogLayout.preview.width - 2

end Rect

end PublisherConsole.Screen
