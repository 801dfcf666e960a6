import PublisherConsole.Screen.Buffer
import PublisherConsole.Screen.Theme

/-!
# The status bar

The status bar fills the first row of its area: the mode, then the keys with what they do, and at
the right, one cell before the edge, a text of its own. The text is left out unless it leaves a
cell of the area free.
-/

namespace PublisherConsole.Screen

/-- A key and what it does. -/
structure KeyHint where
  key : String
  label : String
  enabled : Bool := true
  deriving DecidableEq, Repr, Inhabited

/-- The spans of a key hint. -/
def KeyHint.spans (h : KeyHint) : List Span :=
  if h.enabled then
    [⟨" " ++ h.key ++ " ", Theme.keyHint⟩, ⟨" " ++ h.label ++ " ", Theme.keyLabel⟩]
  else
    [⟨" " ++ h.key ++ " ", Theme.disabledKey⟩, ⟨" " ++ h.label ++ " ", Theme.disabledKey⟩]

/-- What a status bar shows. -/
structure StatusBar where
  mode : String
  hints : List KeyHint := []
  right : Option String := none
  deriving Repr, Inhabited

namespace StatusBar

/-- The mode and the keys. -/
def left (s : StatusBar) : Line :=
  ⟨[⟨" " ++ s.mode ++ " ", Theme.mode⟩, ⟨" ", Theme.statusBar⟩] ++
    s.hints.flatMap KeyHint.spans⟩

/-- Draw the row without the text at the right. -/
def drawLeft? (s : StatusBar) (b : Buffer) (r : Rect) : Option Buffer := do
  let ground (c : Cell) : Cell := { c with symbol := " ", background := Palette.statusBackground }
  let b ← b.modifyArea? ⟨r.x, r.y, min (r.x + r.width) maxCoordinate - r.x, 1⟩ ground
  b.drawLine? r.x r.y s.left r.width

/-- Draw the text at the right. Its width counts modulo the number of coordinates. -/
def drawRight? (b : Buffer) (r : Rect) (text : String) : Option Buffer :=
  let width := Unicode.textWidth text.toList % (maxCoordinate + 1)
  if width < r.width then do
    let right ← coordinate? (r.x + r.width)
    let (b, _) ← b.drawText? (right - width - 1) r.y text maxCoordinate Theme.statusBar
    return b
  else some b

/-- Draw the status bar. -/
def draw? (s : StatusBar) (b : Buffer) (r : Rect) : Option Buffer :=
  if r.height < 1 then some b
  else do
    let b ← s.drawLeft? b r
    match s.right with
    | none => return b
    | some text => drawRight? b r text

end StatusBar

end PublisherConsole.Screen
