import PublisherConsole.Screen.Frame
import PublisherConsole.Screen.Paragraph
import PublisherConsole.Screen.Theme

/-!
# The help overlay

A framed list of the keys, drawn over the middle of the screen. The overlay stays two cells away
from every edge.
-/

namespace PublisherConsole.Screen

/-- The text of the overlay. -/
def helpText : String := "
  Overview
    d                 Edit description
    o                 Edit overview
    r                 Reload servers
    j/k or Up/Down    Scroll
    q                 Quit

  Editor
    Ctrl+S            Update content
    Esc               Cancel

  [Esc or ? to close]
"

/-- The frame of the overlay. -/
def helpFrame : Frame :=
  { title := Line.ofText " Help "
    titleStyle := Theme.title
    borderStyle := Theme.activeBorder
    style := Theme.text }

/-- Draw the overlay over an area. -/
def drawHelp? (b : Buffer) (r : Rect) : Option Buffer := do
  let panel := r.centered (min 50 (r.width - 4)) (min 17 (r.height - 4))
  let b ← b.clear? panel
  let b ← b.setStyle? panel Theme.text
  let b ← b.drawFrame? panel helpFrame
  b.drawParagraph? panel.inner ((Text.splitLines helpText).map Line.ofText) Theme.text 0

end PublisherConsole.Screen
