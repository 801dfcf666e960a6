import PublisherConsole.Console.App
import PublisherConsole.Screen.Frame
import PublisherConsole.Screen.ServerSection
import PublisherConsole.Screen.StatusBar
import PublisherConsole.Screen.Wrap

/-!
# The overview

The overview shows both texts of the API below each other, the description as it is and the
overview as Markdown, and the servers below them once they are loaded. It can be scrolled.
-/

namespace PublisherConsole

/-- The key that opens the dialog of a text. -/
def TextField.shortcut : TextField → String
  | .description => "d"
  | .overview => "o"

namespace App

open Screen

/-- The heading of a text, with the button that opens its dialog. -/
def sectionHeading (a : App) (field : TextField) : Line :=
  ⟨[ ⟨field.label, Theme.heading⟩
   , ⟨"  ", Style.plain⟩
   , ⟨"[ " ++ a.record.buttonLabel ++ " (" ++ field.shortcut ++ ") ]",
      if a.access = .allowed then Theme.button else Theme.disabledButton⟩ ]⟩

/-- The lines of a text that is there, before they are wrapped. -/
def bodyLines (field : TextField) (content : String) (width : Nat) : List Line :=
  match field with
  | .description => (Text.splitLines content).map Line.ofText
  | .overview => Markdown.preview content width

/-- The lines of a text. -/
def sectionLines? (a : App) (field : TextField) (width : Nat) : Option (List Line) :=
  let content := a.record.content field
  let heading := a.sectionHeading field
  if content.isEmpty then
    some [heading, Line.styled ("No " ++ field.name ++ " provided") Theme.dim, Line.blank]
  else do
    let body ← wrapLines? (bodyLines field content width) width
    return heading :: body ++ [Line.blank]

/-- All lines of the overview. -/
def overviewLines? (a : App) (width : Nat) : Option (List Line) := do
  let description ← a.sectionLines? .description width
  let overview ← a.sectionLines? .overview width
  let servers :=
    match a.servers.visible? with
    | some directory => serverSection directory width
    | none => []
  return description ++ overview ++ servers

/-- The frame around the overview. -/
def overviewFrame (a : App) : Frame :=
  { title := Line.ofText (" " ++ a.record.name ++ " ")
    titleStyle := Theme.title
    borderStyle := Theme.border
    style := Theme.text }

/-- The status bar of the overview. -/
def overviewStatus (a : App) : StatusBar :=
  let allowed := a.access = .allowed
  { mode := "Overview"
    hints :=
      [ ⟨"d", "Description", allowed⟩, ⟨"o", "Overview", allowed⟩
      , { key := "r", label := "Reload" }, { key := "?", label := "Help" }
      , { key := "q", label := "Quit" } ]
    right := a.notification }

/-- Draw the overview. -/
def drawOverview? (a : App) (b : Buffer) (r : Rect) : Option Buffer := do
  let (main, status) := r.mainLayout
  let b ← b.drawFrame? main a.overviewFrame
  let lines ← a.overviewLines? main.inner.width
  let b ← b.drawParagraph? main.inner lines Theme.text (min a.scroll maxCoordinate)
  a.overviewStatus.draw? b status

end App

end PublisherConsole
