import PublisherConsole.Console.App
import PublisherConsole.Screen.Frame
import PublisherConsole.Screen.Paragraph
import PublisherConsole.Screen.StatusBar
import PublisherConsole.Screen.TextArea
import PublisherConsole.Screen.Wrap

/-!
# The dialog

The dialog shows the Markdown source at the left and what it looks like at the right. Its header
has the buttons, and behind them the save that is under way or the message of one that failed.
-/

namespace PublisherConsole.App

open Screen

/-- The spans of the header. -/
def headerLine (a : App) (s : Session) : Line :=
  let button := if s.isSaving then Theme.disabledButton else Theme.button
  let state : List Span :=
    if s.isSaving then [⟨"  " ++ spinner a.ticks ++ " Saving...", Theme.warning⟩]
    else
      match s.lastError? with
      | some message => [⟨"  Save failed: " ++ message, Theme.error⟩]
      | none => []
  ⟨[⟨"[ Update Content ]", button⟩, ⟨"  ", Style.plain⟩, ⟨"[ Cancel ]", button⟩] ++ state⟩

/-- Draw the header; without a session there is none. -/
def drawHeader? (a : App) (b : Buffer) (r : Rect) : Option Buffer :=
  match a.activeSession? with
  | none => some b
  | some s => do
    let frame : Frame :=
      { title := Line.ofText (" " ++ s.title a.record.name ++ " ")
        titleStyle := Theme.title
        borderStyle := Theme.border
        style := Theme.text }
    let b ← b.drawFrame? r frame
    b.drawParagraph? r.inner [a.headerLine s] Style.plain 0

/-- The text area of the dialog; during a save it has no cursor. -/
def inputArea (a : App) : TextArea :=
  { buffer := a.input
    frame := some
      { title := Line.ofText " Markdown "
        titleStyle := Theme.title
        borderStyle := Theme.activeBorder
        style := Theme.text }
    focused := !a.isSaving }

/-- The frame around the preview. -/
def previewFrame : Frame :=
  { title := Line.ofText " Preview "
    titleStyle := Theme.title
    borderStyle := Theme.border
    style := Theme.text }

/-- The lines of the preview. -/
def previewLines? (a : App) (width : Nat) : Option (List Line) :=
  if a.input.isEmpty then some [Line.styled "Nothing to preview" Theme.dim]
  else wrapLines? a.preview width

/-- Draw the preview. -/
def drawPreview? (a : App) (b : Buffer) (r : Rect) : Option Buffer := do
  let b ← b.drawFrame? r previewFrame
  let lines ← a.previewLines? r.inner.width
  b.drawParagraph? r.inner lines Theme.text 0

/-- The status bar of the dialog: at the right the notification, or else the place of the
cursor. -/
def editorStatus (a : App) : StatusBar :=
  let p := a.input.position
  let place := "Ln " ++ toString (p.row + 1) ++ ", Col " ++ toString (p.column + 1)
  { mode := "Edit"
    hints := [⟨"Ctrl+S", "Update", !a.isSaving⟩, ⟨"Esc", "Cancel", !a.isSaving⟩]
    right := some (a.notification.getD place) }

/-- Draw the dialog. -/
def drawEditor? (a : App) (b : Buffer) (r : Rect) : Option Buffer := do
  let (main, status) := r.mainLayout
  let parts := main.dialogLayout
  let b ← a.drawHeader? b parts.header
  let b ← a.inputArea.draw? b parts.editor
  let b ← a.drawPreview? b parts.preview
  a.editorStatus.draw? b status

end PublisherConsole.App
