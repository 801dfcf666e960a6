import PublisherConsole.Screen.Style

/-!
# The theme of the console

The palette and the styles of everything that the console shows. Only the title, the borders and
most of the Markdown styles leave the background open.
-/

namespace PublisherConsole.Screen

namespace Palette

/-- The background of the screen. -/
def background : Color := .rgb 30 30 40

/-- The colour of text. -/
def foreground : Color := .rgb 220 220 230

/-- The colour of secondary text. -/
def dim : Color := .rgb 140 140 160

/-- The background of what stands out from the screen. -/
def surface : Color := .rgb 45 45 60

/-- The main accent. -/
def accent : Color := .rgb 130 170 255

/-- The second accent. -/
def secondary : Color := .rgb 180 150 240

/-- The background of the status bar. -/
def statusBackground : Color := .rgb 45 45 60

/-- The background of the keys in the status bar. -/
def statusKeyBackground : Color := .rgb 70 90 140

/-- The colour of warnings. -/
def warning : Color := .rgb 240 200 100

/-- The colour of errors. -/
def error : Color := .rgb 240 100 100

/-- The colour of borders. -/
def border : Color := .rgb 80 80 100

/-- The colour of the border in use. -/
def activeBorder : Color := .rgb 130 170 255

end Palette

namespace Theme

/-- The style of text. -/
def text : Style := .colors Palette.foreground Palette.background

/-- The style of secondary text. -/
def dim : Style := .colors Palette.dim Palette.background

/-- The style of section headings. -/
def heading : Style := (Style.colors Palette.accent Palette.background).strong

/-- The style of headings below those. -/
def subtitle : Style := (Style.colors Palette.foreground Palette.background).strong

/-- The style of warnings. -/
def warning : Style := .colors Palette.warning Palette.background

/-- The style of errors. -/
def error : Style := .colors Palette.error Palette.background

/-- The style of frame titles. -/
def title : Style := (Style.ink Palette.accent).strong

/-- The style of a button. -/
def button : Style := (Style.colors Palette.accent Palette.surface).strong

/-- The style of a button that does nothing. -/
def disabledButton : Style := (Style.colors Palette.dim Palette.background).struck

/-- The style of a protocol in front of its location. -/
def chip : Style := (Style.colors Palette.background Palette.accent).strong

/-- The style of line numbers. -/
def gutter : Style := .colors Palette.border Palette.background

/-- The style of the cell under the cursor. -/
def cursor : Style := .colors Palette.background Palette.foreground

/-- The style of a key in the status bar. -/
def keyHint : Style := (Style.colors Palette.foreground Palette.statusKeyBackground).strong

/-- The style of what a key does. -/
def keyLabel : Style := .colors Palette.foreground Palette.statusBackground

/-- The style of a key and its label when the key does nothing. -/
def disabledKey : Style := .colors Palette.dim Palette.statusBackground

/-- The style of the status bar. -/
def statusBar : Style := .colors Palette.foreground Palette.statusBackground

/-- The style of the mode in the status bar. -/
def mode : Style := .colors Palette.background Palette.accent

/-- The style of borders. -/
def border : Style := .ink Palette.border

/-- The style of the border in use. -/
def activeBorder : Style := .ink Palette.activeBorder

end Theme

/-- The frames of the spinner. -/
def spinnerFrames : List String := ["|", "/", "-", "\\"]

/-- The frame of the spinner at a tick. -/
def spinner (tick : Nat) : String := spinnerFrames.getD (tick % spinnerFrames.length) "|"

end PublisherConsole.Screen
