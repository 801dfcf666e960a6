import PublisherConsole.Markdown.Render
import PublisherConsole.Markdown.Stream

/-!
# Showing a Markdown text

The whole way from a text to its lines on the screen.
-/

namespace PublisherConsole.Markdown

/-- The lines of a text in the given styles. -/
def render (text : String) (width : Nat) (styles : Styles) : List Screen.Line :=
  renderEvents (events text) width styles

/-- The lines of a text in the styles of the console. -/
def preview (text : String) (width : Nat) : List Screen.Line := render text width Styles.console

end PublisherConsole.Markdown
