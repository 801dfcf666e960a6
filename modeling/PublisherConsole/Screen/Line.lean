import PublisherConsole.Screen.Style
import PublisherConsole.Text.Rows
import PublisherConsole.Text.Total
import PublisherConsole.Unicode.TextWidth

/-!
# Styled lines

A line is a row of spans, each a text in one style.
-/

namespace PublisherConsole.Screen

/-- A text in one style. -/
structure Span where
  text : String
  style : Style := Style.plain
  deriving DecidableEq, Repr, Inhabited

/-- The cells that a span takes. -/
def Span.width (s : Span) : Nat := Unicode.textWidth s.text.toList

/-- A row of spans. -/
structure Line where
  spans : List Span
  deriving DecidableEq, Repr, Inhabited

namespace Line

/-- The line without spans. -/
def blank : Line := ⟨[]⟩

/-- Whether a line has no spans. -/
def isBlank (l : Line) : Bool := l.spans.isEmpty

/-- A line of one span. -/
def styled (text : String) (style : Style) : Line := ⟨[⟨text, style⟩]⟩

/-- The cells that the spans of a line take together. -/
def width (l : Line) : Nat := Text.total Span.width l.spans

/-- The text of a line. -/
def text (l : Line) : String := String.join (l.spans.map Span.text)

/-- The characters of a line, each with its style. -/
def chars (l : Line) : List (Char × Style) :=
  l.spans.flatMap fun s => s.text.toList.map fun c => (c, s.style)

end Line

/-- An unstyled line of a text; line ends inside it separate its spans. -/
def Line.ofText (text : String) : Line := ⟨(Text.splitLines text).map fun s => ⟨s, Style.plain⟩⟩

end PublisherConsole.Screen
