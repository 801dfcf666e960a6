import PublisherConsole.Screen.Buffer

/-!
# Paragraphs

A paragraph shows lines below each other, one row each, cut off at the right edge. Unlike plain
text it also shows control characters, one cell each. A glyph that is wider than the whole
paragraph is left out, and nothing is shown behind the first glyph that does not fit any more.
-/

namespace PublisherConsole.Screen

/-- A glyph in its style. -/
structure StyledGlyph where
  glyph : Buffer.Glyph
  style : Style
  deriving DecidableEq, Repr, Inhabited

/-- The glyphs of a line; line feeds are no glyphs. -/
def Line.glyphs (l : Line) : List StyledGlyph :=
  l.spans.flatMap fun s =>
    ((Unicode.clusters s.text.toList).filter (· ≠ ['\n'])).map fun g => ⟨.ofCluster g, s.style⟩

/-- The glyphs that fit in a row of the given width, of which `used` cells are taken. -/
def fitGlyphs (width : Nat) : Nat → List StyledGlyph → List StyledGlyph
  | _, [] => []
  | used, g :: gs =>
    if g.glyph.width > width then fitGlyphs width used gs
    else if used + g.glyph.width > width then []
    else g :: fitGlyphs width (used + g.glyph.width) gs

namespace Buffer

/-- Draw the glyphs of one row. -/
def drawRow? : List StyledGlyph → Buffer → Nat → Nat → Option Buffer
  | [], b, _, _ => some b
  | g :: gs, b, x, y =>
    if g.glyph.width = 0 then drawRow? gs b x y
    else
      (b.modify? x y (·.drawn (String.ofList g.glyph.symbol) g.style)).bind fun b =>
        drawRow? gs b (x + g.glyph.width) y

/-- Draw lines below each other, one row each. -/
def drawRows? (width : Nat) : List Line → Buffer → Nat → Nat → Option Buffer
  | [], b, _, _ => some b
  | l :: ls, b, x, y =>
    (drawRow? (fitGlyphs width 0 l.glyphs) b x y).bind fun b => drawRows? width ls b x (y + 1)

/-- Draw a paragraph: lay its style over the area and show its lines without the first `scroll`.
The number of the row behind the last one, counted with the hidden ones, must be a coordinate. -/
def drawParagraph? (b : Buffer) (r : Rect) (lines : List Line) (style : Style) (scroll : Nat) :
    Option Buffer := do
  let b ← b.setStyle? r style
  if r.isEmpty || lines.isEmpty then some b
  else
    let _ ← coordinate? (r.height + scroll)
    drawRows? r.width ((lines.drop scroll).take r.height) b r.x r.y

end Buffer

end PublisherConsole.Screen
