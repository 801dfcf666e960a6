import PublisherConsole.Screen.Buffer

/-!
# Frames

A frame is a border of one cell around an area, with a title in its upper edge. The frame lays its
style over the whole area. In the title, a glyph without width is drawn with the one before it.
-/

namespace PublisherConsole.Screen

/-- A border with a title. -/
structure Frame where
  title : Line
  titleStyle : Style := Style.plain
  borderStyle : Style := Style.plain
  style : Style := Style.plain
  deriving Repr, Inhabited

namespace Buffer

/-- Draw the border of an area that has cells. -/
def drawBorder? (b : Buffer) (r : Rect) (style : Style) : Option Buffer := do
  let put (symbol : String) (c : Cell) : Cell := c.drawn symbol style
  let left := r.x
  let right := r.right - 1
  let top := r.y
  let bottom := r.bottom - 1
  let b ← b.modifyArea? ⟨left, top, 1, r.height⟩ (put "│")
  let b ← b.modifyArea? ⟨left, top, r.width, 1⟩ (put "─")
  let b ← b.modifyArea? ⟨right, top, 1, r.height⟩ (put "│")
  let b ← b.modifyArea? ⟨left, bottom, r.width, 1⟩ (put "─")
  let b ← b.modify? right bottom (put "┘")
  let b ← b.modify? right top (put "┐")
  let b ← b.modify? left bottom (put "└")
  b.modify? left top (put "┌")

/-- Draw the glyphs of a title span. The span starts at column `start` and ends before column
`stop`; `first` says that nothing of it was drawn yet. -/
def drawTitleGlyphs? (style : Style) (start stop : Nat) :
    List Glyph → Bool → Buffer → Nat → Nat → Option Buffer
  | [], _, b, _, _ => some b
  | g :: gs, first, b, x, y =>
    if min (x + g.width) maxCoordinate > stop then some b
    else do
      let symbol := String.ofList g.symbol
      let b ←
        if first then b.modify? x y (·.drawn symbol style)
        else if x = start then b.modify? x y (·.extended symbol style)
        else if g.width = 0 then b.modify? (x - 1) y (·.extended symbol style)
        else b.modify? x y (·.drawn symbol style)
      let b ← modifyRow? (fun _ => Cell.blank) (g.width - 1) b (x + 1) y
      drawTitleGlyphs? style start stop gs false b (x + g.width) y

/-- Draw the spans of a title; spans without width are left out. -/
def drawTitleSpans? (stop : Nat) : List Span → Buffer → Nat → Nat → Option Buffer
  | [], b, _, _ => some b
  | s :: ss, b, x, y =>
    if s.width = 0 then drawTitleSpans? stop ss b x y
    else if x ≥ stop then some b
    else do
      let glyphs := ((Unicode.clusters s.text.toList).filter (· ≠ ['\n'])).map Glyph.ofCluster
      let b ← drawTitleGlyphs? s.style x stop glyphs true b x y
      drawTitleSpans? stop ss b (min (x + s.width) maxCoordinate) y

/-- Draw a title into the upper edge of an area. -/
def drawTitle? (b : Buffer) (r : Rect) (title : Line) (style : Style) : Option Buffer :=
  let room : Rect := ⟨r.x + 1, r.y, r.width - 1 - 1, 1⟩
  if room.isEmpty then some b
  else do
    let room := { room with width := min (title.width % (maxCoordinate + 1)) room.width }
    let b ← b.setStyle? room style
    if room.isEmpty || title.width = 0 then some b
    else drawTitleSpans? room.right title.spans b room.x room.y

/-- Draw a frame around an area. -/
def drawFrame? (b : Buffer) (r : Rect) (f : Frame) : Option Buffer :=
  let r := r.intersection b.area
  if r.isEmpty then some b
  else do
    let b ← b.setStyle? r f.style
    let b ← b.drawBorder? r f.borderStyle
    b.drawTitle? r f.title f.titleStyle

end Buffer

end PublisherConsole.Screen
