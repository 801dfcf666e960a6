import PublisherConsole.Proofs.Editing.Halves
import PublisherConsole.Proofs.Screen.Frame
import PublisherConsole.Screen.TextArea

/-!
# A text area shows the rows around its cursor

A text area can be drawn into every area that lies in the buffer, however small it is and wherever
the cursor stands, and shows a window of rows with the row of the cursor in it.

* `shown` has what the cells show that a text is drawn over;
* `exists_drawRows` and `exists_drawText`: rows are drawn below each other, each painted behind its
  number (`rowPaint`), and then the cell of the cursor is highlighted;
* `firstRow_le`, `position_row_lt` and `firstRow_eq_zero`: where the window lies.

The main statement is `rows_are_shown_around_the_cursor`.
-/

namespace PublisherConsole.Screen

namespace Buffer

variable {b b' : Buffer} {x y : Nat}

/-! ### Symbols -/

/-- What a cell shows. -/
def symbol? (b : Buffer) (x y : Nat) : Option String := (b.cell? x y).map Cell.symbol

/-- A buffer that has a cell for each position of an area, and no others. -/
def Covers (b : Buffer) (r : Rect) : Prop := b.area = r ∧ b.cells.size = r.width * r.height

theorem Painted.covers {paint : Nat → Nat → Cell → Cell} {r : Rect} (h : b.Painted b' paint)
    (hb : b.Covers r) : b'.Covers r := ⟨h.area.trans hb.1, h.size.trans hb.2⟩

/-- There is a cell at each position of a covered area. -/
theorem Covers.exists_cell {r : Rect} (h : b.Covers r) (hxy : r.contains x y = true) :
    ∃ c, b.cell? x y = some c := by
  obtain ⟨rfl, hsize⟩ := h
  obtain ⟨⟨hx, hx'⟩, hy, hy'⟩ := Rect.contains_iff.1 hxy
  rw [cell?, index?, if_pos hxy, Option.bind_some]
  refine ⟨_, Array.getElem?_eq_getElem ?_⟩
  calc (y - b.area.y) * b.area.width + (x - b.area.x)
      < (y - b.area.y) * b.area.width + b.area.width := by omega
    _ = (y - b.area.y + 1) * b.area.width := (Nat.succ_mul _ _).symm
    _ ≤ b.area.height * b.area.width := Nat.mul_le_mul_right _ (by omega)
    _ = b.cells.size := by rw [hsize, Nat.mul_comm]

/-- The symbols of the cells that a glyph takes. -/
def Glyph.symbols (g : Glyph) : List String :=
  String.ofList g.symbol :: List.replicate (g.width - 1) " "

/-- What the cells show that a text is drawn over, as far as there is room. -/
def shown (room : Nat) (text : String) : List String :=
  (clip room (glyphs text)).flatMap Glyph.symbols

/-- Plain text is shown one character for each cell. -/
theorem shown_of_isPlain {cs : List Char} (h : ∀ c ∈ cs, Unicode.IsPlain c) (room : Nat) :
    shown room (String.ofList cs) = (cs.take room).map String.singleton := by
  rw [shown, glyphs_of_isPlain h, clip_of_isPlain, List.flatMap_map, List.map_eq_flatMap]
  refine List.flatMap_congr fun c _ => ?_
  simp [Glyph.symbols]

theorem map_symbol_strokes (style : Style) (gs : List Glyph) (c : Cell) :
    (gs.flatMap (Glyph.strokes style)).map (fun f => (f c).symbol) = gs.flatMap Glyph.symbols := by
  induction gs with
  | nil => rfl
  | cons g gs ih =>
    rw [List.flatMap_cons, List.map_append, ih, List.flatMap_cons, Glyph.strokes, Glyph.symbols,
      List.map_cons, List.map_replicate]
    rfl

/-- A text that is drawn over a cell replaces its symbol. -/
theorem symbol_strip (style : Style) (gs : List Glyph) {k : Nat} (c : Cell) :
    (strip x y (gs.flatMap (Glyph.strokes style)) (x + k) y c).symbol =
      (gs.flatMap Glyph.symbols)[k]?.getD c.symbol := by
  rw [strip, if_pos ⟨rfl, Nat.le_add_right _ _⟩, Nat.add_sub_cancel_left,
    ← map_symbol_strokes style gs c, List.getElem?_map]
  cases (gs.flatMap (Glyph.strokes style))[k]? <;> rfl

/-- The cells that glyphs are drawn over are as many as the glyphs take. -/
theorem length_strokes {style : Style} {gs : List Glyph} (h : ∀ g ∈ gs, 0 < g.width) :
    (gs.flatMap (Glyph.strokes style)).length = span gs := by
  induction gs with
  | nil => rfl
  | cons g gs ih =>
    have hg := h g (by simp)
    rw [List.flatMap_cons, List.length_append, ih fun g hg => h g (by simp [hg]), span_cons,
      Glyph.strokes, List.length_cons, List.length_replicate]
    omega

end Buffer

namespace TextArea

open Buffer

variable {t : TextBuffer} {b b' : Buffer} {r : Rect} {x y : Nat}

/-! ### The window of rows -/

theorem firstRow_le {height : Nat} (h : 1 ≤ height) : firstRow t height ≤ t.position.row := by
  rw [firstRow]
  omega

theorem position_row_lt (t : TextBuffer) (height : Nat) :
    t.position.row < firstRow t height + height := by
  rw [firstRow]
  omega

/-- The window starts at the first row when the row of the cursor is in sight from there. -/
theorem firstRow_eq_zero {height : Nat} (h : t.position.row < height) : firstRow t height = 0 := by
  rw [firstRow]
  omega

/-! ### Rows -/

/-- What drawing a row and its number does to a cell of that row. -/
def rowPaint (r : Rect) (row : Nat) (cs : List Char) (x y : Nat) (c : Cell) : Cell :=
  strip (r.x + gutterWidth) y
    ((clip (r.width - gutterWidth) (glyphs (String.ofList cs))).flatMap
      (Glyph.strokes Theme.text)) x y
    (strip r.x y ((clip gutterWidth (glyphs (gutterText row))).flatMap
      (Glyph.strokes Theme.gutter)) x y c)

/-- What drawing rows from `top` on does to a cell; `row` is the number of the first one. -/
def rowsPaint (r : Rect) (rows : List (List Char)) (row top : Nat) (x y : Nat) (c : Cell) : Cell :=
  if top ≤ y then (rows[y - top]?.map fun cs => rowPaint r (row + (y - top)) cs x y c).getD c else c

/-- A row and its number are drawn in their own row of cells. -/
theorem rowsPaint_cons (cs : List Char) (rows : List (List Char)) (row top x y : Nat) (c : Cell) :
    rowsPaint r (cs :: rows) row top x y c =
      rowsPaint r rows (row + 1) (top + 1) x y (if y = top then rowPaint r row cs x y c else c) := by
  unfold rowsPaint
  by_cases hy : y = top
  · subst hy
    simp
  · by_cases hlt : top ≤ y
    · have hnext : y - top = y - (top + 1) + 1 := by omega
      rw [if_pos hlt, if_pos (by omega), if_neg hy, hnext, List.getElem?_cons_succ,
        Nat.add_comm (y - (top + 1)) 1, ← Nat.add_assoc]
    · rw [if_neg hlt, if_neg (by omega), if_neg hy]

/-- **Rows are drawn below each other**, if the area lies in the buffer and they fit into it. -/
theorem exists_drawRows (hr : r.IsIn b.area) (hbottom : r.bottom ≤ maxCoordinate)
    (hwidth : gutterWidth < r.width) (rows : List (List Char)) (row : Nat)
    (hy : r.y ≤ y ∧ y + rows.length ≤ r.bottom) :
    ∃ b', drawRows? r rows row b y = some b' ∧ b.Painted b' (rowsPaint r rows row y) := by
  induction rows generalizing b row y with
  | nil =>
    exact ⟨b, rfl, (Painted.refl b).congr fun x' y' c => by simp [rowsPaint]⟩
  | cons cs rows ih =>
    rw [List.length_cons] at hy
    have hcells {b : Buffer} (hr : r.IsIn b.area) {x n : Nat} (hx : r.x ≤ x ∧ x + n ≤ r.right) :
        ∀ i < n, b.area.contains (x + i) y = true := fun i hi =>
      hr.contains (Rect.contains_iff.2 (by simp only [Rect.right, Rect.bottom] at *; omega))
    obtain ⟨b₁, hgutter, painted⟩ := exists_drawText (gutterText row) Theme.gutter
      (hcells hr (x := r.x) (n := gutterWidth) (by rw [Rect.right]; omega))
    obtain ⟨b₂, htext, painted'⟩ := exists_drawText (String.ofList cs) Theme.text
      (hcells (painted.area ▸ hr) (x := r.x + gutterWidth) (n := r.width - gutterWidth)
        (by rw [Rect.right]; omega))
    obtain ⟨b₃, hrest, painted''⟩ := ih (painted'.area ▸ painted.area ▸ hr) (row + 1) (y := y + 1)
      (by omega)
    have hcoordinate : coordinate? y = some y := if_pos (by omega)
    refine ⟨b₃, ?_, ((painted.trans painted').trans painted'').congr fun x' y' c => ?_⟩
    · rw [drawRows?, hcoordinate]
      simp only [Option.bind_eq_bind, Option.bind_some, hgutter, htext, hrest]
    · rw [rowsPaint_cons]
      by_cases hrow : y' = y
      · subst hrow
        rw [if_pos rfl, rowPaint]
      · rw [if_neg hrow, strip_of_ne hrow, strip_of_ne hrow]

/-! ### The whole area -/

/-- The rows in sight. -/
def visibleRows (t : TextBuffer) (height : Nat) : List (List Char) :=
  (t.rows.drop (firstRow t height)).take height

theorem getElem?_visibleRows {height i : Nat} (h : i < height) :
    (visibleRows t height)[i]? = t.rows[firstRow t height + i]? := by
  rw [visibleRows, List.getElem?_take_of_lt h, List.getElem?_drop]

/-- The characters in front of the cursor in its row. -/
def beforeCursor (t : TextBuffer) : List Char := (t.row t.position.row).take t.position.column

/-- The cell of the cursor is as far behind the gutter as the characters in front of it are wide. -/
theorem cursorCell_eq_some_iff :
    cursorCell t r = some (x, y) ↔
      x < r.right ∧ r.x + gutterWidth + Unicode.textWidth (beforeCursor t) = x ∧
        r.y + (t.position.row - firstRow t r.height) = y := by
  rw [cursorCell, ← beforeCursor, Option.ite_none_right_eq_some, Option.some.injEq, Prod.mk.injEq]
  grind

/-- The cell of the cursor lies in the area. -/
theorem contains_cursorCell (hheight : 1 ≤ r.height) (h : cursorCell t r = some (x, y)) :
    r.contains x y = true := by
  have hrow := position_row_lt t r.height
  have hfirst := firstRow_le (t := t) hheight
  obtain ⟨hx, hx', hy⟩ := cursorCell_eq_some_iff.1 h
  rw [Rect.contains_iff]
  rw [Rect.right] at hx
  omega

/-- What drawing the text does to a cell, where there is room for it. -/
def textPaint (t : TextBuffer) (focused : Bool) (r : Rect) (x y : Nat) (c : Cell) : Cell :=
  let drawn := rowsPaint r (visibleRows t r.height) (firstRow t r.height) r.y x y c
  if focused = true ∧ cursorCell t r = some (x, y) then drawn.restyled Theme.cursor else drawn

/-- Whether there is room for a row, its number and a cell of its text. -/
def HasRoom (r : Rect) : Prop := 1 ≤ r.height ∧ gutterWidth < r.width

/-- **A text can be drawn into every area** inside the buffer. -/
theorem exists_drawText (hr : r.IsIn b.area) (hright : r.right ≤ maxCoordinate)
    (hbottom : r.bottom ≤ maxCoordinate) (t : TextBuffer) (focused : Bool) :
    ∃ b', drawText? t focused b r = some b' ∧
      (HasRoom r → b.Painted b' (textPaint t focused r)) ∧ (¬ HasRoom r → b' = b) := by
  unfold drawText?
  by_cases hroom : HasRoom r
  · obtain ⟨hheight, hwidth⟩ := hroom
    have hlength : (visibleRows t r.height).length ≤ r.height := List.length_take_le _ _
    obtain ⟨b₁, hrows, painted⟩ := exists_drawRows hr hbottom hwidth (visibleRows t r.height)
      (firstRow t r.height) (y := r.y) (by rw [Rect.bottom]; omega)
    have hcoordinate : coordinate? (r.x + r.width) = some (r.x + r.width) := if_pos hright
    have absent (h : ¬ HasRoom r) : False := h ⟨hheight, hwidth⟩
    rw [visibleRows] at hrows
    rw [if_neg (by simp; omega), hcoordinate]
    simp only [Option.bind_eq_bind, Option.bind_some, hrows]
    cases hcursor : cursorCell t r with
    | none =>
      exact ⟨b₁, rfl, fun _ => painted.congr fun x y c => by simp [textPaint, hcursor],
        fun h => (absent h).elim⟩
    | some cell =>
      obtain ⟨cx, cy⟩ := cell
      cases focused with
      | false =>
        exact ⟨b₁, rfl, fun _ => painted.congr fun x y c => by simp [textPaint],
          fun h => (absent h).elim⟩
      | true =>
        obtain ⟨b₂, hmodify, painted'⟩ := exists_modify
          (painted.area ▸ hr.contains (contains_cursorCell hheight hcursor))
          (·.restyled Theme.cursor)
        refine ⟨b₂, hmodify, fun _ => (painted.trans painted').congr fun x y c => ?_,
          fun h => (absent h).elim⟩
        simp only [textPaint, hcursor, true_and, Option.some.injEq, Prod.mk.injEq, eq_comm]
  · have hsmall : (r.height < 1 || r.width ≤ gutterWidth) = true := by
      rw [HasRoom] at hroom
      simp only [Bool.or_eq_true, decide_eq_true_eq]
      omega
    exact ⟨b, if_pos hsmall, fun h => absurd h hroom, fun _ => rfl⟩

/-- The area that is left for the text. -/
def inside (t : TextArea) (r : Rect) : Rect :=
  match t.frame with
  | none => r
  | some _ => r.inner

theorem isIn_inside (t : TextArea) (r : Rect) : (t.inside r).IsIn r := by
  rw [inside]
  split
  · exact .refl r
  · exact r.isIn_inner

/-- **A text area can be drawn into every area** inside the buffer: a frame that keeps the symbols
in what is left of the area, if there is one, and then the text. -/
theorem exists_draw (hr : r.IsIn b.area) (hright : r.right ≤ maxCoordinate)
    (hbottom : r.bottom ≤ maxCoordinate) (t : TextArea) :
    ∃ framed frame b', t.draw? b r = some b' ∧ b.Painted framed frame ∧
      (∀ x y c, (t.inside r).contains x y = true → (frame x y c).symbol = c.symbol) ∧
      (HasRoom (t.inside r) → framed.Painted b' (textPaint t.buffer t.focused (t.inside r))) ∧
      (¬ HasRoom (t.inside r) → b' = framed) := by
  obtain ⟨buffer, frame, focused⟩ := t
  cases frame with
  | none =>
    obtain ⟨b', hdraw, painted⟩ := exists_drawText hr hright hbottom buffer focused
    exact ⟨b, _, b', hdraw, .refl b, fun _ _ _ _ => rfl, painted⟩
  | some f =>
    obtain ⟨framed, hframe, paint, edges, -, symbols⟩ := exists_drawFrame hr hright f
    have hinner := r.isIn_inner
    have hin : r.inner.IsIn framed.area := by
      rw [edges.area]
      simp only [Rect.IsIn] at *
      omega
    obtain ⟨b', hdraw, painted⟩ := exists_drawText hin
      (by simp only [Rect.IsIn, Rect.right] at *; omega)
      (by simp only [Rect.IsIn, Rect.bottom] at *; omega) buffer focused
    exact ⟨framed, paint, b', by simpa [draw?, hframe] using hdraw, edges, symbols, painted⟩

/-! ### What is shown -/

/-- A text is shown from a position on, as far as there is room; the other cells of the room show
what they did before. -/
def ShowsText (b b' : Buffer) (x y room : Nat) (text : String) : Prop :=
  ∀ k < room, b'.symbol? (x + k) y = (shown room text)[k]?.or (b.symbol? (x + k) y)

theorem symbol_rowPaint_gutter (row : Nat) (cs : List Char) {k : Nat} (hk : k < gutterWidth)
    (c : Cell) :
    (rowPaint r row cs (r.x + k) y c).symbol =
      (shown gutterWidth (gutterText row))[k]?.getD c.symbol := by
  rw [rowPaint, strip, if_neg (by omega), symbol_strip, shown]

theorem symbol_rowPaint_text (row : Nat) (cs : List Char) (k : Nat) (c : Cell) :
    (rowPaint r row cs (r.x + gutterWidth + k) y c).symbol =
      (shown (r.width - gutterWidth) (String.ofList cs))[k]?.getD c.symbol := by
  have hgutter : ((clip gutterWidth (glyphs (gutterText row))).flatMap
      (Glyph.strokes Theme.gutter)).length ≤ gutterWidth := by
    rw [length_strokes fun g hg => width_pos_of_mem_glyphs ((prefix_clip _ _).subset hg)]
    exact span_clip_le _ _
  have hbehind : strip r.x y ((clip gutterWidth (glyphs (gutterText row))).flatMap
      (Glyph.strokes Theme.gutter)) (r.x + gutterWidth + k) y c = c := by
    rw [strip, if_pos ⟨rfl, by omega⟩, List.getElem?_eq_none (by omega), Option.getD_none, id]
  rw [rowPaint, symbol_strip, hbehind, shown]

/-- What the cells of a row in sight show does not depend on the cursor. -/
theorem symbol_textPaint (t : TextBuffer) (focused : Bool) {i : Nat} (hi : i < r.height)
    (c : Cell) :
    (textPaint t focused r x (r.y + i) c).symbol =
      ((t.rows[firstRow t r.height + i]?.map fun cs =>
        rowPaint r (firstRow t r.height + i) cs x (r.y + i) c).getD c).symbol := by
  have hdrawn : rowsPaint r (visibleRows t r.height) (firstRow t r.height) r.y x (r.y + i) c =
      (t.rows[firstRow t r.height + i]?.map fun cs =>
        rowPaint r (firstRow t r.height + i) cs x (r.y + i) c).getD c := by
    rw [rowsPaint, if_pos (Nat.le_add_right _ _), Nat.add_sub_cancel_left, getElem?_visibleRows hi]
  rw [textPaint, hdrawn]
  split <;> rfl

/-- A row is shown behind its number. -/
theorem showsText_of_row {framed : Buffer} {focused : Bool} (hroom : HasRoom r)
    (painted : framed.Painted b' (textPaint t focused r))
    (kept : ∀ x y, r.contains x y = true →
      ∃ c, framed.cell? x y = some c ∧ b.symbol? x y = some c.symbol)
    {i : Nat} (hi : i < r.height) {cs : List Char}
    (hrow : t.rows[firstRow t r.height + i]? = some cs) :
    ShowsText b b' r.x (r.y + i) gutterWidth (gutterText (firstRow t r.height + i)) ∧
      ShowsText b b' (r.x + gutterWidth) (r.y + i) (r.width - gutterWidth) (String.ofList cs) := by
  have hwidth := hroom.2
  refine ⟨fun k hk => ?_, fun k hk => ?_⟩
  · obtain ⟨c, hc, hsymbol⟩ := kept (r.x + k) (r.y + i) (Rect.contains_iff.2 (by omega))
    rw [symbol?, painted.cell, hc, hsymbol, Option.map_some, Option.map_some,
      symbol_textPaint t focused hi, hrow, Option.map_some, Option.getD_some,
      symbol_rowPaint_gutter _ _ hk]
    cases (shown gutterWidth (gutterText (firstRow t r.height + i)))[k]? <;> rfl
  · obtain ⟨c, hc, hsymbol⟩ :=
      kept (r.x + gutterWidth + k) (r.y + i) (Rect.contains_iff.2 (by omega))
    rw [symbol?, painted.cell, hc, hsymbol, Option.map_some, Option.map_some,
      symbol_textPaint t focused hi, hrow, Option.map_some, Option.getD_some,
      symbol_rowPaint_text]
    cases (shown (r.width - gutterWidth) (String.ofList cs))[k]? <;> rfl

/-- A row of the text is shown behind its number. -/
def ShowsRow (t : TextBuffer) (b b' : Buffer) (r : Rect) (row y : Nat) : Prop :=
  ShowsText b b' r.x y gutterWidth (gutterText row) ∧
    ShowsText b b' (r.x + gutterWidth) y (r.width - gutterWidth) (String.ofList (t.row row))

/-- The rows of the window are shown, and the cells below the last row show what they did before. -/
theorem exists_draw_shows (hb : b.Covers r) (hright : r.right ≤ maxCoordinate)
    (hbottom : r.bottom ≤ maxCoordinate) (t : TextArea) :
    ∃ b', t.draw? b r = some b' ∧ b'.Covers r ∧
      (HasRoom (t.inside r) → ∀ i < (t.inside r).height,
        let row := firstRow t.buffer (t.inside r).height + i
        (row < t.buffer.rowCount →
          ShowsRow t.buffer b b' (t.inside r) row ((t.inside r).y + i)) ∧
        (t.buffer.rowCount ≤ row → ∀ k < (t.inside r).width,
          b'.symbol? ((t.inside r).x + k) ((t.inside r).y + i) =
            b.symbol? ((t.inside r).x + k) ((t.inside r).y + i))) := by
  have hin : r.IsIn b.area := hb.1 ▸ .refl r
  obtain ⟨framed, frame, b', hdraw, hframe, symbols, painted, small⟩ :=
    exists_draw hin hright hbottom t
  generalize harea : t.inside r = area at *
  have kept (x y : Nat) (hxy : area.contains x y = true) :
      ∃ c, framed.cell? x y = some c ∧ b.symbol? x y = some c.symbol := by
    have hin : area.IsIn r := harea ▸ t.isIn_inside r
    obtain ⟨c, hc⟩ := hb.exists_cell (hin.contains hxy)
    refine ⟨frame x y c, by rw [hframe.cell, hc, Option.map_some], ?_⟩
    rw [symbol?, hc, Option.map_some, symbols x y c hxy]
  by_cases hroom : HasRoom area
  · have painted := painted hroom
    refine ⟨b', hdraw, painted.covers (hframe.covers hb), fun _ i hi => ⟨fun hrow => ?_,
      fun hbelow k hk => ?_⟩⟩
    · have hsome : t.buffer.rows[firstRow t.buffer area.height + i]? =
          some (t.buffer.row (firstRow t.buffer area.height + i)) := by
        rw [TextBuffer.row, List.getD_eq_getElem?_getD, List.getElem?_eq_getElem hrow,
          Option.getD_some]
      exact showsText_of_row hroom painted kept hi hsome
    · have hnone : t.buffer.rows[firstRow t.buffer area.height + i]? = none :=
        List.getElem?_eq_none hbelow
      obtain ⟨c, hc, hsymbol⟩ :=
        kept (area.x + k) (area.y + i) (Rect.contains_iff.2 (by omega))
      rw [symbol?, painted.cell, hc, hsymbol, Option.map_some, Option.map_some,
        symbol_textPaint t.buffer t.focused hi, hnone]
      rfl
  · exact ⟨b', hdraw, small hroom ▸ hframe.covers hb, fun h => absurd h hroom⟩

/-- **Rows are shown around the cursor.** Whatever the text, the cursor, the frame and the area are,
the text area can be drawn into a buffer that covers the area. Where there is room for it, it shows
the rows of a window, each behind its number and as far as there is room: the window has the row of
the cursor, and begins with the first row whenever the row of the cursor is in sight from there. The
cells below the last row show what they did before. -/
theorem rows_are_shown_around_the_cursor (t : TextArea) (x y width height : UInt16)
    (hb : b.Covers (Rect.new x.toNat y.toNat width.toNat height.toNat)) :
    let r := Rect.new x.toNat y.toNat width.toNat height.toNat
    let area := t.inside r
    let first := firstRow t.buffer area.height
    ∃ b', t.draw? b r = some b' ∧ b'.Covers r ∧
      (1 ≤ area.height ∧ gutterWidth < area.width →
        (first ≤ t.buffer.position.row ∧ t.buffer.position.row < first + area.height ∧
          t.buffer.position.row < t.buffer.rowCount) ∧
        (t.buffer.position.row < area.height → first = 0) ∧
        ∀ i < area.height,
          (first + i < t.buffer.rowCount →
            ShowsRow t.buffer b b' area (first + i) (area.y + i)) ∧
          (t.buffer.rowCount ≤ first + i → ∀ k < area.width,
            b'.symbol? (area.x + k) (area.y + i) = b.symbol? (area.x + k) (area.y + i))) := by
  intro r area first
  have hx : x.toNat ≤ maxCoordinate := Nat.le_of_lt_succ x.toNat_lt
  have hy : y.toNat ≤ maxCoordinate := Nat.le_of_lt_succ y.toNat_lt
  obtain ⟨b', hdraw, hcovers, shows⟩ :=
    exists_draw_shows hb (Rect.right_new_le hx _ _ _) (Rect.bottom_new_le hy _ _ _) t
  refine ⟨b', hdraw, hcovers, fun hroom => ⟨⟨firstRow_le hroom.1, position_row_lt _ _,
    t.buffer.row_position_lt⟩, firstRow_eq_zero, shows hroom⟩⟩

/-- In the last corner of the coordinates, two of five rows have room inside of a frame: those up to
the one of the cursor. -/
theorem rows_are_shown_in_the_last_corner :
    let t : TextArea :=
      { buffer := .ofText "1\n2\n3\n4\n5", frame := some { title := .styled " T " .plain } }
    let r := Rect.new 65520 65530 20 4
    (Buffer.blank r).Covers r ∧ (1 ≤ (t.inside r).height ∧ gutterWidth < (t.inside r).width) ∧
      ∃ b', t.draw? (.blank r) r = some b' ∧
        b'.symbol? 65526 65531 = some "4" ∧ b'.symbol? 65526 65532 = some "5" := by
  intro t r
  have covers : (Buffer.blank r).Covers r := ⟨rfl, Array.size_replicate⟩
  have room : 1 ≤ (t.inside r).height ∧ gutterWidth < (t.inside r).width := by decide
  obtain ⟨b', drawn, -, shows⟩ := rows_are_shown_around_the_cursor t 65520 65530 20 4 covers
  have first := ((shows room).2.2 0 (by decide)).1 (by decide)
  have second := ((shows room).2.2 1 (by decide)).1 (by decide)
  refine ⟨covers, room, b', drawn, ?_, ?_⟩
  · have four : ShowsText (.blank r) b' 65526 65531 8 (String.ofList ['4']) := first.2
    rw [ShowsText, shown_of_isPlain (by simp [Unicode.IsPlain])] at four
    exact four 0 (by decide)
  · have five : ShowsText (.blank r) b' 65526 65532 8 (String.ofList ['5']) := second.2
    rw [ShowsText, shown_of_isPlain (by simp [Unicode.IsPlain])] at five
    exact five 0 (by decide)

end TextArea

end PublisherConsole.Screen
