import PublisherConsole.Proofs.Screen.Cursor
import PublisherConsole.Screen.StatusBar

/-!
# The text at the right of the status bar

The text at the right is meant to be shown whole, with one cell free behind it, or not at all. Where it
begins is found from the width of the text, and the text itself is drawn one user-perceived character after
the other, so the two have to agree.

* `exists_drawLeft`: the mode and the keys can be drawn, whatever they are;
* `exists_drawRight`: of the text as much is drawn as fits between its first column and the edge of the
  buffer (`rightGlyphs`), and nothing else changes (`rightPaint`);
* `strip_inj`: cells that glyphs are drawn over show where these begin and how wide they are.

The main statement, `right_text_is_whole_iff`, has the exact condition under which the text is shown as it is
meant to be; `tab_shifts_right_text` has a text that is not.
-/

namespace PublisherConsole.Screen

namespace Buffer

variable {b b' : Buffer} {x y : Nat}

/-- Spans are drawn one behind the other as far as there is room. -/
theorem exists_drawSpans (spans : List Span) {room : Nat}
    (h : ∀ i < room, b.area.contains (x + i) y = true) :
    ∃ b' paint, drawSpans? spans room b x y = some b' ∧ b.Painted b' paint := by
  induction spans generalizing b x room with
  | nil => exact ⟨b, _, rfl, .refl b⟩
  | cons s spans ih =>
    rw [drawSpans?]
    split
    next => exact ⟨b, _, rfl, .refl b⟩
    next =>
      obtain ⟨b₁, hfirst, painted⟩ := exists_drawText s.text s.style h
      have hwidth := span_clip_le room (glyphs s.text)
      have hbehind : ∀ i < room - span (clip room (glyphs s.text)),
          b₁.area.contains (x + span (clip room (glyphs s.text)) + i) y = true := by
        intro i hi
        rw [painted.area, Nat.add_assoc]
        exact h _ (by omega)
      obtain ⟨b₂, paint, hothers, painted'⟩ := ih hbehind
      refine ⟨b₂, _, ?_, painted.trans painted'⟩
      simp only [hfirst, Option.bind_eq_bind, Option.bind_some, Nat.add_sub_cancel_left, hothers]

/-! ### Where glyphs are drawn -/

/-- The cells of glyphs are those that can change when they are drawn. -/
theorem exists_strip_ne_iff (style : Style) {gs : List Glyph} (h : ∀ g ∈ gs, 0 < g.width) (x' : Nat) :
    (∃ c, strip x y (gs.flatMap (Glyph.strokes style)) x' y c ≠ c) ↔ x ≤ x' ∧ x' < x + span gs := by
  constructor
  · rintro ⟨c, hc⟩
    by_contra hout
    refine hc ?_
    rw [strip]
    split
    next hrow =>
      rw [List.getElem?_eq_none (by rw [length_strokes h]; omega)]
      rfl
    next => rfl
  · rintro ⟨hle, hlt⟩
    obtain ⟨k, rfl⟩ := Nat.exists_eq_add_of_le hle
    have hk : k < (gs.flatMap Glyph.symbols).length := by
      rw [length_symbols h]
      omega
    -- A cell that shows something else than what is drawn there.
    refine ⟨{ Cell.blank with symbol := (gs.flatMap Glyph.symbols)[k] ++ "x" }, fun heq => ?_⟩
    have hsymbol := congrArg Cell.symbol heq
    rw [symbol_strip, List.getElem?_eq_getElem hk, Option.getD_some] at hsymbol
    simpa using congrArg String.length hsymbol

theorem span_pos {gs : List Glyph} (h : ∀ g ∈ gs, 0 < g.width) (some : gs ≠ []) : 0 < span gs := by
  obtain ⟨g, gs, rfl⟩ := List.exists_cons_of_ne_nil some
  have := h g (by simp)
  rw [span_cons]
  omega

/-- Where glyphs are drawn, a cell can change. -/
theorem strip_ne {style : Style} {gs : List Glyph} (h : ∀ g ∈ gs, 0 < g.width) (some : gs ≠ []) :
    strip x y (gs.flatMap (Glyph.strokes style)) ≠ fun _ _ c => c := by
  intro none
  have hpos := span_pos h some
  obtain ⟨c, hc⟩ := (exists_strip_ne_iff (x := x) (y := y) style h x).2 (by omega)
  exact hc (by rw [none])

/-- **What is drawn shows where it begins and how wide it is.** -/
theorem strip_inj {style : Style} {gs hs : List Glyph} {x' : Nat} (hgs : ∀ g ∈ gs, 0 < g.width)
    (hhs : ∀ g ∈ hs, 0 < g.width) (some : gs ≠ [])
    (h : strip x y (gs.flatMap (Glyph.strokes style)) = strip x' y (hs.flatMap (Glyph.strokes style))) :
    x = x' ∧ span gs = span hs := by
  have same (k : Nat) : (x ≤ k ∧ k < x + span gs) ↔ (x' ≤ k ∧ k < x' + span hs) := by
    rw [← exists_strip_ne_iff style hgs, h, exists_strip_ne_iff style hhs]
  have hpos := span_pos hgs some
  have first := same x
  have first' := same x'
  have last := same (x + span gs - 1)
  have last' := same (x' + span hs - 1)
  omega

end Buffer

namespace StatusBar

open Buffer

variable {b : Buffer} {screen r : Rect}

/-! ### Drawing -/

/-- The mode and the keys can be drawn. -/
theorem exists_drawLeft (hr : r.IsIn b.area) (hright : r.right ≤ maxCoordinate)
    (hheight : 1 ≤ r.height) (s : StatusBar) :
    ∃ b' paint, s.drawLeft? b r = some b' ∧ b.Painted b' paint := by
  have hrow : Rect.IsIn ⟨r.x, r.y, min (r.x + r.width) maxCoordinate - r.x, 1⟩ b.area := by
    simp only [Rect.IsIn, Rect.right] at *
    omega
  obtain ⟨b₁, hground, painted⟩ := exists_modifyArea hrow fun c =>
    { c with symbol := " ", background := Palette.statusBackground }
  have hcells : ∀ i < r.width, b₁.area.contains (r.x + i) r.y = true := by
    intro i hi
    rw [painted.area]
    exact hr.contains (Rect.contains_iff.2 (by omega))
  obtain ⟨b₂, paint, hline, painted'⟩ := exists_drawSpans s.left.spans hcells
  refine ⟨b₂, _, ?_, painted.trans painted'⟩
  simp only [drawLeft?, hground, Option.bind_eq_bind, Option.bind_some]
  exact hline

/-- The cells that a text at the right is taken to need. -/
def measure (text : String) : Nat := Unicode.textWidth text.toList % (maxCoordinate + 1)

/-- The column that a text at the right begins in, if it is drawn. -/
def rightColumn (r : Rect) (text : String) : Nat := r.right - measure text - 1

/-- The glyphs that are drawn of a text at the right: none unless a cell of the area is left free, and
otherwise those in front of the first one that does not fit into the row of the screen. -/
def rightGlyphs (screen r : Rect) (text : String) : List Glyph :=
  if measure text < r.width then clip (screen.right - rightColumn r text) (glyphs text) else []

/-- What drawing a text at the right does to a cell. -/
def rightPaint (screen r : Rect) (text : String) : Nat → Nat → Cell → Cell :=
  strip (rightColumn r text) r.y ((rightGlyphs screen r text).flatMap (Glyph.strokes Theme.statusBar))

/-- A text is drawn at the right if it leaves a cell of the area free. -/
theorem drawRight?_eq (hright : r.right ≤ maxCoordinate) (text : String) :
    drawRight? b r text = if measure text < r.width then
      (b.drawText? (rightColumn r text) r.y text maxCoordinate Theme.statusBar).map Prod.fst
    else some b := by
  have hcoordinate : coordinate? (r.x + r.width) = some r.right := if_pos hright
  simp only [drawRight?, hcoordinate, Option.bind_eq_bind, Option.bind_some]
  refine if_congr Iff.rfl ?_ rfl
  rw [Option.map_eq_bind]
  rfl

/-- **A text can be drawn at the right**, whatever it is. -/
theorem exists_drawRight (hb : b.area = screen) (hscreen : screen.right ≤ maxCoordinate)
    (hr : r.IsIn screen) (hheight : 1 ≤ r.height) (text : String) :
    ∃ b', drawRight? b r text = some b' ∧ b.Painted b' (rightPaint screen r text) := by
  subst hb
  simp only [Rect.IsIn, Rect.right] at hr hscreen
  rw [drawRight?_eq (by rw [Rect.right]; omega), rightPaint, rightGlyphs]
  split
  next hfree =>
    have hroom : min (b.area.right - rightColumn r text) maxCoordinate =
        b.area.right - rightColumn r text := by
      rw [Rect.right]
      omega
    have hcells : ∀ i < b.area.right - rightColumn r text,
        b.area.contains (rightColumn r text + i) r.y = true := by
      intro i hi
      rw [Rect.contains_iff]
      simp only [rightColumn, Rect.right] at *
      omega
    have hpos : ∀ g ∈ glyphs text, 0 < g.width := fun _ => width_pos_of_mem_glyphs
    obtain ⟨b', hdraw, painted⟩ := exists_drawGlyphs Theme.statusBar hpos hcells
    exact ⟨b', by rw [drawText?, hroom, hdraw]; rfl, painted⟩
  next => exact ⟨b, rfl, (Painted.refl b).congr fun _ _ _ => (strip_nil ..).symm⟩

/-! ### Whole or not at all -/

/-- A change of cells that changes nothing, or shows a text whole, from a column of the area on and with
exactly one cell of the area left behind it. The text is whole if all glyphs are drawn that it has where there
is room. -/
def ShowsWholeOrNothing (r : Rect) (text : String) (paint : Nat → Nat → Cell → Cell) : Prop :=
  paint = (fun _ _ c => c) ∨
    ∃ x, r.x ≤ x ∧ x + span (glyphs text) + 1 = r.right ∧
      paint = strip x r.y ((glyphs text).flatMap (Glyph.strokes Theme.statusBar))

theorem width_pos_of_mem_rightGlyphs {text : String} {g : Glyph} (h : g ∈ rightGlyphs screen r text) :
    0 < g.width := by
  rw [rightGlyphs] at h
  split at h
  · exact width_pos_of_mem_glyphs ((prefix_clip _ _).subset h)
  · cases h

theorem showsWholeOrNothing_iff (hr : r.IsIn screen) (text : String) :
    ShowsWholeOrNothing r text (rightPaint screen r text) ↔
      rightGlyphs screen r text = [] ∨ measure text = span (glyphs text) := by
  have nothing : strip (rightColumn r text) r.y
      (([] : List Glyph).flatMap (Glyph.strokes Theme.statusBar)) = fun _ _ c => c := by
    funext x y c
    exact strip_nil ..
  constructor
  · intro whole
    by_contra! hnot
    obtain ⟨some, differ⟩ := hnot
    have hfree : measure text < r.width := by
      by_contra hfull
      exact some (if_neg hfull)
    rcases whole with same | ⟨x, hx, hend, same⟩
    · exact strip_ne (fun _ => width_pos_of_mem_rightGlyphs) some same
    · have hinj := strip_inj (fun _ => width_pos_of_mem_rightGlyphs)
        (fun _ => width_pos_of_mem_glyphs) some same
      simp only [rightColumn, Rect.right] at *
      omega
  · rintro (none | agree)
    · exact .inl (by rw [rightPaint, none]; exact nothing)
    · by_cases hfree : measure text < r.width
      · have hall : rightGlyphs screen r text = glyphs text := by
          rw [rightGlyphs, if_pos hfree]
          refine clip_of_le ?_
          simp only [Rect.IsIn, rightColumn, Rect.right] at *
          omega
        refine .inr ⟨rightColumn r text, ?_, ?_, by rw [rightPaint, hall]⟩
        · simp only [rightColumn, Rect.right]
          omega
        · simp only [rightColumn, Rect.right]
          omega
      · refine .inl ?_
        rw [rightPaint, rightGlyphs, if_neg hfree]
        exact nothing

/-- **The text at the right is shown whole or not at all**, exactly when nothing is drawn of it or it is
measured as wide as it is drawn. The bar can be drawn into every area of a screen, whatever its mode, its keys
and the text are, and nothing but the cells of the glyphs that are drawn of the text differs from the bar
without it. The text is measured as it is drawn if it has no control character, is as wide as its
user-perceived characters are together, and no wider than a coordinate can say. -/
theorem right_text_is_whole_iff (s : StatusBar) (text : String) (hb : b.Covers screen)
    (hscreen : screen.right ≤ maxCoordinate) (hr : r.IsIn screen) (hheight : 1 ≤ r.height) :
    ∃ plain b',
      { s with right := none }.draw? b r = some plain ∧
      { s with right := some text }.draw? b r = some b' ∧
      plain.Covers screen ∧ plain.Painted b' (rightPaint screen r text) ∧
      (ShowsWholeOrNothing r text (rightPaint screen r text) ↔
        rightGlyphs screen r text = [] ∨ measure text = span (glyphs text)) ∧
      ((∀ c ∈ text.toList, Unicode.isControl c = false) →
        Unicode.textWidth text.toList = Text.total Unicode.textWidth (Unicode.clusters text.toList) →
        Unicode.textWidth text.toList ≤ maxCoordinate →
        ShowsWholeOrNothing r text (rightPaint screen r text)) := by
  have hright : r.right ≤ maxCoordinate := by
    simp only [Rect.IsIn, Rect.right] at *
    omega
  obtain ⟨plain, paint, hplain, painted⟩ := exists_drawLeft (hb.1 ▸ hr) hright hheight s
  have covers := painted.covers hb
  obtain ⟨b', hdraw, painted'⟩ := exists_drawRight covers.1 hscreen hr hheight text
  have hrow : ¬ r.height < 1 := Nat.not_lt.2 hheight
  have hleft (right : Option String) : { s with right }.drawLeft? b r = some plain := hplain
  refine ⟨plain, b', ?_, ?_, covers, painted', showsWholeOrNothing_iff hr text,
    fun drawn apart narrow => (showsWholeOrNothing_iff hr text).2 (.inr ?_)⟩
  · simp only [draw?, if_neg hrow, hleft, Option.bind_eq_bind, Option.bind_some, Option.pure_def]
  · simp only [draw?, if_neg hrow, hleft, Option.bind_eq_bind, Option.bind_some, hdraw]
  · have hspan := TextArea.span_glyphsOf_clusters drawn apart narrow
    rw [measure, Nat.mod_eq_of_lt (Nat.lt_succ_of_le narrow), ← hspan]
    rfl

/-- A tab in front shifts the text: it is counted, but nothing is drawn of it. Here the last letter is drawn
in column 17, and column 18 is the last but one of the bar. -/
theorem tab_shifts_right_text :
    let bar : StatusBar := { mode := "Edit" }
    let r := Rect.new 0 0 20 1
    (Buffer.blank r).Covers r ∧ r.right ≤ maxCoordinate ∧ r.IsIn r ∧ 1 ≤ r.height ∧
      ∃ plain b' : Buffer, { bar with right := some "\tSaved" }.draw? (.blank r) r = some b' ∧
        plain.Painted b' (rightPaint r r "\tSaved") ∧
        ¬ ShowsWholeOrNothing r "\tSaved" (rightPaint r r "\tSaved") ∧ b'.symbol? 17 0 = some "d" := by
  intro bar r
  have covers : (Buffer.blank r).Covers r := ⟨rfl, Array.size_replicate⟩
  have hscreen : r.right ≤ maxCoordinate := by decide
  have hheight : 1 ≤ r.height := by decide
  have letters : ∀ c ∈ ['S', 'a', 'v', 'e', 'd'], Unicode.IsPlain c := by simp [Unicode.IsPlain]
  have htext : String.ofList ('\t' :: ['S', 'a', 'v', 'e', 'd']) = "\tSaved" := rfl
  have hmeasure : measure "\tSaved" = 6 := by
    rw [measure, ← htext, String.toList_ofList, Unicode.textWidth_tab_cons letters]
    rfl
  have hglyphs : glyphs "\tSaved" = ['S', 'a', 'v', 'e', 'd'].map fun c => ⟨[c], 1⟩ := by
    have htab : glyphsOf [['\t']] = [] := rfl
    rw [← htext, glyphs_eq, Unicode.clusters_tab_cons letters, Unicode.clusters_of_isPlain letters,
      ← List.singleton_append, glyphsOf_append, htab, glyphsOf_of_isPlain letters, List.nil_append]
  have hdrawn : rightGlyphs r r "\tSaved" = ['S', 'a', 'v', 'e', 'd'].map fun c => ⟨[c], 1⟩ := by
    rw [rightGlyphs, rightColumn, hmeasure, hglyphs]
    decide
  obtain ⟨plain, b', -, hdraw, hcovers, painted, whole, -⟩ :=
    right_text_is_whole_iff bar "\tSaved" covers hscreen (.refl r) hheight
  refine ⟨covers, hscreen, .refl r, hheight, plain, b', hdraw, painted, ?_, ?_⟩
  · rw [whole, hdrawn, hmeasure, hglyphs]
    decide
  · obtain ⟨c, hc⟩ := hcovers.exists_cell (x := 17) (y := 0) (by decide)
    rw [symbol?, painted.cell, hc, Option.map_some, Option.map_some, rightPaint, hdrawn, rightColumn, hmeasure]
    exact congrArg some (symbol_strip Theme.statusBar _ (k := 4) c)

end StatusBar

end PublisherConsole.Screen
