import PublisherConsole.Proofs.Screen.TextArea
import PublisherConsole.Proofs.Unicode.Clusters

/-!
# Which character the cursor is on

The highlighted cell is found from the width of the text in front of the cursor, and the text itself
is drawn one user-perceived character after the other. The two agree only where the text is as wide
as what is drawn of it: control characters have a width, but are not drawn, and letters that join in
a text are drawn apart.

* `draw?_focused`: the cursor is drawn by highlighting one cell of what is drawn without it;
* `IsUnderCursor` says where the character under the cursor is drawn, and `IsUnderCursor.symbol?`
  that its symbol is shown there;
* `textWidth_eq_span`: without control characters, a text is as wide as it is drawn if its characters
  do not join.

The main statement, `cursor_marks_its_character_iff`, has the exact condition under which the
highlighted cell is the right one; `tab_misleads_the_cursor` has a text where it is not.
-/

namespace PublisherConsole.Screen

namespace Buffer

variable {b b' : Buffer} {x y : Nat}

/-- The glyphs of user-perceived characters that are drawn at all. -/
def glyphsOf (clusters : List (List Char)) : List Glyph :=
  ((clusters.filter fun g => !g.any Unicode.isControl).map Glyph.ofCluster).filter fun g => g.width > 0

theorem glyphs_eq (cs : List Char) : glyphs (String.ofList cs) = glyphsOf (Unicode.clusters cs) := by
  rw [glyphs, String.toList_ofList, glyphsOf]

theorem glyphsOf_append (before after : List (List Char)) :
    glyphsOf (before ++ after) = glyphsOf before ++ glyphsOf after := by
  simp [glyphsOf]

theorem glyphsOf_of_isPlain {cs : List Char} (h : ∀ c ∈ cs, Unicode.IsPlain c) :
    glyphsOf (cs.map fun c => [c]) = cs.map fun c => ⟨[c], 1⟩ := by
  rw [← Unicode.clusters_of_isPlain h, ← glyphs_eq, glyphs_of_isPlain h]

/-- If a glyph is drawn, so are all in front of it. -/
theorem span_le_of_clip {room : Nat} {gs more : List Glyph}
    (h : gs.length < (clip room (gs ++ more)).length) : span gs ≤ room := by
  have hprefix : gs <+: clip room (gs ++ more) :=
    List.prefix_of_prefix_length_le (List.prefix_append gs more) (prefix_clip _ _) h.le
  obtain ⟨rest, hrest⟩ := hprefix
  have := span_clip_le room (gs ++ more)
  rw [← hrest, span_append] at this
  omega

theorem length_symbols {gs : List Glyph} (h : ∀ g ∈ gs, 0 < g.width) :
    (gs.flatMap Glyph.symbols).length = span gs := by
  rw [← map_symbol_strokes Style.plain gs Cell.blank, List.length_map, length_strokes h]

/-- The first cell of a glyph that is drawn shows its symbol. -/
theorem shown_of_getElem? {room : Nat} {cs : List Char} {gs more : List Glyph} {g : Glyph}
    (hglyphs : glyphs (String.ofList cs) = gs ++ more)
    (h : (clip room (gs ++ more))[gs.length]? = some g) :
    span gs < room ∧ (shown room (String.ofList cs))[span gs]? = some (String.ofList g.symbol) := by
  have hvisible : ∀ g ∈ gs ++ more, 0 < g.width := fun g hg =>
    width_pos_of_mem_glyphs (hglyphs ▸ hg)
  have hroom := span_le_of_clip (List.getElem?_eq_some_iff.1 h).1
  rw [clip_append hroom, List.getElem?_append_right (Nat.le_refl _), Nat.sub_self] at h
  cases hrest : clip (room - span gs) more with
  | nil => simp [hrest] at h
  | cons g' rest =>
    obtain rfl : g' = g := by simpa [hrest] using h
    have hmem : g' ∈ more := (prefix_clip (room - span gs) more).subset (by simp [hrest])
    have hpos := hvisible g' (List.mem_append_right _ hmem)
    have hfits := span_clip_le (room - span gs) more
    rw [hrest, span_cons] at hfits
    refine ⟨by omega, ?_⟩
    have hlength := length_symbols fun g hg => hvisible g (List.mem_append_left _ hg)
    rw [shown, hglyphs, clip_append hroom, hrest, List.flatMap_append,
      List.getElem?_append_right hlength.le, hlength, Nat.sub_self, List.flatMap_cons]
    rfl

end Buffer

namespace TextArea

open Buffer

variable {t : TextBuffer} {b : Buffer} {r : Rect} {x y left room : Nat}
  {before after : List (List Char)}

/-! ### The highlighted cell -/

/-- **The cursor is one highlighted cell** of what is drawn without it. -/
theorem drawText?_focused (hroom : HasRoom r) (hcell : cursorCell t r = some (x, y)) :
    drawText? t true b r =
      (drawText? t false b r).bind fun plain => plain.modify? x y (·.restyled Theme.cursor) := by
  obtain ⟨hheight, hwidth⟩ := hroom
  have hsmall : ¬ (r.height < 1 || r.width ≤ gutterWidth) = true := by simp; omega
  unfold drawText?
  rw [if_neg hsmall, if_neg hsmall]
  simp [hcell, Option.bind_assoc]

theorem draw?_focused {t : TextArea} (focused : t.focused = true) (hroom : HasRoom (t.inside r))
    (hcell : cursorCell t.buffer (t.inside r) = some (x, y)) :
    t.draw? b r =
      ({ t with focused := false }.draw? b r).bind
        fun plain => plain.modify? x y (·.restyled Theme.cursor) := by
  obtain ⟨buffer, frame, _⟩ := t
  obtain rfl := focused
  cases frame with
  | none => exact drawText?_focused hroom hcell
  | some f =>
    have hinner : TextArea.inside ⟨buffer, some f, true⟩ r = r.inner := rfl
    rw [hinner] at hroom hcell
    simp only [draw?, drawText?_focused hroom hcell, Option.bind_assoc]

/-! ### The character under the cursor -/

/-- The column where the character under the cursor is drawn, if it is drawn at all, or at the end
of a row the column behind what is drawn of it. The user-perceived characters in front of the cursor
and those behind it are given, and the columns of the text. -/
def IsUnderCursor (left room : Nat) (before after : List (List Char)) (x : Nat) : Prop :=
  match after with
  | [] => x = left + span (clip room (glyphsOf before))
  | under :: _ =>
    ∃ g, glyphsOf [under] = [g] ∧
      (clip room (glyphsOf (before ++ after)))[(glyphsOf before).length]? = some g ∧
      x = left + span (glyphsOf before)

/-- The column is as far from the left as what is drawn in front of the cursor is wide. -/
theorem IsUnderCursor.eq (h : IsUnderCursor left room before after x) :
    x = left + span (clip room (glyphsOf before)) := by
  cases after with
  | nil => exact h
  | cons under after =>
    obtain ⟨g, -, hdrawn, hx⟩ := h
    rw [glyphsOf_append] at hdrawn
    rw [hx, clip_of_le (span_le_of_clip (List.getElem?_eq_some_iff.1 hdrawn).1)]

/-- The character under the cursor is shown there. -/
theorem IsUnderCursor.symbol? {under : List Char} {b b' : Buffer} {cs : List Char}
    (h : IsUnderCursor left room before (under :: after) x)
    (hcs : Unicode.clusters cs = before ++ under :: after)
    (shows : ShowsText b b' left y room (String.ofList cs)) :
    b'.symbol? x y = some (String.ofList under) := by
  obtain ⟨g, hunder, hdrawn, rfl⟩ := h
  have hg : g.symbol = under := by
    have hmem : g ∈ glyphsOf [under] := by simp [hunder]
    obtain ⟨cluster, hcluster, rfl⟩ := List.mem_map.1 (List.mem_of_mem_filter hmem)
    exact List.mem_singleton.1 (List.mem_of_mem_filter hcluster)
  have hglyphs : glyphs (String.ofList cs) = glyphsOf before ++ glyphsOf (under :: after) := by
    rw [glyphs_eq, hcs, glyphsOf_append]
  rw [glyphsOf_append] at hdrawn
  obtain ⟨hroom, hshown⟩ := shown_of_getElem? hglyphs hdrawn
  rw [shows _ hroom, hshown, hg]
  rfl

/-- Characters that are drawn take the cells that each of them has on its own. -/
theorem span_glyphsOf {clusters : List (List Char)}
    (drawn : ∀ g ∈ clusters, g.any Unicode.isControl = false)
    (narrow : Text.total Unicode.textWidth clusters ≤ maxCoordinate) :
    span (glyphsOf clusters) = Text.total Unicode.textWidth clusters := by
  induction clusters with
  | nil => rfl
  | cons g clusters ih =>
    rw [List.forall_mem_cons] at drawn
    rw [Text.total_cons] at narrow
    have hwidth : (Glyph.ofCluster g).width = Unicode.textWidth g := Nat.mod_eq_of_lt (by omega)
    have hfirst : span (glyphsOf [g]) = Unicode.textWidth g := by
      by_cases hnone : Unicode.textWidth g = 0
      · simp [glyphsOf, drawn.1, hwidth, hnone]
      · simp [glyphsOf, drawn.1, hwidth, Nat.pos_of_ne_zero hnone]
    rw [← List.singleton_append, glyphsOf_append, span_append, hfirst, ih drawn.2 (by omega),
      List.singleton_append, Text.total_cons]

/-- A text takes the cells that are counted for it, if all of it is drawn and its characters do not
join. -/
theorem span_glyphsOf_clusters {cs : List Char} (drawn : ∀ c ∈ cs, Unicode.isControl c = false)
    (apart : Unicode.textWidth cs = Text.total Unicode.textWidth (Unicode.clusters cs))
    (narrow : Unicode.textWidth cs ≤ maxCoordinate) :
    span (glyphsOf (Unicode.clusters cs)) = Unicode.textWidth cs := by
  have hmem {g : List Char} (hg : g ∈ Unicode.clusters cs) {c : Char} (hc : c ∈ g) : c ∈ cs := by
    rw [← Unicode.flatten_clusters cs]
    exact List.mem_flatten.2 ⟨g, hg, hc⟩
  rw [apart] at narrow ⊢
  refine span_glyphsOf (fun g hg => ?_) narrow
  simpa using fun c hc => drawn c (hmem hg hc)

/-- Such a text is as wide as what is drawn of it, where there is room. -/
theorem textWidth_eq_span {cs : List Char} (drawn : ∀ c ∈ cs, Unicode.isControl c = false)
    (apart : Unicode.textWidth cs = Text.total Unicode.textWidth (Unicode.clusters cs))
    (hroom : Unicode.textWidth cs ≤ room) (small : room ≤ maxCoordinate) :
    Unicode.textWidth cs = span (clip room (glyphsOf (Unicode.clusters cs))) := by
  have hspan := span_glyphsOf_clusters drawn apart (hroom.trans small)
  rw [clip_of_le (hspan ▸ hroom), hspan]

/-- The row of the cursor is shown beside its cell. -/
theorem exists_draw_cursorRow (hb : b.Covers r) (hright : r.right ≤ maxCoordinate)
    (hbottom : r.bottom ≤ maxCoordinate) {t : TextArea} (hroom : HasRoom (t.inside r))
    (hcell : cursorCell t.buffer (t.inside r) = some (x, y)) :
    ∃ b', t.draw? b r = some b' ∧ b'.Covers r ∧
      ShowsRow t.buffer b b' (t.inside r) t.buffer.position.row y := by
  obtain ⟨b', hdraw, hcovers, shows⟩ := exists_draw_shows hb hright hbottom t
  obtain ⟨-, -, hy⟩ := cursorCell_eq_some_iff.1 hcell
  have hheight := hroom.1
  have hfirst : firstRow t.buffer (t.inside r).height ≤ t.buffer.position.row := firstRow_le hheight
  have hlast := position_row_lt t.buffer (t.inside r).height
  have hrow := (shows hroom (t.buffer.position.row - firstRow t.buffer (t.inside r).height)
    (by omega)).1
  rw [Nat.add_sub_cancel' hfirst, hy] at hrow
  exact ⟨b', hdraw, hcovers, hrow t.buffer.row_position_lt⟩

/-- Lay the style of the cursor over one cell. -/
def highlight (x y x' y' : Nat) (c : Cell) : Cell :=
  if x' = x ∧ y' = y then c.restyled Theme.cursor else c

/-- **The highlighted cell shows the character under the cursor**, or is the first one behind what
is drawn of the row, exactly when the text in front of the cursor is as wide as what is drawn of it.
It is, where no control character stands in front of the cursor and the text there is as wide as its
user-perceived characters are together. -/
theorem cursor_marks_its_character_iff (t : TextArea) (x y width height : UInt16)
    (hb : b.Covers (Rect.new x.toNat y.toNat width.toNat height.toNat)) (focused : t.focused = true)
    {cx cy : Nat} :
    let area := t.inside (Rect.new x.toNat y.toNat width.toNat height.toNat)
    let row := t.buffer.row t.buffer.position.row
    let front := row.take t.buffer.position.column
    let behind := row.drop t.buffer.position.column
    let left := area.x + gutterWidth
    let room := area.width - gutterWidth
    HasRoom area → cursorCell t.buffer area = some (cx, cy) →
      Unicode.IsBoundary row t.buffer.position.column →
      ∃ plain b',
        { t with focused := false }.draw? b (Rect.new x.toNat y.toNat width.toNat height.toNat) =
          some plain ∧
        t.draw? b (Rect.new x.toNat y.toNat width.toNat height.toNat) = some b' ∧
        plain.Painted b' (highlight cx cy) ∧
        ∀ column,
          IsUnderCursor left room (Unicode.clusters front) (Unicode.clusters behind) column →
          (∀ under ∈ (Unicode.clusters behind).head?,
            plain.symbol? column cy = some (String.ofList under)) ∧
          (cx = column ↔
            Unicode.textWidth front = span (clip room (glyphsOf (Unicode.clusters front)))) ∧
          ((∀ c ∈ front, Unicode.isControl c = false) →
            Unicode.textWidth front = Text.total Unicode.textWidth (Unicode.clusters front) →
            cx = column) := by
  intro area row front behind left room hroom hcell hboundary
  have hright := Rect.right_new_le (Nat.le_of_lt_succ x.toNat_lt) y.toNat width.toNat height.toNat
  have hbottom := Rect.bottom_new_le (Nat.le_of_lt_succ y.toNat_lt) x.toNat width.toNat height.toNat
  obtain ⟨plain, hplain, hcovers, -, hrow⟩ :=
    exists_draw_cursorRow (t := { t with focused := false }) hb hright hbottom hroom hcell
  have hcontains : plain.area.contains cx cy = true := by
    rw [hcovers.1]
    exact (t.isIn_inside _).contains (contains_cursorCell hroom.1 hcell)
  obtain ⟨b', hmodify, painted⟩ := exists_modify hcontains (·.restyled Theme.cursor)
  refine ⟨plain, b', hplain, ?_, painted, fun column hunder => ?_⟩
  · rw [draw?_focused focused hroom hcell, hplain, Option.bind_some, hmodify]
  obtain ⟨hlt, hcx, hcy⟩ := cursorCell_eq_some_iff.1 hcell
  have hwidth : cx = left + Unicode.textWidth front := hcx.symm
  have hiff : cx = column ↔
      Unicode.textWidth front = span (clip room (glyphsOf (Unicode.clusters front))) := by
    rw [hwidth, hunder.eq, Nat.add_left_cancel_iff]
  refine ⟨fun under hsome => ?_, hiff, fun drawn apart => ?_⟩
  · obtain ⟨after, hafter⟩ := List.head?_eq_some_iff.1 hsome
    rw [hafter] at hunder
    refine hunder.symbol? ?_ hrow
    rw [← hafter]
    exact hboundary.clusters_eq
  · have hin : area.right ≤ maxCoordinate := by
      have hin : area.IsIn _ := t.isIn_inside _
      simp only [Rect.IsIn, Rect.right] at *
      omega
    rw [hwidth, Rect.right] at hlt
    rw [Rect.right] at hin
    exact hiff.2 (textWidth_eq_span drawn apart (by omega) (by omega))

/-- Behind a tab the wrong character is highlighted: the tab has a width, but nothing is drawn of it.
Here the cursor is on the `a`, which is drawn in the first column of the text, and the cell behind it
is highlighted. -/
theorem tab_misleads_the_cursor :
    let t : TextArea := { buffer := ⟨['\t', 'a', 'b'], 1⟩, frame := none }
    let r := Rect.new 0 0 12 1
    (Buffer.blank r).Covers r ∧ t.focused = true ∧ HasRoom (t.inside r) ∧
      cursorCell t.buffer (t.inside r) = some (6, 0) ∧
      Unicode.IsBoundary ['\t', 'a', 'b'] 1 ∧
      IsUnderCursor 5 7 [['\t']] [['a'], ['b']] 5 ∧
      ∃ plain b' : Buffer, t.draw? (.blank r) r = some b' ∧ plain.Painted b' (highlight 6 0) ∧
        plain.symbol? 5 0 = some "a" := by
  intro t r
  have covers : (Buffer.blank r).Covers r := ⟨rfl, Array.size_replicate⟩
  have room : HasRoom (t.inside r) := ⟨by decide, by decide⟩
  have width : Unicode.textWidth ['\t'] = 1 := Unicode.textWidth_of_lt (by decide)
  have cell : cursorCell t.buffer (t.inside r) = some (6, 0) := by
    have before : beforeCursor t.buffer = ['\t'] := rfl
    refine cursorCell_eq_some_iff.2 ⟨by decide, ?_, rfl⟩
    rw [before, width]
    rfl
  have front : Unicode.clusters ['\t'] = [['\t']] := rfl
  have behind : Unicode.clusters ['a', 'b'] = [['a'], ['b']] :=
    Unicode.clusters_of_isPlain (by simp [Unicode.IsPlain])
  have boundary : Unicode.IsBoundary ['\t', 'a', 'b'] 1 := by
    refine ⟨[['\t']], [['a'], ['b']], ?_, rfl⟩
    rw [Unicode.clusters_tab_cons (by simp [Unicode.IsPlain]), behind]
    rfl
  have under : IsUnderCursor 5 7 [['\t']] [['a'], ['b']] 5 := by
    have tab : glyphsOf [['\t']] = [] := rfl
    have a : glyphsOf [['a']] = [⟨['a'], 1⟩] :=
      @glyphsOf_of_isPlain ['a'] (by simp [Unicode.IsPlain])
    have ab : glyphsOf [['a'], ['b']] = [⟨['a'], 1⟩, ⟨['b'], 1⟩] :=
      @glyphsOf_of_isPlain ['a', 'b'] (by simp [Unicode.IsPlain])
    refine ⟨⟨['a'], 1⟩, a, ?_, by rw [tab]; rfl⟩
    rw [glyphsOf_append, tab, ab]
    rfl
  obtain ⟨plain, b', -, drawn, painted, shows⟩ :=
    cursor_marks_its_character_iff t 0 0 12 1 covers rfl room cell boundary
  have columns : Unicode.clusters (List.take t.buffer.position.column
        (t.buffer.row t.buffer.position.row)) = [['\t']] ∧
      Unicode.clusters (List.drop t.buffer.position.column
        (t.buffer.row t.buffer.position.row)) = [['a'], ['b']] := ⟨front, behind⟩
  rw [columns.1, columns.2] at shows
  exact ⟨covers, rfl, room, cell, boundary, under, plain, b', drawn, painted,
    (shows 5 under).1 ['a'] rfl⟩

end TextArea

end PublisherConsole.Screen
