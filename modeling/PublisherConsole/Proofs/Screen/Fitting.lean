import PublisherConsole.Proofs.Screen.Wrap
import PublisherConsole.Proofs.Text.CheapestLines
import PublisherConsole.Proofs.Unicode.Clusters

/-!
# Wrapped lines and the width of the pane

A line with more characters than the pane has columns is filled anew, by the cells of its characters.
Where a text is as wide as its characters are one by one (`IsMeasured`), a line that comes out sticks
out no further than the costs of lines allow, and in panes of up to 27 columns it does not at all
(`sticksOutBy_of_mem_fill`). Other lines are left alone: they have no more characters than there are
columns, but wide characters take two.

The main statement, `wrapped_lines_fit_iff`, is that these are the only ones that do not fit.
-/

namespace PublisherConsole.Text

open Unicode (charWidth)

variable {cs : List Char} {ws : List Word} {width i j : Nat}

theorem charWidth_space : charWidth ' ' = 1 := by
  have hplain : Unicode.plainWidth ' ' = 1 := if_pos (by decide)
  rw [charWidth, Unicode.charWidth?, if_neg (by decide), hplain]
  rfl

theorem total_charWidth_blanks (n : Nat) : total charWidth (List.replicate n ' ') = n := by
  induction n with
  | zero => rfl
  | succ n ih => rw [List.replicate_succ, total_cons, ih, charWidth_space, Nat.add_comm]

theorem total_charWidth_all {w : Word} (h : w.IsExact) :
    total charWidth w.all = w.cells + w.blanks := by
  rw [Word.all, total_append, total_charWidth_blanks, h]

/-- The text of a line takes the cells that were counted for it. -/
theorem total_charWidth_lineText (h : ∀ w ∈ ws, w.IsExact) (hij : i < j) (hj : j ≤ ws.length) :
    total charWidth (lineText (slice ws (i, j))) = usedCells ws i j := by
  obtain ⟨j, rfl⟩ := Nat.exists_eq_add_one_of_ne_zero (Nat.ne_of_gt (Nat.zero_lt_of_lt hij))
  have hw : ws[j]? = some ws[j] := List.getElem?_eq_getElem hj
  have hlast : (slice ws (i, j + 1)).getLast? = some ws[j] := by
    rw [slice, List.getLast?_take, if_neg (by simp only; omega), List.getElem?_drop]
    have : i + (j + 1 - i - 1) = j := by omega
    simp only [this, hw, Option.some_or]
  -- The line with the blanks behind its last word has the cells of all of its words.
  have htext := congrArg (total charWidth) (lineText_append hlast)
  have hblanks : total charWidth (List.replicate ws[j].blanks ' ') = ws[j].blanks :=
    total_charWidth_blanks _
  have hwords : total charWidth ((slice ws (i, j + 1)).flatMap Word.all) =
      total (fun w => w.cells + w.blanks) (slice ws (i, j + 1)) := by
    have hmem : ∀ w ∈ slice ws (i, j + 1), w.IsExact := fun w hw =>
      h w (List.mem_of_mem_drop (List.mem_of_mem_take hw))
    generalize slice ws (i, j + 1) = line at hmem
    induction line with
    | nil => rfl
    | cons w line ih =>
      rw [List.forall_mem_cons] at hmem
      rw [List.flatMap_cons, total_append, total_charWidth_all hmem.1, ih hmem.2, total_cons]
  have hslice := congrArg (total fun w => w.cells + w.blanks) (take_append_slice ws hij.le)
  have hends := cellsBefore_add_usedCells hij hj
  have hword := cellsBefore_succ hw
  have hword' := cellsTo_succ hw
  rw [total_append, hblanks, hwords] at htext
  rw [total_append] at hslice
  unfold cellsBefore at *
  omega

end PublisherConsole.Text

namespace PublisherConsole.Screen

open Text (Spaced Word fill fillRow splitRows total lineCost overflowCost)
open Unicode (charWidth textWidth)

variable {cs piece : List Char} {lines out : List Line} {width : Nat}

/-- A text each part of which is as wide as its characters are one by one. -/
def IsMeasured (cs : List Char) : Prop := ∀ part, part <:+: cs → textWidth part = total charWidth part

theorem IsMeasured.part (h : IsMeasured cs) (hpart : piece <:+: cs) : IsMeasured piece :=
  fun part hsub => h part (hsub.trans hpart)

/-- A text of characters that join nothing is measured. -/
theorem isMeasured_of_isLone (h : ∀ c ∈ cs, Unicode.IsLone c) : IsMeasured cs :=
  fun _ hpart => Unicode.textWidth_of_isLone fun c hc => h c (hpart.subset hc)

/-- A measured text has no control characters of the first ones: these have a width in a text, but
none on their own. -/
theorem IsMeasured.notMem {c : Char} (h : IsMeasured cs) (hlow : c.toNat < 0x7f)
    (hcontrol : Unicode.isControl c = true) : c ∉ cs := by
  intro hc
  obtain ⟨front, behind, rfl⟩ := List.append_of_mem hc
  have hwidth := h [c] ⟨front, behind, by simp⟩
  have hnone : charWidth c = 0 := by rw [charWidth, Unicode.charWidth?, if_pos hcontrol]; rfl
  rw [Unicode.textWidth_of_lt hlow, Text.total_cons, hnone] at hwidth
  cases hwidth

theorem map_fst_chars (l : Line) :
    l.chars.map Prod.fst = l.spans.flatMap fun s => s.text.toList := by
  rw [Line.chars, List.map_flatMap]
  simp only [List.map_map, Function.comp_def, List.map_id']

/-- A line of measured text is as wide as its characters are one by one. -/
theorem width_of_isMeasured {l : Line} (h : IsMeasured (l.chars.map Prod.fst)) :
    l.width = total charWidth (l.chars.map Prod.fst) := by
  rw [map_fst_chars] at h ⊢
  rw [Line.width]
  generalize l.spans = spans at h
  induction spans with
  | nil => rfl
  | cons s spans ih =>
    rw [List.flatMap_cons] at h ⊢
    rw [Text.total_cons, Text.total_append, ih (h.part (List.suffix_append _ _).isInfix), Span.width,
      h _ (List.prefix_append _ _).isInfix]

theorem infix_of_spaced {pieces : List (List Char)} (h : Spaced pieces cs) (hp : piece ∈ pieces) :
    piece <:+: cs := by
  induction h with
  | last =>
    obtain rfl := List.mem_singleton.1 hp
    exact (List.prefix_append _ _).isInfix
  | cons _ _ _ ih =>
    rcases List.mem_cons.1 hp with rfl | hp
    · rw [List.append_assoc]
      exact (List.prefix_append _ _).isInfix
    · exact (ih hp).trans (List.suffix_append _ _).isInfix

theorem length_le_total_utf8Size (cs : List Char) : cs.length ≤ total Char.utf8Size cs := by
  induction cs with
  | nil => exact le_rfl
  | cons c cs ih =>
    have := c.utf8Size_pos
    rw [List.length_cons, Text.total_cons]
    omega

/-- How far lines may stick out of a pane. -/
def SticksOutBy (width cells : Nat) : Prop :=
  overflowCost * (cells - width) ≤ 2 * (lineCost + width * width) ∧ (width ≤ 27 → cells ≤ width)

/-- **Filled lines fit**, or nearly so. -/
theorem sticksOutBy_of_mem_fill (h : IsMeasured cs) (hwidth : 0 < width) (hlong : width < cs.length)
    (hnarrow : ∀ c ∈ cs, charWidth c ≤ width) (hp : piece ∈ fill width cs) :
    piece <:+: cs ∧ SticksOutBy width (total charWidth piece) := by
  have hescape : Text.escapeChar ∉ cs := h.notMem (by decide) (by decide)
  have hrows : splitRows cs = [cs] := Text.splitRows_of_notMem (h.notMem (by decide) (by decide))
  have hcs : cs ≠ [] := List.ne_nil_of_length_pos (Nat.zero_lt_of_lt hlong)
  have hfill : piece ∈ fillRow width cs := by simpa [fill, hrows] using hp
  refine ⟨infix_of_spaced (Text.spaced_fillRow width hcs) hfill, ?_⟩
  have hbytes : ¬ total Char.utf8Size cs < width := by
    have := length_le_total_utf8Size cs
    omega
  rw [fillRow, if_neg hbytes] at hfill
  obtain ⟨⟨i, j⟩, hplace, rfl⟩ := List.mem_map.1 hfill
  have hws : Text.fragments width cs ≠ [] := by
    intro hnil
    have := (Text.divides_fragments width cs).all
    rw [hnil] at this
    exact hcs this.symm
  have hmax : max width 1 = width := Nat.max_eq_left hwidth
  have hexact (w : Word) (hw : w ∈ Text.fragments width cs) := Text.fragments_spec hescape hnarrow hw
  obtain ⟨hij, hj, -⟩ := (Text.bestLines_least width hws).2 (i, j) hplace
  have hline := Text.total_charWidth_lineText (fun w hw => (hexact w hw).1) hij hj
  have hover := Text.overflow_le hws (fun w hw => by rw [hmax]; exact (hexact w hw).2) hplace
  rw [hmax] at hover
  rw [SticksOutBy]
  exact hline ▸ hover

/-- A line of measured text in which spaces are only followed by other spaces or ink, and no character
of which is wider than the pane. -/
structure IsRegular (width : Nat) (l : Line) : Prop where
  measured : IsMeasured (l.chars.map Prod.fst)
  even : IsEven (l.chars.map Prod.fst)
  narrow : ∀ c ∈ l.chars.map Prod.fst, charWidth c ≤ width

/-- A regular line that is too long is wrapped into lines that fit, or nearly so. -/
theorem wrapLine?_of_isRegular {l : Line} (hwidth : 0 < width) (h : IsRegular width l)
    (hlong : width < l.chars.length) :
    ∃ out, wrapLine? width l = some out ∧ ∀ o ∈ out, SticksOutBy width o.width := by
  have hrows : splitRows (l.chars.map Prod.fst) = [l.chars.map Prod.fst] :=
    Text.splitRows_of_notMem (h.measured.notMem (by decide) (by decide))
  have hsteady : IsSteady (l.chars.map Prod.fst) := by
    rw [IsSteady, hrows]
    exact ⟨by simpa using h.even, .singleton _⟩
  obtain ⟨out, hout, -, hpieces⟩ := (hsteady.laid_fill hwidth).restylePieces?
  refine ⟨out, ?_, fun o ho => ?_⟩
  · rw [wrapLine?, if_neg (by omega)]
    exact hout
  · have hmem : o.chars.map Prod.fst ∈ fill width (l.chars.map Prod.fst) := by
      rw [← hpieces]
      exact List.mem_map_of_mem ho
    obtain ⟨hpart, hsticks⟩ :=
      sticksOutBy_of_mem_fill h.measured hwidth (by simpa using hlong) h.narrow hmem
    rwa [width_of_isMeasured (h.measured.part hpart)]

theorem wrapAll?_of_isRegular (hwidth : 0 < width) (h : ∀ l ∈ lines, IsRegular width l) :
    ∃ out, wrapAll? width lines = some out ∧
      (∀ l ∈ lines, l.chars.length ≤ width → l ∈ out) ∧
      ∀ o ∈ out, (o ∈ lines ∧ o.chars.length ≤ width) ∨ SticksOutBy width o.width := by
  induction lines with
  | nil => exact ⟨[], rfl, by simp, by simp⟩
  | cons l lines ih =>
    rw [List.forall_mem_cons] at h
    obtain ⟨others, hothers, hkept, hfits⟩ := ih h.2
    have hbehind {o : Line} (ho : o ∈ others) :
        (o ∈ l :: lines ∧ o.chars.length ≤ width) ∨ SticksOutBy width o.width :=
      (hfits o ho).imp_left fun h => ⟨List.mem_cons_of_mem _ h.1, h.2⟩
    by_cases hshort : l.chars.length ≤ width
    · have hfirst : wrapLine? width l = some [l] := if_pos hshort
      refine ⟨[l] ++ others, by simp [wrapAll?, hfirst, hothers], ?_, ?_⟩
      · exact List.forall_mem_cons.2
          ⟨fun _ => by simp, fun o ho hle => by simp [hkept o ho hle]⟩
      · exact List.forall_mem_cons.2 ⟨.inl ⟨by simp, hshort⟩, fun o ho => hbehind ho⟩
    · obtain ⟨first, hfirst, hlines⟩ :=
        wrapLine?_of_isRegular hwidth h.1 (Nat.lt_of_not_le hshort)
      refine ⟨first ++ others, by simp [wrapAll?, hfirst, hothers], ?_, fun o ho => ?_⟩
      · exact List.forall_mem_cons.2
          ⟨fun hle => absurd hle hshort, fun o ho hle => by simp [hkept o ho hle]⟩
      · rcases List.mem_append.1 ho with ho | ho
        · exact .inr (hlines o ho)
        · exact hbehind ho

/-- **Which wrapped lines fit into the pane.** Regular lines can be wrapped to every width. A line
that comes out is one of no more characters than the pane has columns, which is left alone, or it
sticks out by a limited number of cells; and in a pane of up to 27 columns all of them fit if and only
if those fit that are left alone. -/
theorem wrapped_lines_fit_iff (lines : List Line) {width : Nat} (hwidth : 0 < width)
    (h : ∀ l ∈ lines, IsRegular width l) :
    ∃ out, wrapLines? lines width = some out ∧
      (∀ o ∈ out, (o ∈ lines ∧ o.chars.length ≤ width) ∨
        overflowCost * (o.width - width) ≤ 2 * (lineCost + width * width)) ∧
      (width ≤ 27 → ((∀ o ∈ out, o.width ≤ width) ↔
        ∀ l ∈ lines, l.chars.length ≤ width → l.width ≤ width)) := by
  obtain ⟨out, hout, hkept, hfits⟩ := wrapAll?_of_isRegular hwidth h
  refine ⟨out, by rw [wrapLines?, if_neg hwidth.ne', hout], fun o ho => ?_, fun hsmall =>
    ⟨fun hall l hl hshort => hall l (hkept l hl hshort), fun hshort o ho => ?_⟩⟩
  · exact (hfits o ho).imp_right And.left
  · rcases hfits o ho with ⟨hmem, hle⟩ | hsticks
    · exact hshort o hmem hle
    · exact hsticks.2 hsmall

/-- Two characters of two cells each are left alone in a pane of three columns. -/
theorem wide_characters_stick_out :
    let l := Line.styled (String.ofList ['日', '本']) .plain
    0 < 3 ∧ (∀ l' ∈ [l], IsRegular 3 l') ∧ l.width = 4 ∧
      ∃ out, wrapLines? [l] 3 = some out ∧ ¬ ∀ o ∈ out, o.width ≤ 3 := by
  intro l
  have hwidth : charWidth '日' = 2 ∧ charWidth '本' = 2 := by
    have hplain := Unicode.plainWidth_wide
    simp [charWidth, Unicode.charWidth?, hplain, Unicode.isControl]
  have hlone : Unicode.IsLone '日' ∧ Unicode.IsLone '本' :=
    ⟨Unicode.isLone_of_lt (by decide) (by decide) Unicode.followingOf_wide.1,
      Unicode.isLone_of_lt (by decide) (by decide) Unicode.followingOf_wide.2⟩
  have hchars : l.chars.map Prod.fst = ['日', '本'] := by simp [l, Line.styled, Line.chars]
  have hmeasured : IsMeasured (l.chars.map Prod.fst) := by
    rw [hchars]
    exact isMeasured_of_isLone (by simpa using hlone)
  have hregular : ∀ l' ∈ [l], IsRegular 3 l' := by
    rw [List.forall_mem_singleton]
    refine ⟨hmeasured, ?_, ?_⟩
    · rw [hchars]
      decide
    · rw [hchars]
      simp [hwidth]
  have hfour : l.width = 4 := by
    rw [width_of_isMeasured hmeasured, hchars, Text.total_cons, Text.total_cons, Text.total_nil,
      hwidth.1, hwidth.2]
  obtain ⟨out, hout, -, hfits⟩ := wrapped_lines_fit_iff [l] (by decide : 0 < 3) hregular
  refine ⟨by decide, hregular, hfour, out, hout, fun hall => ?_⟩
  have := (hfits (by decide)).1 hall l (by simp) (by simp [l, Line.styled, Line.chars])
  omega

end PublisherConsole.Screen
