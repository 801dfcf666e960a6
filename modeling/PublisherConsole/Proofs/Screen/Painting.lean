import PublisherConsole.Proofs.Unicode.PlainText
import PublisherConsole.Screen.Buffer

/-!
# Drawing is painting

A drawing that succeeds keeps the area of the buffer and changes each cell in a way that depends on
its position and on what the cell shows: it paints the buffer (`Buffer.Painted`). Everything that is
drawn along a row is a strip of cell changes that begins at a position (`strip`).

* `exists_modify`: one cell inside the area can be changed, and no other one is;
* `exists_drawGlyphs`: of a list of glyphs those in front of the first one that does not fit are
  drawn (`clip`), each in its first cell, with empty cells behind it (`Glyph.strokes`);
* `exists_drawText`: so it is with the glyphs of a text.
-/

namespace PublisherConsole.Screen

theorem Rect.contains_iff {r : Rect} {x y : Nat} :
    r.contains x y = true ↔
      (r.x ≤ x ∧ x < r.x + r.width) ∧ r.y ≤ y ∧ y < r.y + r.height := by
  simp only [contains, Bool.and_eq_true, decide_eq_true_eq, and_assoc]
  rfl

namespace Buffer

variable {b b' b'' : Buffer} {x y : Nat}

/-! ### Painting -/

/-- A drawing that keeps the area and changes each cell by its position. -/
structure Painted (b b' : Buffer) (paint : Nat → Nat → Cell → Cell) : Prop where
  area : b'.area = b.area
  size : b'.cells.size = b.cells.size
  cell : ∀ x y, b'.cell? x y = (b.cell? x y).map (paint x y)

theorem Painted.refl (b : Buffer) : b.Painted b fun _ _ c => c := ⟨rfl, rfl, by simp⟩

theorem Painted.trans {first second : Nat → Nat → Cell → Cell} (h : b.Painted b' first)
    (h' : b'.Painted b'' second) : b.Painted b'' fun x y c => second x y (first x y c) where
  area := h'.area.trans h.area
  size := h'.size.trans h.size
  cell x y := by
    rw [h'.cell, h.cell, Option.map_map]
    rfl

theorem Painted.congr {paint paint' : Nat → Nat → Cell → Cell} (h : b.Painted b' paint)
    (same : ∀ x y c, paint x y c = paint' x y c) : b.Painted b' paint' where
  area := h.area
  size := h.size
  cell x y := by rw [h.cell, funext (same x y)]

/-- Two cells of an area are not kept at the same place. -/
theorem index?_inj {i x' y' : Nat} (h : b.index? x y = some i) (h' : b.index? x' y' = some i) :
    x' = x ∧ y' = y := by
  simp only [index?, Rect.contains_iff, Option.ite_none_right_eq_some, Option.some.injEq] at h h'
  obtain ⟨⟨⟨hx, hx'⟩, hy, -⟩, hi⟩ := h
  obtain ⟨⟨⟨gx, gx'⟩, gy, -⟩, gi⟩ := h'
  have width : 0 < b.area.width := by omega
  have column : x - b.area.x = x' - b.area.x := by
    calc x - b.area.x = i % b.area.width := by
          rw [← hi, Nat.mul_comm, Nat.mul_add_mod, Nat.mod_eq_of_lt (by omega)]
      _ = x' - b.area.x := by
          rw [← gi, Nat.mul_comm, Nat.mul_add_mod, Nat.mod_eq_of_lt (by omega)]
  have row : y - b.area.y = y' - b.area.y := by
    calc y - b.area.y = i / b.area.width := by
          rw [← hi, Nat.mul_comm, Nat.mul_add_div width, Nat.div_eq_of_lt (by omega), Nat.add_zero]
      _ = y' - b.area.y := by
          rw [← gi, Nat.mul_comm, Nat.mul_add_div width, Nat.div_eq_of_lt (by omega), Nat.add_zero]
  omega

/-- **One cell inside the area can be changed**, and the others stay. -/
theorem exists_modify (h : b.area.contains x y = true) (f : Cell → Cell) :
    ∃ b', b.modify? x y f = some b' ∧
      b.Painted b' fun x' y' c => if x' = x ∧ y' = y then f c else c := by
  obtain ⟨i, hi⟩ : ∃ i, b.index? x y = some i := by simp [index?, h]
  refine ⟨{ b with cells := b.cells.modify i f }, by simp [modify?, hi], rfl, by simp, ?_⟩
  intro x' y'
  have hindex : index? { b with cells := b.cells.modify i f } x' y' = b.index? x' y' := rfl
  rw [cell?, cell?, hindex]
  cases hj : b.index? x' y' with
  | none => rfl
  | some j =>
    simp only [Option.bind_some, Array.getElem?_modify]
    by_cases hij : i = j
    · subst hij
      simp [index?_inj hi hj]
    · have hne : ¬(x' = x ∧ y' = y) := by
        rintro ⟨rfl, rfl⟩
        exact hij (Option.some.inj (hi.symm.trans hj))
      simp [hij, hne]

/-! ### Strips -/

/-- Change the cells of a row from a position on, each in its own way. -/
def strip (x y : Nat) (changes : List (Cell → Cell)) (x' y' : Nat) (c : Cell) : Cell :=
  if y' = y ∧ x ≤ x' then (changes[x' - x]?.getD id) c else c

theorem strip_nil (x y x' y' : Nat) (c : Cell) : strip x y [] x' y' c = c := by simp [strip]

/-- Other rows are left alone. -/
theorem strip_of_ne {x' y' : Nat} (h : y' ≠ y) (changes : List (Cell → Cell)) (c : Cell) :
    strip x y changes x' y' c = c := if_neg fun hrow => h hrow.1

theorem strip_singleton (f : Cell → Cell) (x' y' : Nat) (c : Cell) :
    strip x y [f] x' y' c = if x' = x ∧ y' = y then f c else c := by
  unfold strip
  by_cases hx : x' = x
  · subst hx
    simp
  · by_cases hle : x ≤ x'
    · have : [f][x' - x]? = none := by
        rw [List.getElem?_eq_none_iff, List.length_singleton]
        omega
      simp [hx, this]
    · simp [hx, hle]

/-- A strip behind another one. -/
theorem strip_append (changes more : List (Cell → Cell)) (x' y' : Nat) (c : Cell) :
    strip x y (changes ++ more) x' y' c =
      strip (x + changes.length) y more x' y' (strip x y changes x' y' c) := by
  unfold strip
  by_cases hrow : y' = y ∧ x ≤ x'
  · by_cases hlt : x' - x < changes.length
    · simp only [if_pos hrow]
      rw [List.getElem?_append_left hlt, if_neg (by omega)]
    · simp only [if_pos hrow]
      rw [List.getElem?_append_right (by omega), if_pos (by omega), Nat.sub_sub,
        List.getElem?_eq_none (by omega : changes.length ≤ x' - x)]
      rfl
  · simp only [if_neg hrow]
    rw [if_neg (by omega)]

/-- A strip of equal changes. -/
theorem strip_replicate (n : Nat) (f : Cell → Cell) (x' y' : Nat) (c : Cell) :
    strip x y (List.replicate n f) x' y' c =
      if (x ≤ x' ∧ x' < x + n) ∧ y' = y then f c else c := by
  unfold strip
  rw [List.getElem?_replicate]
  by_cases hx : x ≤ x' ∧ x' < x + n
  · rw [if_pos (by omega : x' - x < n)]
    simp [hx, and_comm]
  · rw [if_neg (c := (x ≤ x' ∧ x' < x + n) ∧ y' = y) fun h => hx h.1]
    split
    next h => rw [if_neg (by omega), Option.getD_none, id]
    next => rfl

/-- A row of changes inside the area succeeds. -/
theorem exists_modifyRow (f : Cell → Cell) (n : Nat)
    (h : ∀ i < n, b.area.contains (x + i) y = true) :
    ∃ b', modifyRow? f n b x y = some b' ∧ b.Painted b' (strip x y (List.replicate n f)) := by
  induction n generalizing b x with
  | zero => exact ⟨b, rfl, (Painted.refl b).congr fun _ _ _ => (strip_nil ..).symm⟩
  | succ n ih =>
    have hstart : b.area.contains x y = true := h 0 n.succ_pos
    obtain ⟨b₁, hfirst, painted⟩ := exists_modify hstart f
    have hrest : ∀ i < n, b₁.area.contains (x + 1 + i) y = true := by
      intro i hi
      rw [painted.area, Nat.add_assoc, Nat.add_comm 1]
      exact h (i + 1) (Nat.succ_lt_succ hi)
    obtain ⟨b₂, hothers, painted'⟩ := ih hrest
    refine ⟨b₂, by rw [modifyRow?, hfirst, Option.bind_some, hothers], ?_⟩
    refine (painted.trans painted').congr fun x' y' c => ?_
    rw [List.replicate_succ, ← List.singleton_append, strip_append, strip_singleton]
    rfl

/-! ### Glyphs -/

/-- What a glyph does to the cells that it takes: the first one shows it, and those that it hides
are empty. -/
def Glyph.strokes (style : Style) (g : Glyph) : List (Cell → Cell) :=
  (·.drawn (String.ofList g.symbol) style) :: List.replicate (g.width - 1) fun _ => Cell.blank

/-- The glyphs in front of the first one that does not fit any more into so many cells. -/
def clip : Nat → List Glyph → List Glyph
  | _, [] => []
  | room, g :: gs => if g.width ≤ room then g :: clip (room - g.width) gs else []

/-- The cells that glyphs take. -/
def span (gs : List Glyph) : Nat := Text.total Glyph.width gs

@[simp] theorem span_nil : span [] = 0 := rfl

@[simp] theorem span_cons (g : Glyph) (gs : List Glyph) : span (g :: gs) = g.width + span gs := rfl

@[simp] theorem span_append (gs hs : List Glyph) : span (gs ++ hs) = span gs + span hs :=
  Text.total_append ..

theorem prefix_clip (room : Nat) (gs : List Glyph) : clip room gs <+: gs := by
  induction gs generalizing room with
  | nil => exact List.nil_prefix
  | cons g gs ih =>
    rw [clip]
    split
    · exact List.cons_prefix_cons.2 ⟨rfl, ih _⟩
    · exact List.nil_prefix

theorem span_clip_le (room : Nat) (gs : List Glyph) : span (clip room gs) ≤ room := by
  induction gs generalizing room with
  | nil => exact Nat.zero_le _
  | cons g gs ih =>
    rw [clip]
    split
    next hfits =>
      have := ih (room - g.width)
      rw [span_cons]
      omega
    next => exact Nat.zero_le _

/-- Glyphs that fit are all drawn. -/
theorem clip_append {room : Nat} {gs : List Glyph} (h : span gs ≤ room) (more : List Glyph) :
    clip room (gs ++ more) = gs ++ clip (room - span gs) more := by
  induction gs generalizing room with
  | nil => rfl
  | cons g gs ih =>
    rw [span_cons] at h
    rw [List.cons_append, clip, if_pos (by omega), ih (by omega), span_cons, Nat.sub_sub]
    rfl

theorem clip_of_le {room : Nat} {gs : List Glyph} (h : span gs ≤ room) : clip room gs = gs := by
  simpa [clip] using clip_append h []

/-- **Glyphs are drawn as far as they fit**, if there is room for them in the area. -/
theorem exists_drawGlyphs (style : Style) {gs : List Glyph} {room : Nat}
    (visible : ∀ g ∈ gs, 0 < g.width) (h : ∀ i < room, b.area.contains (x + i) y = true) :
    ∃ b', drawGlyphs? style gs room b x y = some (b', x + span (clip room gs)) ∧
      b.Painted b' (strip x y ((clip room gs).flatMap (Glyph.strokes style))) := by
  induction gs generalizing b x room with
  | nil => exact ⟨b, rfl, (Painted.refl b).congr fun _ _ _ => (strip_nil ..).symm⟩
  | cons g gs ih =>
    rw [drawGlyphs?, clip]
    split
    next hfits =>
      have hwidth := visible g (by simp)
      have hstart : b.area.contains x y = true := h 0 (by omega)
      obtain ⟨b₁, hfirst, painted⟩ := exists_modify hstart (·.drawn (String.ofList g.symbol) style)
      have hhidden : ∀ i < g.width - 1, b₁.area.contains (x + 1 + i) y = true := by
        intro i hi
        rw [painted.area, Nat.add_assoc]
        exact h (1 + i) (by omega)
      obtain ⟨b₂, hempty, painted'⟩ := exists_modifyRow (fun _ => Cell.blank) (g.width - 1) hhidden
      have hbehind : ∀ i < room - g.width, b₂.area.contains (x + g.width + i) y = true := by
        intro i hi
        rw [painted'.area, painted.area, Nat.add_assoc]
        exact h (g.width + i) (by omega)
      obtain ⟨b₃, hothers, painted''⟩ := ih (fun g hg => visible g (by simp [hg])) hbehind
      refine ⟨b₃, ?_, ?_⟩
      · simp only [hfirst, hempty, hothers, Option.bind_eq_bind, Option.bind_some, span_cons,
          Nat.add_assoc]
      · refine ((painted.trans painted').trans painted'').congr fun x' y' c => ?_
        have hlength : (Glyph.strokes style g).length = g.width := by
          simp only [Glyph.strokes, List.length_cons, List.length_replicate]
          omega
        rw [List.flatMap_cons, strip_append, hlength, Glyph.strokes, ← List.singleton_append,
          strip_append, strip_singleton]
        rfl
    next =>
      exact ⟨b, rfl, (Painted.refl b).congr fun _ _ _ => (strip_nil ..).symm⟩

theorem width_pos_of_mem_glyphs {text : String} {g : Glyph} (h : g ∈ glyphs text) :
    0 < g.width := by
  simpa using (List.mem_filter.1 h).2

/-- Plain text has a glyph of one cell for each character. -/
theorem glyphs_of_isPlain {cs : List Char} (h : ∀ c ∈ cs, Unicode.IsPlain c) :
    glyphs (String.ofList cs) = cs.map fun c => ⟨[c], 1⟩ := by
  have hvisible : (cs.map fun c => [c]).filter (fun g => !g.any Unicode.isControl) =
      cs.map fun c => [c] := by
    rw [List.filter_eq_self]
    intro g hg
    obtain ⟨c, hc, rfl⟩ := List.mem_map.1 hg
    simp [(h c hc).isControl]
  have hglyph : (cs.map fun c => [c]).map Glyph.ofCluster = cs.map fun c => ⟨[c], 1⟩ := by
    rw [List.map_map]
    refine List.map_congr_left fun c hc => ?_
    have hwidth : Unicode.textWidth [c] = 1 := Unicode.textWidth_of_isPlain (by simpa using h c hc)
    rw [Function.comp_apply, Glyph.ofCluster, hwidth]
    rfl
  rw [glyphs, String.toList_ofList, Unicode.clusters_of_isPlain h, hvisible, hglyph,
    List.filter_eq_self]
  intro g hg
  obtain ⟨c, -, rfl⟩ := List.mem_map.1 hg
  rfl

theorem clip_of_isPlain (room : Nat) (cs : List Char) :
    clip room (cs.map fun c => ⟨[c], 1⟩) = (cs.take room).map fun c => ⟨[c], 1⟩ := by
  induction cs generalizing room with
  | nil => simp [clip]
  | cons c cs ih =>
    cases room with
    | zero => rfl
    | succ room => simpa [clip] using ih room

/-- **A text is drawn as far as it fits** into the room and the area. -/
theorem exists_drawText (text : String) {room : Nat} (style : Style)
    (h : ∀ i < room, b.area.contains (x + i) y = true) :
    ∃ b', b.drawText? x y text room style = some (b', x + span (clip room (glyphs text))) ∧
      b.Painted b' (strip x y ((clip room (glyphs text)).flatMap (Glyph.strokes style))) := by
  have hroom : min (b.area.right - x) room = room := by
    refine Nat.min_eq_right ?_
    by_contra hlt
    have := h (room - 1) (by omega)
    simp only [Rect.contains_iff, Rect.right] at this hlt
    omega
  rw [drawText?, hroom]
  exact exists_drawGlyphs style (fun _ => width_pos_of_mem_glyphs) h

end Buffer

end PublisherConsole.Screen
