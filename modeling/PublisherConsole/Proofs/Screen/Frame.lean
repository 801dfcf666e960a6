import PublisherConsole.Proofs.Screen.Painting
import PublisherConsole.Screen.Frame

/-!
# A frame keeps to its edge

A frame can be drawn around every area inside the buffer, whatever its title is, and shows its
symbols only at the edge of that area (`exists_drawFrame`). Inside, it changes colours at most.

Each part of a frame is drawn with a paint that leaves the outside of the area alone and keeps the
symbols inside (`Edges`), and so is the whole.
-/

namespace PublisherConsole.Screen

namespace Rect

variable {r s : Rect} {x y : Nat}

/-- One rectangle lies in another. -/
def IsIn (r s : Rect) : Prop :=
  (s.x ≤ r.x ∧ r.x + r.width ≤ s.x + s.width) ∧ s.y ≤ r.y ∧ r.y + r.height ≤ s.y + s.height

theorem IsIn.refl (r : Rect) : r.IsIn r :=
  ⟨⟨Nat.le_refl _, Nat.le_refl _⟩, Nat.le_refl _, Nat.le_refl _⟩

theorem IsIn.contains (h : r.IsIn s) (hr : r.contains x y = true) : s.contains x y = true := by
  simp only [contains_iff, IsIn] at *
  omega

theorem IsIn.intersection_left (h : r.IsIn s) : r.intersection s = r := by
  obtain ⟨⟨hx, hx'⟩, hy, hy'⟩ := h
  cases r
  simp only [intersection, right, bottom, Rect.mk.injEq] at *
  omega

theorem IsIn.intersection_right (h : r.IsIn s) : s.intersection r = r := by
  obtain ⟨⟨hx, hx'⟩, hy, hy'⟩ := h
  cases r
  simp only [intersection, right, bottom, Rect.mk.injEq] at *
  omega

theorem isIn_inner (r : Rect) : r.inner.IsIn r := by
  simp only [IsIn, inner, right, bottom]
  omega

theorem right_new_le (h : x ≤ maxCoordinate) (y width height : Nat) :
    (new x y width height).right ≤ maxCoordinate := by
  simp only [new, right]
  omega

theorem bottom_new_le (h : y ≤ maxCoordinate) (x width height : Nat) :
    (new x y width height).bottom ≤ maxCoordinate := by
  simp only [new, bottom]
  omega

/-- The cells of a border. -/
def HasEdge (r : Rect) (x y : Nat) : Prop := r.contains x y = true ∧ ¬ r.inner.contains x y = true

theorem hasEdge_iff :
    r.HasEdge x y ↔ ((r.x ≤ x ∧ x < r.x + r.width) ∧ r.y ≤ y ∧ y < r.y + r.height) ∧
      (x = r.x ∨ x = r.x + r.width - 1 ∨ y = r.y ∨ y = r.y + r.height - 1) := by
  simp only [HasEdge, contains_iff, inner, right, bottom]
  omega

end Rect

namespace Buffer

variable {b b' b'' : Buffer} {r s : Rect} {x y : Nat}

/-! ### Areas -/

/-- A change of each cell of an area inside the buffer succeeds. -/
theorem exists_modifyArea (h : s.IsIn b.area) (f : Cell → Cell) :
    ∃ b', b.modifyArea? s f = some b' ∧
      b.Painted b' fun x y c => if s.contains x y then f c else c := by
  obtain ⟨x, y, width, height⟩ := s
  rw [modifyArea?]
  induction height generalizing b y with
  | zero =>
    refine ⟨b, rfl, (Painted.refl b).congr fun x' y' c => ?_⟩
    rw [if_neg (by simp only [Rect.contains_iff]; omega)]
  | succ n ih =>
    have hrow : ∀ i < width, b.area.contains (x + i) y = true := fun i hi =>
      h.contains (Rect.contains_iff.2 (by simp only; omega))
    obtain ⟨b₁, hfirst, painted⟩ := exists_modifyRow f width hrow
    have hrest : Rect.IsIn ⟨x, y + 1, width, n⟩ b₁.area := by
      rw [painted.area]
      simp only [Rect.IsIn] at h ⊢
      omega
    obtain ⟨b₂, hothers, painted'⟩ := ih _ hrest
    refine ⟨b₂, by simpa [modifyRows?, hfirst] using hothers, ?_⟩
    refine (painted.trans painted').congr fun x' y' c => ?_
    simp only [strip_replicate, Rect.contains_iff]
    by_cases hy : y' = y
    · subst hy
      rw [if_neg (by omega)]
      exact if_congr (by omega) rfl rfl
    · rw [if_neg (c := (x ≤ x' ∧ x' < x + width) ∧ y' = y) fun h => hy h.2]
      exact if_congr (by omega) rfl rfl

/-! ### Edges -/

/-- A drawing around an area: the outside stays as it is, and the inside keeps its symbols. -/
def Edges (r : Rect) (b b' : Buffer) : Prop :=
  ∃ paint, b.Painted b' paint ∧
    (∀ x y c, ¬ r.contains x y = true → paint x y c = c) ∧
    ∀ x y c, r.inner.contains x y = true → (paint x y c).symbol = c.symbol

theorem Edges.refl (r : Rect) (b : Buffer) : Edges r b b :=
  ⟨_, .refl b, fun _ _ _ _ => rfl, fun _ _ _ _ => rfl⟩

theorem Edges.trans (h : Edges r b b') (h' : Edges r b' b'') : Edges r b b'' := by
  obtain ⟨paint, painted, outside, inside⟩ := h
  obtain ⟨paint', painted', outside', inside'⟩ := h'
  refine ⟨_, painted.trans painted', fun x y c hxy => ?_, fun x y c hxy => ?_⟩
  · rw [outside x y c hxy, outside' x y c hxy]
  · rw [inside' _ _ _ hxy, inside _ _ _ hxy]

theorem Edges.area (h : Edges r b b') : b'.area = b.area := h.choose_spec.1.area

/-- Cells of the edge can be changed in any way. -/
theorem exists_modifyArea_edge (hr : r.IsIn b.area) (hs : s.IsIn r)
    (hedge : ∀ x y, s.contains x y = true → ¬ r.inner.contains x y = true) (f : Cell → Cell) :
    ∃ b', b.modifyArea? s f = some b' ∧ Edges r b b' := by
  have hin : s.IsIn b.area := by
    simp only [Rect.IsIn] at *
    omega
  obtain ⟨b', hmodify, painted⟩ := exists_modifyArea hin f
  refine ⟨b', hmodify, _, painted, fun x y c hxy => ?_, fun x y c hxy => ?_⟩
  · exact if_neg fun h => hxy (hs.contains h)
  · exact congrArg Cell.symbol (if_neg fun h => hedge x y h hxy)

theorem exists_modifyRow_edge (hr : r.IsIn b.area) {n : Nat}
    (hedge : ∀ i < n, r.HasEdge (x + i) y) (f : Cell → Cell) :
    ∃ b', modifyRow? f n b x y = some b' ∧ Edges r b b' := by
  obtain ⟨b', hmodify, painted⟩ := exists_modifyRow f n fun i hi => hr.contains (hedge i hi).1
  have hin {x' y' : Nat} (h : (x ≤ x' ∧ x' < x + n) ∧ y' = y) : r.HasEdge x' y' := by
    obtain ⟨⟨hle, hlt⟩, rfl⟩ := h
    have := hedge (x' - x) (by omega)
    rwa [Nat.add_sub_cancel' hle] at this
  refine ⟨b', hmodify, _, painted, fun x' y' c hxy => ?_, fun x' y' c hxy => ?_⟩
  · rw [strip_replicate]
    exact if_neg fun h => hxy (hin h).1
  · rw [strip_replicate]
    exact congrArg Cell.symbol (if_neg fun h => (hin h).2 hxy)

theorem exists_modify_edge (hr : r.IsIn b.area) (hedge : r.HasEdge x y) (f : Cell → Cell) :
    ∃ b', b.modify? x y f = some b' ∧ Edges r b b' := by
  obtain ⟨b', hmodify, edges⟩ := exists_modifyRow_edge (n := 1) hr
    (fun i hi => by rwa [Nat.lt_one_iff.1 hi]) f
  exact ⟨b', by simpa [modifyRow?] using hmodify, edges⟩

/-- A style laid over a part of the area keeps all symbols. -/
theorem exists_setStyle (hr : r.IsIn b.area) (hs : s.IsIn r) (style : Style) :
    ∃ b', b.setStyle? s style = some b' ∧ Edges r b b' := by
  have hin : s.IsIn b.area := by
    simp only [Rect.IsIn] at *
    omega
  obtain ⟨b', hmodify, painted⟩ := exists_modifyArea hin (·.restyled style)
  refine ⟨b', by rwa [setStyle?, hin.intersection_right], _, painted, fun x y c hxy => ?_,
    fun x y c _ => ?_⟩
  · exact if_neg fun h => hxy (hs.contains h)
  · split <;> rfl

/-- The border of an area can be drawn. -/
theorem exists_drawBorder (hr : r.IsIn b.area) (hempty : r.isEmpty = false) (style : Style) :
    ∃ b', b.drawBorder? r style = some b' ∧ Edges r b b' := by
  obtain ⟨hwidth, hheight⟩ : ¬ r.width = 0 ∧ ¬ r.height = 0 := by
    simpa [Rect.isEmpty] using hempty
  have side {b : Buffer} (hr : r.IsIn b.area) {x : Nat} (hx : x = r.x ∨ x = r.right - 1)
      (f : Cell → Cell) :
      ∃ b', b.modifyArea? ⟨x, r.y, 1, r.height⟩ f = some b' ∧ Edges r b b' := by
    refine exists_modifyArea_edge hr ?_ (fun x' y' h => ?_) f
    · simp only [Rect.IsIn, Rect.right] at *
      omega
    · simp only [Rect.contains_iff, Rect.inner, Rect.right] at *
      omega
  have row {b : Buffer} (hr : r.IsIn b.area) {y : Nat} (hy : y = r.y ∨ y = r.bottom - 1)
      (f : Cell → Cell) :
      ∃ b', b.modifyArea? ⟨r.x, y, r.width, 1⟩ f = some b' ∧ Edges r b b' := by
    refine exists_modifyArea_edge hr ?_ (fun x' y' h => ?_) f
    · simp only [Rect.IsIn, Rect.bottom] at *
      omega
    · simp only [Rect.contains_iff, Rect.inner, Rect.bottom] at *
      omega
  have corner {b : Buffer} (hr : r.IsIn b.area) {x y : Nat} (hx : x = r.x ∨ x = r.right - 1)
      (hy : y = r.y ∨ y = r.bottom - 1) (f : Cell → Cell) :
      ∃ b', b.modify? x y f = some b' ∧ Edges r b b' := by
    refine exists_modify_edge hr (Rect.hasEdge_iff.2 ?_) f
    simp only [Rect.right, Rect.bottom] at *
    omega
  rw [drawBorder?]
  obtain ⟨b₁, h₁, e₁⟩ := side hr (.inl rfl) (·.drawn "│" style)
  have hr := e₁.area ▸ hr
  obtain ⟨b₂, h₂, e₂⟩ := row hr (.inl rfl) (·.drawn "─" style)
  have hr := e₂.area ▸ hr
  obtain ⟨b₃, h₃, e₃⟩ := side hr (.inr rfl) (·.drawn "│" style)
  have hr := e₃.area ▸ hr
  obtain ⟨b₄, h₄, e₄⟩ := row hr (.inr rfl) (·.drawn "─" style)
  have hr := e₄.area ▸ hr
  obtain ⟨b₅, h₅, e₅⟩ := corner hr (.inr rfl) (.inr rfl) (·.drawn "┘" style)
  have hr := e₅.area ▸ hr
  obtain ⟨b₆, h₆, e₆⟩ := corner hr (.inr rfl) (.inl rfl) (·.drawn "┐" style)
  have hr := e₆.area ▸ hr
  obtain ⟨b₇, h₇, e₇⟩ := corner hr (.inl rfl) (.inr rfl) (·.drawn "└" style)
  have hr := e₇.area ▸ hr
  obtain ⟨b₈, h₈, e₈⟩ := corner hr (.inl rfl) (.inl rfl) (·.drawn "┌" style)
  refine ⟨b₈, ?_, ((((((e₁.trans e₂).trans e₃).trans e₄).trans e₅).trans e₆).trans e₇).trans e₈⟩
  simp [h₁, h₂, h₃, h₄, h₅, h₆, h₇, h₈]

/-! ### Titles -/

section Title

variable {start stop : Nat} (hedge : ∀ x, start ≤ x → x < stop → r.HasEdge x y)
  (hstop : stop < maxCoordinate)

include hedge hstop

/-- The glyphs of a title span are drawn in the upper edge. -/
theorem exists_drawTitleGlyphs (hr : r.IsIn b.area) (style : Style) (left : Nat)
    (hleft : start ≤ left ∧ left < stop) (gs : List Glyph) (first : Bool)
    (hx : left ≤ x ∧ x ≤ stop) (hfirst : first = true → x < stop) :
    ∃ b', drawTitleGlyphs? style left stop gs first b x y = some b' ∧ Edges r b b' := by
  induction gs generalizing b x first with
  | nil => exact ⟨b, rfl, .refl r b⟩
  | cons g gs ih =>
    rw [drawTitleGlyphs?]
    split
    next => exact ⟨b, rfl, .refl r b⟩
    next hfits =>
      have hfits : x + g.width ≤ stop := by omega
      -- Whatever cell the glyph goes to, those that it hides and the other glyphs come behind it.
      have put {x' : Nat} (hx' : start ≤ x' ∧ x' < stop) (f : Cell → Cell) :
          ∃ b', ((b.modify? x' y f).bind fun b =>
            (modifyRow? (fun _ => Cell.blank) (g.width - 1) b (x + 1) y).bind fun b =>
              drawTitleGlyphs? style left stop gs false b (x + g.width) y) = some b' ∧
            Edges r b b' := by
        obtain ⟨b₁, hput, e₁⟩ := exists_modify_edge hr (hedge x' hx'.1 hx'.2) f
        have hr := e₁.area ▸ hr
        obtain ⟨b₂, hhidden, e₂⟩ := exists_modifyRow_edge (n := g.width - 1) hr
          (fun i hi => hedge (x + 1 + i) (by omega) (by omega)) fun _ => Cell.blank
        have hr := e₂.area ▸ hr
        obtain ⟨b₃, hrest, e₃⟩ := ih hr false (x := x + g.width) (by omega) (by simp)
        refine ⟨b₃, ?_, (e₁.trans e₂).trans e₃⟩
        simp only [hput, hhidden, hrest, Option.bind_some]
      simp only [Option.bind_eq_bind]
      split
      next h => exact put ⟨by omega, hfirst h⟩ _
      next =>
        split
        next => exact put (by omega) _
        next =>
          split
          next => exact put (by omega) _
          next => exact put (by omega) _

theorem exists_drawTitleSpans (hr : r.IsIn b.area) (spans : List Span) (hx : start ≤ x) :
    ∃ b', drawTitleSpans? stop spans b x y = some b' ∧ Edges r b b' := by
  induction spans generalizing b x with
  | nil => exact ⟨b, rfl, .refl r b⟩
  | cons s spans ih =>
    rw [drawTitleSpans?]
    split
    next => exact ih hr hx
    next =>
      split
      next => exact ⟨b, rfl, .refl r b⟩
      next hroom =>
        obtain ⟨b₁, hglyphs, e₁⟩ := exists_drawTitleGlyphs hedge hstop hr s.style x (by omega)
          (((Unicode.clusters s.text.toList).filter (· ≠ ['\n'])).map Glyph.ofCluster) true
          (x := x) (by omega) (fun _ => by omega)
        have hr := e₁.area ▸ hr
        obtain ⟨b₂, hspans, e₂⟩ := ih hr (x := min (x + s.width) maxCoordinate) (by omega)
        refine ⟨b₂, ?_, e₁.trans e₂⟩
        simp only [hglyphs, hspans, Option.bind_eq_bind, Option.bind_some]

end Title

theorem exists_drawTitle (hr : r.IsIn b.area) (hempty : r.isEmpty = false)
    (hright : r.right ≤ maxCoordinate) (title : Line) (style : Style) :
    ∃ b', b.drawTitle? r title style = some b' ∧ Edges r b b' := by
  obtain ⟨-, hheight⟩ : ¬ r.width = 0 ∧ ¬ r.height = 0 := by simpa [Rect.isEmpty] using hempty
  simp only [drawTitle?]
  split
  next => exact ⟨b, rfl, .refl r b⟩
  next hroom =>
    have hroom : ¬ r.width - 1 - 1 = 0 := by simpa [Rect.isEmpty] using hroom
    have hwidth : min (title.width % (maxCoordinate + 1)) (r.width - 1 - 1) ≤ r.width - 1 - 1 :=
      Nat.min_le_right _ _
    generalize min (title.width % (maxCoordinate + 1)) (r.width - 1 - 1) = width at hwidth
    have hin : Rect.IsIn ⟨r.x + 1, r.y, width, 1⟩ r := by
      simp only [Rect.IsIn]
      omega
    obtain ⟨b₁, hstyle, e₁⟩ := exists_setStyle hr hin style
    have hr := e₁.area ▸ hr
    have hedge (x : Nat) (hx : r.x + 1 ≤ x) (hx' : x < r.x + 1 + width) : r.HasEdge x r.y :=
      Rect.hasEdge_iff.2 (by omega)
    have hstop : r.x + 1 + width < maxCoordinate := by
      rw [Rect.right] at hright
      omega
    obtain ⟨b₂, hspans, e₂⟩ := exists_drawTitleSpans hedge hstop hr title.spans (Nat.le_refl _)
    simp only [hstyle, Option.bind_eq_bind, Option.bind_some]
    split
    next => exact ⟨b₁, rfl, e₁⟩
    next => exact ⟨b₂, hspans, e₁.trans e₂⟩

/-- **A frame can be drawn around every area** inside the buffer, and keeps to its edge. -/
theorem exists_drawFrame (hr : r.IsIn b.area) (hright : r.right ≤ maxCoordinate) (f : Frame) :
    ∃ b', b.drawFrame? r f = some b' ∧ Edges r b b' := by
  rw [drawFrame?, hr.intersection_left]
  split
  next => exact ⟨b, rfl, .refl r b⟩
  next hempty =>
    have hempty : r.isEmpty = false := by simpa using hempty
    obtain ⟨b₁, hstyle, e₁⟩ := exists_setStyle hr (.refl r) f.style
    have hr := e₁.area ▸ hr
    obtain ⟨b₂, hborder, e₂⟩ := exists_drawBorder hr hempty f.borderStyle
    have hr := e₂.area ▸ hr
    obtain ⟨b₃, htitle, e₃⟩ := exists_drawTitle hr hempty hright f.title f.titleStyle
    exact ⟨b₃, by simp [hstyle, hborder, htitle], (e₁.trans e₂).trans e₃⟩

end Buffer
end PublisherConsole.Screen
