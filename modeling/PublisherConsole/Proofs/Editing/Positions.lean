import Mathlib.Data.List.DropRight
import Mathlib.Data.List.GetD
import Mathlib.Data.Set.Function
import PublisherConsole.Proofs.Editing.Halves
import PublisherConsole.Proofs.Text.Fill

/-!
# Cursors and positions

A cursor counts the characters in front of it; a position counts rows and, in its row, columns. The
two are found in different ways: a position by a run through the characters in front of the cursor
(`TextBuffer.position`), and the cursor of a position from the lengths of the rows (`rowStart`).

* `Position.foldl_after`: a run from any position is the run from the first one, moved there;
* `exists_place`: by induction on the text, the run ends in a place of the text from which the
  lengths of the rows lead back to the cursor;
* `cursorOf_injOn`: no two places have the same cursor, as a row ends before the next one starts.

So positions and cursors are in bijection, and a move that is computed from lengths goes where its
row and column say. The main statement is `positions_are_exact`.

On two halves, a move goes from line feed to line feed (`Halves.atColumn`). As a buffer is known by its
text and its position, these are the same moves (`moveTo_joined`).
-/

namespace PublisherConsole

/-! ### Halves and rows -/

namespace Halves

/-- The part of the cursor's row in front of it. -/
def rowBefore (h : Halves) : List Char := h.before.rtakeWhile (· ≠ '\n')

/-- The part of the cursor's row behind it. -/
def rowAfter (h : Halves) : List Char := h.after.takeWhile (· ≠ '\n')

/-- The row of the cursor. -/
def row (h : Halves) : List Char := h.rowBefore ++ h.rowAfter

/-- The rows above that of the cursor, with their line feeds. -/
def above (h : Halves) : List Char := h.before.rdropWhile (· ≠ '\n')

/-- The rows below that of the cursor, with the line feeds in front of them. -/
def below (h : Halves) : List Char := h.after.dropWhile (· ≠ '\n')

/-- Move in the row to a column, or to the end of a shorter row. -/
def atColumn (h : Halves) (column : Nat) : Halves :=
  ⟨h.above ++ h.row.take column, h.row.drop column ++ h.below⟩

/-- Move to the start of the row. -/
def home (h : Halves) : Halves := h.atColumn 0

/-- Move to the end of the row. -/
def lineEnd (h : Halves) : Halves := h.atColumn h.row.length

/-- Move to the row above. -/
def up (h : Halves) : Halves :=
  if h.above = [] then h
  else atColumn ⟨h.above.dropLast, '\n' :: h.rowBefore ++ h.after⟩ h.rowBefore.length

/-- Move to the row below. -/
def down (h : Halves) : Halves :=
  match h.below with
  | [] => h
  | _ :: below => atColumn ⟨h.before ++ h.rowAfter ++ ['\n'], below⟩ h.rowBefore.length

variable (h : Halves)

@[simp] theorem above_append_rowBefore : h.above ++ h.rowBefore = h.before :=
  List.rdropWhile_append_rtakeWhile ..

@[simp] theorem rowAfter_append_below : h.rowAfter ++ h.below = h.after :=
  List.takeWhile_append_dropWhile

/-- The same text is divided at another place. -/
theorem atColumn_append (column : Nat) :
    (h.atColumn column).before ++ (h.atColumn column).after = h.before ++ h.after := by
  calc h.above ++ h.row.take column ++ (h.row.drop column ++ h.below)
      = h.above ++ (h.row.take column ++ h.row.drop column) ++ h.below := by
        simp only [List.append_assoc]
    _ = h.above ++ h.rowBefore ++ (h.rowAfter ++ h.below) := by
        rw [List.take_append_drop, row]; simp only [List.append_assoc]
    _ = h.before ++ h.after := by rw [above_append_rowBefore, rowAfter_append_below]

theorem not_mem_row : '\n' ∉ h.row := by
  intro hmem
  rcases List.mem_append.1 hmem with hmem | hmem
  · simpa using List.mem_rtakeWhile_imp hmem
  · simpa using List.mem_takeWhile_imp hmem

end Halves

namespace TextBuffer

variable {b : TextBuffer}

/-! ### Rows and their starts -/

/-- A place of the text: a column of one of its rows, or the end of that row. -/
def HasPlace (b : TextBuffer) (p : Position) : Prop :=
  p.row < b.rowCount ∧ p.column ≤ b.rowLength p.row

/-- The cursor that stands at a place. -/
def cursorOf (b : TextBuffer) (p : Position) : Nat := b.rowStart p.row + p.column

/-- The end of a row and the line feed lie between its start and that of the next one. -/
theorem rowStart_succ {row : Nat} (h : row < b.rowCount) :
    b.rowStart (row + 1) = b.rowStart row + (b.rowLength row + 1) := by
  have hrow : b.rows[row]? = some (b.row row) := by
    rw [TextBuffer.row, List.getD_eq_getElem?_getD, List.getElem?_eq_getElem h, Option.getD_some]
  rw [rowStart, List.take_add_one, hrow, Text.total_append, rowStart, rowLength]
  simp

theorem rowStart_mono {row row' : Nat} (h : row ≤ row') : b.rowStart row ≤ b.rowStart row' := by
  have hparts := List.take_append_drop row (b.rows.take row')
  rw [List.take_take, Nat.min_eq_left h] at hparts
  rw [rowStart, rowStart, ← hparts, Text.total_append]
  exact Nat.le_add_right _ _

/-- A place of an upper row has a smaller cursor than any place further down. -/
theorem cursorOf_lt {p q : Position} (hp : b.HasPlace p) (h : p.row < q.row) :
    b.cursorOf p < b.cursorOf q := by
  have hend := rowStart_succ hp.1
  have hstart : b.rowStart (p.row + 1) ≤ b.rowStart q.row := rowStart_mono h
  have hcolumn := hp.2
  simp only [cursorOf]
  omega

/-- **No two places have the same cursor.** -/
theorem cursorOf_injOn : Set.InjOn b.cursorOf {p | b.HasPlace p} := by
  intro p hp q hq h
  obtain hrow | hrow | hrow := Nat.lt_trichotomy p.row q.row
  · exact absurd h (cursorOf_lt hp hrow).ne
  · have hcolumn : p.column = q.column := by
      simp only [cursorOf, hrow] at h
      omega
    cases p
    cases q
    simp_all
  · exact absurd h (cursorOf_lt hq hrow).ne'

/-- The cursor of a place is in the text. -/
theorem cursorOf_le {p : Position} (h : b.HasPlace p) : b.cursorOf p ≤ b.chars.length := by
  have := rowStart_add_rowLength_le h.1
  have := h.2
  simp only [cursorOf]
  omega

/-! ### The run to the cursor -/

/-- A run from a position is the run from the first one, moved there: the columns are moved only
until the first line feed. -/
theorem Position.foldl_after (cs : List Char) (row column : Nat) :
    cs.foldl Position.after ⟨row, column⟩ =
      let p := cs.foldl Position.after ⟨0, 0⟩
      ⟨row + p.row, if p.row = 0 then column + p.column else p.column⟩ := by
  induction cs generalizing row column with
  | nil => rfl
  | cons c cs ih =>
    by_cases hc : c = '\n'
    · simp only [List.foldl_cons, Position.after, hc, if_true]
      rw [ih (row + 1) 0, ih (0 + 1) 0]
      grind
    · simp only [List.foldl_cons, Position.after, hc, if_false]
      rw [ih row (column + 1), ih 0 (0 + 1)]
      grind

/-- A character that is no line feed comes in front of the first row. -/
theorem exists_splitRows_cons {c : Char} (hc : c ≠ '\n') (cs : List Char) :
    ∃ first rest, Text.splitRows cs = first :: rest ∧
      Text.splitRows (c :: cs) = (c :: first) :: rest := by
  have hlength := length_splitRows cs
  cases hrows : Text.splitRows cs with
  | nil => simp [hrows] at hlength
  | cons first rest => exact ⟨first, rest, rfl, by simp [Text.splitRows, hc, hrows]⟩

/-- The run to a cursor in the text ends in a place of the text, and the lengths of the rows lead
back to the cursor. -/
theorem exists_place {cs : List Char} {n : Nat} (h : n ≤ cs.length) :
    HasPlace ⟨cs, n⟩ (position ⟨cs, n⟩) ∧ cursorOf ⟨cs, n⟩ (position ⟨cs, n⟩) = n := by
  induction cs generalizing n with
  | nil =>
    obtain rfl : n = 0 := by simpa using h
    exact ⟨⟨Nat.zero_lt_one, Nat.le_refl 0⟩, rfl⟩
  | cons c cs ih =>
    cases n with
    | zero => exact ⟨⟨Nat.lt_of_le_of_lt (Nat.zero_le _) (row_position_lt _), Nat.zero_le _⟩, rfl⟩
    | succ n =>
      obtain ⟨⟨hrow, hcolumn⟩, hcursor⟩ := ih (Nat.le_of_succ_le_succ h)
      -- What the run through `cs` finds is moved by the step over `c`.
      have hnext : position ⟨c :: cs, n + 1⟩ =
          (cs.take n).foldl Position.after (Position.after ⟨0, 0⟩ c) := rfl
      rw [hnext, Position.after]
      have hp : (cs.take n).foldl Position.after ⟨0, 0⟩ = position ⟨cs, n⟩ := rfl
      split
      next hc =>
        rw [Position.foldl_after, hp]
        generalize position ⟨cs, n⟩ = p at hrow hcolumn hcursor ⊢
        obtain ⟨row, column⟩ := p
        have hcons : Text.splitRows (c :: cs) = [] :: Text.splitRows cs := by
          simp [Text.splitRows, hc]
        simp only [HasPlace, cursorOf, rowCount, rowStart, rowLength, TextBuffer.row, rows, hcons,
          Nat.zero_add, ite_self, Nat.add_comm 1 row, List.take_succ_cons, List.getD_cons_succ,
          List.length_cons, List.length_nil, Text.total_cons] at *
        omega
      next hc =>
        rw [Position.foldl_after, hp]
        generalize position ⟨cs, n⟩ = p at hrow hcolumn hcursor ⊢
        obtain ⟨row, column⟩ := p
        obtain ⟨first, rest, hrows, hcons⟩ := exists_splitRows_cons hc cs
        simp only [HasPlace, cursorOf, rowCount, rowStart, rowLength, TextBuffer.row, rows, hrows,
          hcons] at *
        cases row with
        | zero => simp at *; omega
        | succ row => simp at *; omega

/-- **A cursor in the text stands at its position.** -/
theorem hasPlace_position (h : b.IsInside) : b.HasPlace b.position := (exists_place h).1

theorem cursorOf_position (h : b.IsInside) : b.cursorOf b.position = b.cursor := (exists_place h).2

/-- The cursor of a place stands there. -/
theorem position_cursorOf {p : Position} (h : b.HasPlace p) :
    position ⟨b.chars, b.cursorOf p⟩ = p := by
  have hplace := exists_place (cursorOf_le h)
  exact cursorOf_injOn hplace.1 h hplace.2

/-- **Positions and cursors are in bijection.** -/
theorem bijOn_position (cs : List Char) :
    Set.BijOn (fun n => position ⟨cs, n⟩) (Set.Iic cs.length) {p | HasPlace ⟨cs, 0⟩ p} := by
  refine ⟨fun n hn => (exists_place hn).1, fun m hm n hn h => ?_, fun p hp => ?_⟩
  · calc m = cursorOf ⟨cs, 0⟩ (position ⟨cs, m⟩) := (exists_place hm).2.symm
      _ = cursorOf ⟨cs, 0⟩ (position ⟨cs, n⟩) := congrArg _ h
      _ = n := (exists_place hn).2
  · exact ⟨_, cursorOf_le hp, position_cursorOf hp⟩

/-! ### Moves -/

/-- Whether a move leads to a place of the same text. -/
def GoesTo (b b' : TextBuffer) (p : Position) : Prop :=
  b'.chars = b.chars ∧ b'.IsInside ∧ b'.position = p

theorem goesTo_cursorOf {p : Position} (h : b.HasPlace p) :
    b.GoesTo { b with cursor := b.cursorOf p } p :=
  ⟨rfl, cursorOf_le h, position_cursorOf h⟩

/-- A row takes the cursor in the given column, or at its end. -/
theorem goesTo_moveTo {row : Nat} (h : row < b.rowCount) (column : Nat) :
    b.GoesTo (b.moveTo row column) ⟨row, min column (b.rowLength row)⟩ :=
  goesTo_cursorOf (p := ⟨row, _⟩) ⟨h, Nat.min_le_right _ _⟩

theorem goesTo_moveHome (b : TextBuffer) : b.GoesTo b.moveHome ⟨b.position.row, 0⟩ :=
  goesTo_cursorOf (p := ⟨_, 0⟩) ⟨b.row_position_lt, Nat.zero_le _⟩

theorem goesTo_moveEnd (b : TextBuffer) :
    b.GoesTo b.moveEnd ⟨b.position.row, b.rowLength b.position.row⟩ :=
  goesTo_cursorOf (p := ⟨b.position.row, b.rowLength b.position.row⟩)
    ⟨b.row_position_lt, Nat.le_refl _⟩

theorem goesTo_moveUp (h : 0 < b.position.row) :
    b.GoesTo b.moveUp ⟨b.position.row - 1,
      min b.position.column (b.rowLength (b.position.row - 1))⟩ := by
  rw [moveUp, if_neg h.ne']
  exact goesTo_moveTo (Nat.lt_of_le_of_lt (Nat.sub_le _ _) b.row_position_lt) _

theorem goesTo_moveDown (h : b.position.row + 1 < b.rowCount) :
    b.GoesTo b.moveDown ⟨b.position.row + 1,
      min b.position.column (b.rowLength (b.position.row + 1))⟩ := by
  rw [moveDown, if_pos h]
  exact goesTo_moveTo h _

/-! ### Moves on halves -/

/-- A run counts the line feeds, and the characters behind the last of them. -/
theorem foldl_after_zero (cs : List Char) :
    cs.foldl Position.after ⟨0, 0⟩ = ⟨cs.count '\n', (cs.rtakeWhile (· ≠ '\n')).length⟩ := by
  induction cs using List.reverseRecOn with
  | nil => rfl
  | append_singleton cs c ih =>
    rw [List.foldl_concat, ih, List.rtakeWhile_concat]
    by_cases hc : c = '\n'
    · simp [Position.after, hc]
    · simp [Position.after, hc]

theorem position_joined (h : Halves) :
    h.joined.position = ⟨h.before.count '\n', h.rowBefore.length⟩ := by
  have hfront : h.joined.chars.take h.joined.cursor = h.before := by simp [Halves.joined]
  rw [position, hfront, foldl_after_zero]
  rfl

/-- A line feed divides the rows. -/
theorem splitRows_append_lineFeed (before after : List Char) :
    Text.splitRows (before ++ '\n' :: after) = Text.splitRows before ++ Text.splitRows after := by
  induction before with
  | nil => rfl
  | cons c before ih =>
    by_cases hc : c = '\n'
    · simp [Text.splitRows, hc, ih]
    · obtain ⟨first, rest, hrows, hcons⟩ := exists_splitRows_cons hc before
      simp [Text.splitRows, hc, ih, hrows]

/-- The row that a line feed or the end of the text follows is the first one. -/
theorem getD_splitRows_zero {row : List Char} (hrow : '\n' ∉ row) {below : List Char}
    (hbelow : below = [] ∨ ∃ rest, below = '\n' :: rest) :
    (Text.splitRows (row ++ below)).getD 0 [] = row := by
  rcases hbelow with rfl | ⟨rest, rfl⟩
  · rw [List.append_nil, Text.splitRows_of_notMem hrow]
    rfl
  · rw [splitRows_append_lineFeed, Text.splitRows_of_notMem hrow]
    rfl

theorem above_eq (h : Halves) : h.above = [] ∨ h.above = h.above.dropLast ++ ['\n'] := by
  by_cases hne : h.above = []
  · exact .inl hne
  · have hlast : h.above.getLast hne = '\n' := by
      simpa [Halves.above] using List.rdropWhile_last_not (fun c => decide (c ≠ '\n')) h.before hne
    exact .inr (hlast ▸ (List.dropLast_concat_getLast hne).symm)

/-- The row of the cursor has no line feeds, so all of those in front of it end rows above. -/
theorem count_before (h : Halves) : h.before.count '\n' = h.above.count '\n' := by
  have hrow : h.rowBefore.count '\n' = 0 :=
    List.count_eq_zero.2 fun hmem => h.not_mem_row (List.mem_append_left _ hmem)
  rw [← h.above_append_rowBefore, List.count_append, hrow, Nat.add_zero]

theorem below_eq (h : Halves) : h.below = [] ∨ ∃ rest, h.below = '\n' :: rest := by
  unfold Halves.below
  induction h.after with
  | nil => exact .inl rfl
  | cons c after ih =>
    rw [List.dropWhile_cons]
    split
    · exact ih
    · next hc => exact .inr ⟨after, by simpa using hc⟩

/-- The row in which the cursor stands is the one around it. -/
theorem row_joined (h : Halves) : h.joined.row (h.before.count '\n') = h.row := by
  have hchars : h.joined.chars = h.above ++ (h.row ++ h.below) := by
    simp only [Halves.joined, Halves.row, List.append_assoc, Halves.rowAfter_append_below]
    rw [← List.append_assoc, Halves.above_append_rowBefore]
  have hfirst := getD_splitRows_zero h.not_mem_row (below_eq h)
  rw [TextBuffer.row, rows, hchars]
  rw [count_before]
  rcases above_eq h with habove | habove
  · rw [habove]
    exact hfirst
  · have hlength : (Text.splitRows h.above.dropLast).length = h.above.count '\n' := by
      rw [length_splitRows, habove]
      simp
    rw [← hlength, habove, List.dropLast_concat, List.append_assoc, List.singleton_append,
      splitRows_append_lineFeed, List.getD_append_right _ _ _ _ (Nat.le_refl _), Nat.sub_self]
    exact hfirst

theorem rtakeWhile_append {row : List Char} (hrow : '\n' ∉ row) (before : List Char) :
    (before ++ row).rtakeWhile (· ≠ '\n') = before.rtakeWhile (· ≠ '\n') ++ row := by
  have hall : ∀ c ∈ row.reverse, decide (c ≠ '\n') = true := by
    intro c hc
    simpa using ne_of_mem_of_not_mem (List.mem_reverse.1 hc) hrow
  simp only [List.rtakeWhile, List.reverse_append, List.takeWhile_append_of_pos hall,
    List.reverse_reverse]

/-- A move in the row leads to its column. -/
theorem position_atColumn (h : Halves) (column : Nat) :
    (h.atColumn column).joined.position =
      ⟨h.before.count '\n', min column (h.joined.rowLength (h.before.count '\n'))⟩ := by
  have hfront : '\n' ∉ h.row.take column := fun hmem => h.not_mem_row (List.mem_of_mem_take hmem)
  have hcount : (h.above ++ h.row.take column).count '\n' = h.before.count '\n' := by
    rw [List.count_append, List.count_eq_zero.2 hfront, count_before, Nat.add_zero]
  have hrow : (h.atColumn column).rowBefore = h.row.take column := by
    have habove : h.above.rtakeWhile (· ≠ '\n') = [] := by
      rcases above_eq h with habove | habove <;> rw [habove]
      · rfl
      · exact List.rtakeWhile_concat_neg _ _ _ (by simp)
    rw [Halves.rowBefore, Halves.atColumn, rtakeWhile_append hfront, habove, List.nil_append]
  rw [position_joined, hrow, rowLength, row_joined, List.length_take]
  exact congrArg (Position.mk · _) hcount

/-- A buffer is known by its text and the position of its cursor. -/
theorem eq_of_position {b b' : TextBuffer} (hb : b.IsInside) (hb' : b'.IsInside)
    (hchars : b'.chars = b.chars) (hposition : b'.position = b.position) : b' = b := by
  obtain ⟨chars, cursor⟩ := b
  obtain ⟨chars', cursor'⟩ := b'
  obtain rfl : chars' = chars := hchars
  have hcursor : cursor' = cursor := by
    calc cursor' = cursorOf ⟨chars', cursor'⟩ (position ⟨chars', cursor'⟩) :=
          (cursorOf_position hb').symm
      _ = cursorOf ⟨chars', cursor⟩ (position ⟨chars', cursor⟩) := by rw [hposition]; rfl
      _ = cursor := cursorOf_position hb
  rw [hcursor]

/-- **A move to a column of the row** divides the same text there. -/
theorem moveTo_joined (h : Halves) (column : Nat) :
    h.joined.moveTo (h.before.count '\n') column = (h.atColumn column).joined := by
  have hrow : h.before.count '\n' < h.joined.rowCount := by
    have := h.joined.row_position_lt
    rwa [position_joined] at this
  obtain ⟨hchars, hinside, hposition⟩ := goesTo_moveTo hrow column
  refine eq_of_position (isInside_joined _) hinside ?_ ?_
  · exact hchars.trans (h.atColumn_append column).symm
  · exact hposition.trans (position_atColumn h column).symm

theorem moveHome_joined (h : Halves) : h.joined.moveHome = h.home.joined := by
  rw [Halves.home, ← moveTo_joined, moveHome, position_joined, moveTo, Nat.zero_min, Nat.add_zero]

theorem moveEnd_joined (h : Halves) : h.joined.moveEnd = h.lineEnd.joined := by
  rw [Halves.lineEnd, ← moveTo_joined, moveEnd, position_joined, moveTo, rowLength, row_joined,
    Nat.min_self]

/-- Where a move leads depends on the text only. -/
theorem moveTo_of_chars {b b' : TextBuffer} (h : b'.chars = b.chars) (row column : Nat) :
    b'.moveTo row column = b.moveTo row column := by
  obtain ⟨chars, cursor⟩ := b
  obtain ⟨chars', cursor'⟩ := b'
  obtain rfl : chars' = chars := h
  rfl

theorem moveUp_joined (h : Halves) : h.joined.moveUp = h.up.joined := by
  rw [moveUp, position_joined, count_before, Halves.up]
  rcases above_eq h with habove | habove
  · simp [habove]
  · have hne : h.above ≠ [] := by rw [habove]; simp
    have hcount : h.above.count '\n' = h.above.dropLast.count '\n' + 1 := by
      conv_lhs => rw [habove]
      simp
    -- The same text, divided behind the row above.
    let top : Halves := ⟨h.above.dropLast, '\n' :: h.rowBefore ++ h.after⟩
    have hchars : h.joined.chars = top.joined.chars := by
      calc h.before ++ h.after = h.above ++ h.rowBefore ++ h.after := by
            rw [h.above_append_rowBefore]
        _ = h.above.dropLast ++ ['\n'] ++ h.rowBefore ++ h.after := by rw [← habove]
        _ = h.above.dropLast ++ ('\n' :: h.rowBefore ++ h.after) := by simp
    rw [hcount, if_neg (Nat.succ_ne_zero _), if_neg hne, Nat.add_sub_cancel,
      moveTo_of_chars hchars]
    exact moveTo_joined top _

theorem moveDown_joined (h : Halves) : h.joined.moveDown = h.down.joined := by
  have hchars : h.joined.chars = h.before ++ h.rowAfter ++ h.below := by
    rw [List.append_assoc, h.rowAfter_append_below]
    rfl
  have hrow : h.rowAfter.count '\n' = 0 :=
    List.count_eq_zero.2 fun hmem => h.not_mem_row (List.mem_append_right _ hmem)
  have hcount : h.joined.rowCount = h.before.count '\n' + h.below.count '\n' + 1 := by
    rw [rowCount, rows, length_splitRows, hchars, List.count_append, List.count_append, hrow]
    omega
  rw [moveDown, position_joined, hcount, Halves.down]
  rcases below_eq h with hbelow | ⟨below, hbelow⟩
  · simp [hbelow]
  · let bottom : Halves := ⟨h.before ++ h.rowAfter ++ ['\n'], below⟩
    have hchars : h.joined.chars = bottom.joined.chars := by
      rw [hchars, hbelow]
      simp [bottom, Halves.joined]
    have hbottom : bottom.before.count '\n' = h.before.count '\n' + 1 := by
      simp [bottom, List.count_append, hrow]
    rw [hbelow, if_pos (by simp), moveTo_of_chars hchars, ← hbottom]
    exact moveTo_joined bottom _

/-! ### All of it -/

/-- **Positions and line moves are exact.** The position of a cursor in the text is the one place
whose row start and column add up to it, and the text has as many places as cursors. Moves lead to
the first and the last column of the row, and to the row above or below, in the same column or at
the end of a shorter row; at the first and the last row they change nothing. -/
theorem positions_are_exact (h : b.IsInside) :
    (∀ p, b.HasPlace p ∧ b.rowStart p.row + p.column = b.cursor ↔ p = b.position) ∧
      Set.BijOn (fun n => position ⟨b.chars, n⟩) (Set.Iic b.chars.length) {p | b.HasPlace p} ∧
      b.GoesTo b.moveHome ⟨b.position.row, 0⟩ ∧
      b.GoesTo b.moveEnd ⟨b.position.row, b.rowLength b.position.row⟩ ∧
      (0 < b.position.row → b.GoesTo b.moveUp ⟨b.position.row - 1,
        min b.position.column (b.rowLength (b.position.row - 1))⟩) ∧
      (b.position.row + 1 < b.rowCount → b.GoesTo b.moveDown ⟨b.position.row + 1,
        min b.position.column (b.rowLength (b.position.row + 1))⟩) ∧
      (b.position.row = 0 → b.moveUp = b) ∧
      (b.position.row + 1 = b.rowCount → b.moveDown = b) := by
  refine ⟨fun p => ⟨fun hp => ?_, ?_⟩, bijOn_position b.chars, b.goesTo_moveHome, b.goesTo_moveEnd,
    goesTo_moveUp, goesTo_moveDown, fun hrow => ?_, fun hrow => ?_⟩
  · exact cursorOf_injOn hp.1 (hasPlace_position h) (hp.2.trans (cursorOf_position h).symm)
  · rintro rfl
    exact ⟨hasPlace_position h, cursorOf_position h⟩
  · rw [moveUp, if_pos hrow]
  · rw [moveDown, if_neg hrow.not_lt]

/-- Between two rows of letters lies an empty one, and the text ends behind a line feed: the cursor
in front of the last letter is in the third row. -/
theorem positions_are_exact_around_an_empty_row :
    IsInside ⟨['é', '\n', '\n', 'b', 'c', '\n'], 4⟩ ∧
      position ⟨['é', '\n', '\n', 'b', 'c', '\n'], 4⟩ = ⟨2, 1⟩ ∧
      position (moveUp ⟨['é', '\n', '\n', 'b', 'c', '\n'], 4⟩) = ⟨1, 0⟩ ∧
      position (moveDown ⟨['é', '\n', '\n', 'b', 'c', '\n'], 4⟩) = ⟨3, 0⟩ := by
  have inside : IsInside ⟨['é', '\n', '\n', 'b', 'c', '\n'], 4⟩ := by simp [IsInside]
  have exact := positions_are_exact inside
  exact ⟨inside, rfl, (exact.2.2.2.2.1 (by decide)).2.2, (exact.2.2.2.2.2.1 (by decide)).2.2⟩

end TextBuffer

end PublisherConsole
