import PublisherConsole.Editing.TextBuffer
import PublisherConsole.Proofs.Text.Bytes

/-!
# A buffer is two lists

A buffer is seen in two ways beside its own:

* as the characters in front of the cursor and those behind it (`Halves`), which every edit changes
  at the place where they meet (`Edit.Turns`);
* as a text in bytes with a cursor that counts characters (`ByteBuffer`), where an edit fails unless
  it finds the byte at which a character begins (`Edit.act?`).

One edit does the same in all three of them (`exists_turns`, `act?_ofBuffer`), as long as the cursor
is in the text, where every edit leaves it (`isInside_apply`). So do all edits one after the other:
the main statement is `editing_joins_two_halves`.
-/

namespace PublisherConsole

/-- What can be done to a text with a cursor. -/
inductive Edit
  | insert (c : Char)
  | insertText (s : String)
  | backspace
  | delete
  | left
  | right
  | home
  | lineEnd
  | up
  | down

namespace Edit

/-- Carry an edit out. -/
def apply (b : TextBuffer) : Edit → TextBuffer
  | .insert c => b.insert c
  | .insertText s => b.insertAll s.toList
  | .backspace => b.backspace
  | .delete => b.delete
  | .left => b.moveLeft
  | .right => b.moveRight
  | .home => b.moveHome
  | .lineEnd => b.moveEnd
  | .up => b.moveUp
  | .down => b.moveDown

/-- Carry edits out one after the other. -/
def applyAll (b : TextBuffer) (edits : List Edit) : TextBuffer := edits.foldl apply b

end Edit

/-! ### Halves -/

/-- The characters in front of a cursor and those behind it. -/
structure Halves where
  before : List Char
  after : List Char

/-- The buffer of two halves. -/
def Halves.joined (h : Halves) : TextBuffer := ⟨h.before ++ h.after, h.before.length⟩

/-- What an edit makes of two halves. The moves between rows and inside a row only divide the same
text at another place. -/
def Edit.Turns (h h' : Halves) : Edit → Prop
  | .insert c => h' = ⟨h.before ++ [c], h.after⟩
  | .insertText s => h' = ⟨h.before ++ s.toList, h.after⟩
  | .backspace => h' = ⟨h.before.dropLast, h.after⟩
  | .delete => h' = ⟨h.before, h.after.tail⟩
  | .left => h' = ⟨h.before.dropLast, h.before.getLast?.toList ++ h.after⟩
  | .right => h' = ⟨h.before ++ h.after.head?.toList, h.after.tail⟩
  | .home | .lineEnd | .up | .down => h'.before ++ h'.after = h.before ++ h.after

/-- What edits make of two halves one after the other. -/
def Edit.TurnsAll (h h' : Halves) : List Edit → Prop
  | [] => h' = h
  | e :: es => ∃ m, e.Turns h m ∧ TurnsAll m h' es

/-! ### Bytes -/

/-- A text in bytes with a cursor that counts characters. -/
structure ByteBuffer where
  content : String
  cursor : Nat

namespace ByteBuffer

/-- A text with the cursor behind it. -/
def ofText (text : String) : ByteBuffer := ⟨text, text.length⟩

/-- A buffer with its text in bytes. -/
def ofBuffer (b : TextBuffer) : ByteBuffer := ⟨b.text, b.cursor⟩

end ByteBuffer

open Text in
/-- Carry an edit out on bytes. It fails when a change meets no beginning of a character. -/
def Edit.act? (b : ByteBuffer) : Edit → Option ByteBuffer
  | .insert c =>
    (insertAt? b.content (byteOf b.content b.cursor) (.singleton c)).map (⟨·, b.cursor + 1⟩)
  | .insertText s =>
    (insertAt? b.content (byteOf b.content b.cursor) s).map (⟨·, b.cursor + s.length⟩)
  | .backspace =>
    if 0 < b.cursor then
      (removeAt? b.content (byteOf b.content (b.cursor - 1))).map (⟨·, b.cursor - 1⟩)
    else some b
  | .delete =>
    if b.cursor < b.content.length then
      (removeAt? b.content (byteOf b.content b.cursor)).map (⟨·, b.cursor⟩)
    else some b
  | .left => some { b with cursor := b.cursor - 1 }
  | .right => some { b with cursor := min (b.cursor + 1) b.content.length }
  -- The other moves count rows and columns in characters, and find no bytes.
  | e => some { b with cursor := (e.apply ⟨b.content.toList, b.cursor⟩).cursor }

/-- Carry edits out on bytes one after the other. -/
def Edit.actAll? (b : ByteBuffer) (edits : List Edit) : Option ByteBuffer := edits.foldlM act? b

namespace TextBuffer

variable {b : TextBuffer}

/-- The cursor is in the text. -/
def IsInside (b : TextBuffer) : Prop := b.cursor ≤ b.chars.length

/-! ### Rows -/

theorem length_splitRows (cs : List Char) : (Text.splitRows cs).length = cs.count '\n' + 1 := by
  induction cs with
  | nil => rfl
  | cons c cs ih =>
    unfold Text.splitRows
    split
    next hc => simp [hc, ih]
    next hc =>
      rw [List.count_cons_of_ne hc, ← ih]
      split
      next hrows => simp [hrows] at ih
      next => simp_all

/-- The rows and the line feeds between them are the text. -/
theorem total_splitRows (cs : List Char) :
    Text.total (·.length + 1) (Text.splitRows cs) = cs.length + 1 := by
  induction cs with
  | nil => rfl
  | cons c cs ih =>
    unfold Text.splitRows
    split
    next => simp [ih]; omega
    next =>
      split
      next hrows => simp [hrows] at ih
      next row rows hrows =>
        rw [hrows, Text.total_cons] at ih
        simp only [Text.total_cons, List.length_cons]
        omega

/-- A row of the text ends in it. -/
theorem rowStart_add_rowLength_le {row : Nat} (h : row < b.rowCount) :
    b.rowStart row + b.rowLength row ≤ b.chars.length := by
  have h : row < b.rows.length := h
  have hrow : b.row row = b.rows[row] := by
    rw [TextBuffer.row, List.getD_eq_getElem?_getD, List.getElem?_eq_getElem h, Option.getD_some]
  have hall := total_splitRows b.chars
  have hparts : b.rows.take row ++ b.rows[row] :: b.rows.drop (row + 1) = b.rows := by
    rw [List.getElem_cons_drop, List.take_append_drop]
  rw [← rows, ← hparts, Text.total_append, Text.total_cons] at hall
  rw [rowStart, rowLength, hrow]
  omega

theorem row_foldl_after (cs : List Char) (p : Position) :
    (cs.foldl Position.after p).row = p.row + cs.count '\n' := by
  induction cs generalizing p with
  | nil => rfl
  | cons c cs ih =>
    rw [List.foldl_cons, ih, Position.after]
    split
    next hc => simp [hc]; omega
    next hc => rw [List.count_cons_of_ne hc]

/-- The cursor stands in one of the rows. -/
theorem row_position_lt (b : TextBuffer) : b.position.row < b.rowCount := by
  have hcount := (List.take_sublist b.cursor b.chars).count_le '\n'
  rw [rowCount, rows, length_splitRows, position, row_foldl_after]
  simpa using Nat.lt_succ_of_le hcount

/-! ### One edit -/

theorem isInside_moveTo {row : Nat} (h : row < b.rowCount) (column : Nat) :
    (b.moveTo row column).IsInside := by
  have := rowStart_add_rowLength_le h
  simp only [IsInside, moveTo]
  omega

/-- **Every edit leaves the cursor in the text.** -/
theorem isInside_apply (h : b.IsInside) (e : Edit) : (e.apply b).IsInside := by
  have hrow := rowStart_add_rowLength_le b.row_position_lt
  unfold IsInside at h
  cases e with
  | insert c => simp [IsInside, Edit.apply, insert, insertAll]; omega
  | insertText s => simp [IsInside, Edit.apply, insertAll]; omega
  | backspace =>
    simp only [Edit.apply, backspace]
    split
    next => exact h
    next hc =>
      have hlast : b.cursor - 1 < b.chars.length := by omega
      simp only [IsInside, List.length_eraseIdx, hlast, if_true]
      omega
  | delete =>
    simp only [Edit.apply, delete]
    split
    next hc => simp [IsInside, List.length_eraseIdx, hc]; omega
    next => exact h
  | left => simp [IsInside, Edit.apply, moveLeft]; omega
  | right => simp [IsInside, Edit.apply, moveRight]
  | home => simp [IsInside, Edit.apply, moveHome]; omega
  | lineEnd => exact hrow
  | up =>
    simp only [Edit.apply, moveUp]
    split
    next => exact h
    next => exact isInside_moveTo (by have := b.row_position_lt; omega) _
  | down =>
    simp only [Edit.apply, moveDown]
    split
    next hc => exact isInside_moveTo hc _
    next => exact h

/-- The moves between rows and inside a row keep the text. -/
theorem chars_apply_of_move {e : Edit} (h : e = .home ∨ e = .lineEnd ∨ e = .up ∨ e = .down) :
    (e.apply b).chars = b.chars := by
  rcases h with rfl | rfl | rfl | rfl
  · rfl
  · rfl
  · simp only [Edit.apply, moveUp]
    split <;> rfl
  · simp only [Edit.apply, moveDown]
    split <;> rfl

/-- The characters in front of the cursor and those behind it. -/
def halves (b : TextBuffer) : Halves := ⟨b.chars.take b.cursor, b.chars.drop b.cursor⟩

/-- A buffer with its cursor in the text is joined of its halves. -/
theorem joined_halves (h : b.IsInside) : b.halves.joined = b := by
  simp [halves, Halves.joined, List.length_take_of_le h]

theorem halves_joined (h : Halves) : h.joined.halves = h := by simp [halves, Halves.joined]

theorem isInside_joined (h : Halves) : h.joined.IsInside := by simp [IsInside, Halves.joined]

/-- A move divides the same text at another place. -/
theorem exists_turns_of_move (h : Halves) {e : Edit}
    (he : e = .home ∨ e = .lineEnd ∨ e = .up ∨ e = .down) :
    ∃ h' : Halves, h'.before ++ h'.after = h.before ++ h.after ∧ e.apply h.joined = h'.joined := by
  have hjoined := joined_halves (isInside_apply (isInside_joined h) e)
  have hchars := chars_apply_of_move (b := h.joined) he
  rw [← hjoined] at hchars
  exact ⟨_, hchars, hjoined.symm⟩

theorem insertAll_joined (h : Halves) (cs : List Char) :
    h.joined.insertAll cs = Halves.joined ⟨h.before ++ cs, h.after⟩ := by
  simp [insertAll, Halves.joined]

/-- **An edit changes a buffer where its halves meet.** -/
theorem exists_turns (h : Halves) (e : Edit) : ∃ h', e.Turns h h' ∧ e.apply h.joined = h'.joined := by
  obtain ⟨before, after⟩ := h
  cases e with
  | insert c => exact ⟨_, rfl, insertAll_joined _ _⟩
  | insertText s => exact ⟨_, rfl, insertAll_joined _ _⟩
  | backspace =>
    refine ⟨_, rfl, ?_⟩
    rcases List.eq_nil_or_concat before with rfl | ⟨init, c, rfl⟩
    · rfl
    · simp [Edit.apply, backspace, Halves.joined, List.eraseIdx_append_of_length_le]
  | delete =>
    refine ⟨_, rfl, ?_⟩
    cases after with
    | nil => simp [Edit.apply, delete, Halves.joined]
    | cons c after => simp [Edit.apply, delete, Halves.joined, List.eraseIdx_append_of_length_le]
  | left =>
    refine ⟨_, rfl, ?_⟩
    rcases List.eq_nil_or_concat before with rfl | ⟨init, c, rfl⟩
    · rfl
    · simp [Edit.apply, moveLeft, Halves.joined]
  | right =>
    refine ⟨_, rfl, ?_⟩
    cases after with
    | nil => simp [Edit.apply, moveRight, Halves.joined]
    | cons c after => simp [Edit.apply, moveRight, Halves.joined]
  | home => exact exists_turns_of_move _ (.inl rfl)
  | lineEnd => exact exists_turns_of_move _ (.inr (.inl rfl))
  | up => exact exists_turns_of_move _ (.inr (.inr (.inl rfl)))
  | down => exact exists_turns_of_move _ (.inr (.inr (.inr rfl)))

/-- **An edit does the same in bytes**, and finds the beginning of a character whenever it has to. -/
theorem act?_ofBuffer (h : b.IsInside) (e : Edit) :
    e.act? (.ofBuffer b) = some (.ofBuffer (e.apply b)) := by
  have hlength : b.text.length = b.chars.length := by simp [text]
  have hchars : b.text.toList = b.chars := by simp [text]
  have hmove : ∀ {e : Edit}, (e = .home ∨ e = .lineEnd ∨ e = .up ∨ e = .down) →
      some (ByteBuffer.mk b.text (e.apply ⟨b.text.toList, b.cursor⟩).cursor) =
        some (.ofBuffer (e.apply b)) := by
    intro e he
    rw [hchars, ByteBuffer.ofBuffer, text, text, chars_apply_of_move he]
  unfold IsInside at h
  cases e with
  | insert c =>
    simp only [Edit.act?, ByteBuffer.ofBuffer, Text.insertAt?_byteOf (hlength ▸ h), hchars,
      String.toList_singleton]
    rfl
  | insertText s =>
    simp only [Edit.act?, ByteBuffer.ofBuffer, Text.insertAt?_byteOf (hlength ▸ h), hchars,
      ← String.length_toList]
    rfl
  | backspace =>
    by_cases hc : b.cursor = 0
    · simp [Edit.act?, ByteBuffer.ofBuffer, Edit.apply, backspace, hc]
    · have hpos : 0 < (ByteBuffer.ofBuffer b).cursor := Nat.pos_of_ne_zero hc
      simp only [Edit.act?, if_pos hpos, Edit.apply, backspace, if_neg hc]
      simp only [ByteBuffer.ofBuffer]
      rw [Text.removeAt?_byteOf (by omega), hchars]
      rfl
  | delete =>
    by_cases hc : b.cursor < b.chars.length
    · simp only [Edit.act?, ByteBuffer.ofBuffer, Edit.apply, delete, hlength, if_pos hc]
      rw [Text.removeAt?_byteOf (by omega), hchars]
      rfl
    · simp only [Edit.act?, ByteBuffer.ofBuffer, Edit.apply, delete, hlength, if_neg hc]
  | left => rfl
  | right => simp [Edit.act?, ByteBuffer.ofBuffer, Edit.apply, moveRight, text]
  | home => exact hmove (.inl rfl)
  | lineEnd => exact hmove (.inr (.inl rfl))
  | up => exact hmove (.inr (.inr (.inl rfl)))
  | down => exact hmove (.inr (.inr (.inr rfl)))

/-! ### Edits one after the other -/

/-- What edits make of two halves, and that they do it in bytes. -/
theorem exists_turnsAll (h : Halves) (edits : List Edit) :
    ∃ h', Edit.TurnsAll h h' edits ∧ Edit.applyAll h.joined edits = h'.joined ∧
      Edit.actAll? (.ofBuffer h.joined) edits = some (.ofBuffer h'.joined) := by
  induction edits generalizing h with
  | nil => exact ⟨h, rfl, rfl, rfl⟩
  | cons e edits ih =>
    obtain ⟨m, hturns, hjoined⟩ := exists_turns h e
    obtain ⟨h', hall, hbuffer, hbytes⟩ := ih m
    refine ⟨h', ⟨m, hturns, hall⟩, ?_, ?_⟩
    · rw [Edit.applyAll, List.foldl_cons, hjoined]
      exact hbuffer
    · rw [Edit.actAll?, List.foldlM_cons, act?_ofBuffer (isInside_joined h) e, hjoined]
      exact hbytes

/-- **Editing joins two halves.** Whatever text a buffer begins with and whatever edits follow, the
buffer is joined of what the edits make of two lists of characters, so its cursor is in the text; and
no edit on bytes ever meets anything but the beginning of a character. -/
theorem editing_joins_two_halves (text : String) (edits : List Edit) :
    let b := Edit.applyAll (ofText text) edits
    b.cursor ≤ b.chars.length ∧
      (∃ h, Edit.TurnsAll ⟨text.toList, []⟩ h edits ∧ b = h.joined) ∧
      Edit.actAll? (.ofText text) edits = some ⟨b.text, b.cursor⟩ := by
  obtain ⟨h, hall, hbuffer, hbytes⟩ := exists_turnsAll ⟨text.toList, []⟩ edits
  have hstart : ofText text = Halves.joined ⟨text.toList, []⟩ := by simp [ofText, Halves.joined]
  have hbytesStart : ByteBuffer.ofText text = .ofBuffer (Halves.joined ⟨text.toList, []⟩) := by
    simp [ByteBuffer.ofText, ByteBuffer.ofBuffer, Halves.joined, TextBuffer.text,
      ← String.length_toList]
  intro b
  have hb : b = h.joined := by simp only [b, hstart, hbuffer]
  refine ⟨hb ▸ isInside_joined h, ⟨h, hall, hb⟩, ?_⟩
  rw [hbytesStart, hbytes, hb]
  rfl

end TextBuffer

end PublisherConsole
