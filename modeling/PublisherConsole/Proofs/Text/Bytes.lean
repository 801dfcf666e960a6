import Mathlib.Tactic

/-!
# Changes at a byte

A text is kept in UTF-8, where a character takes one to four bytes. It can be changed at a byte only
where a character begins or the text ends: `insertAt?` and `removeAt?` fail at any other byte, and
`removeAt?` also at the end. Places that count characters have to be turned into bytes first
(`byteOf`). Between two parts of a text (`insertAt?_of_parts`, `removeAt?_of_parts`) and in front of the
character with a given number (`insertAt?_byteOf`, `removeAt?_byteOf`) the changes succeed.
-/

namespace PublisherConsole.Text

variable {text new s t : String} {byte n : Nat} {c : Char}

/-- The bytes at which characters begin, the first of them at the given byte. -/
def starts (byte : Nat) : List Char → List Nat
  | [] => []
  | c :: cs => byte :: starts (byte + c.utf8Size) cs

/-- The byte at which the character with the given number begins, or the end of the text. -/
def byteOf (text : String) (n : Nat) : Nat := (starts 0 text.toList).getD n text.utf8ByteSize

/-- The two parts of a text around a byte; none when the byte lies inside a character or behind the
end. -/
def cutAt? (text : String) (byte : Nat) : Option (String × String) :=
  if h : (⟨byte⟩ : String.Pos.Raw).IsValid text then
    some ((text.sliceTo ⟨⟨byte⟩, h⟩).copy, (text.sliceFrom ⟨⟨byte⟩, h⟩).copy)
  else none

/-- Write a text into another one at a byte. -/
def insertAt? (text : String) (byte : Nat) (new : String) : Option String :=
  (cutAt? text byte).map fun (before, after) => before ++ new ++ after

/-- Remove the character that begins at a byte. -/
def removeAt? (text : String) (byte : Nat) : Option String :=
  (cutAt? text byte).bind fun (before, after) =>
    match after.toList with
    | [] => none
    | _ :: rest => some (before ++ String.ofList rest)

/-! ### Where a text can be cut -/

/-- A text is cut between two parts of it, and nowhere else. -/
theorem cutAt?_eq_some_iff : cutAt? text byte = some (s, t) ↔ text = s ++ t ∧ byte = s.utf8ByteSize := by
  unfold cutAt?
  split
  next h =>
    have hsplits := (⟨⟨byte⟩, h⟩ : text.Pos).splits
    rw [Option.some.injEq, Prod.mk.injEq]
    constructor
    · rintro ⟨rfl, rfl⟩
      exact ⟨hsplits.eq_append, congrArg String.Pos.Raw.byteIdx hsplits.offset_eq_rawEndPos⟩
    · rintro ⟨htext, hbyte⟩
      exact hsplits.eq ⟨htext, String.Pos.Raw.ext hbyte⟩
  next h =>
    refine iff_of_false nofun ?_
    rintro ⟨htext, hbyte⟩
    exact h (String.Pos.Raw.isValid_iff_exists_append.2 ⟨s, t, htext, String.Pos.Raw.ext hbyte⟩)

/-- Nothing is written inside a character, and nothing is removed at the end. -/
example : insertAt? "né" 2 "x" = none ∧ removeAt? "né" 3 = none := by decide

/-- Between two parts of a text another one can be written. -/
theorem insertAt?_of_parts (htext : text = s ++ t) (hbyte : byte = s.utf8ByteSize) :
    insertAt? text byte new = some (s ++ new ++ t) := by
  have hcut : cutAt? text byte = some (s, t) := cutAt?_eq_some_iff.2 ⟨htext, hbyte⟩
  simp [insertAt?, hcut]

/-- The first character of the second part can be removed. -/
theorem removeAt?_of_parts (htext : text = s ++ (String.singleton c ++ t))
    (hbyte : byte = s.utf8ByteSize) : removeAt? text byte = some (s ++ t) := by
  have hcut : cutAt? text byte = some (s, String.singleton c ++ t) :=
    cutAt?_eq_some_iff.2 ⟨htext, hbyte⟩
  simp [removeAt?, hcut]

/-! ### From characters to bytes -/

theorem getElem?_starts (cs : List Char) (h : n < cs.length) :
    (starts byte cs)[n]? = some (byte + (String.ofList (cs.take n)).utf8ByteSize) := by
  induction cs generalizing byte n with
  | nil => simp at h
  | cons c cs ih =>
    cases n with
    | zero => simp [starts]
    | succ n =>
      have hrest : (starts (byte + c.utf8Size) cs)[n]? =
          some (byte + c.utf8Size + (String.ofList (cs.take n)).utf8ByteSize) := ih (by simpa using h)
      rw [starts, List.getElem?_cons_succ, hrest, List.take_succ_cons, ← List.singleton_append,
        String.ofList_append, String.utf8ByteSize_append]
      simp [Nat.add_assoc]

theorem length_starts (cs : List Char) : (starts byte cs).length = cs.length := by
  induction cs generalizing byte with
  | nil => rfl
  | cons c cs ih => simp [starts, ih]

/-- The characters in front of a place end at its byte. -/
theorem byteOf_eq (h : n ≤ text.length) :
    byteOf text n = (String.ofList (text.toList.take n)).utf8ByteSize := by
  rw [← String.length_toList] at h
  rw [byteOf, List.getD_eq_getElem?_getD]
  rcases h.lt_or_eq with hn | rfl
  · rw [getElem?_starts text.toList hn]
    simp
  · rw [List.getElem?_eq_none (length_starts _).le, List.take_length]
    simp

/-- In front of any character, and at the end, a text can be written. -/
theorem insertAt?_byteOf (h : n ≤ text.length) (new : String) :
    insertAt? text (byteOf text n) new =
      some (String.ofList (text.toList.take n ++ new.toList ++ text.toList.drop n)) := by
  have htext : text = String.ofList (text.toList.take n) ++ String.ofList (text.toList.drop n) := by
    rw [← String.ofList_append, List.take_append_drop, String.ofList_toList]
  rw [insertAt?_of_parts htext (byteOf_eq h), String.ofList_append, String.ofList_append,
    String.ofList_toList]

/-- Any character can be removed. -/
theorem removeAt?_byteOf (h : n < text.length) :
    removeAt? text (byteOf text n) = some (String.ofList (text.toList.eraseIdx n)) := by
  have hn : n < text.toList.length := by rwa [String.length_toList]
  have htext : text = String.ofList (text.toList.take n) ++
      (String.singleton text.toList[n] ++ String.ofList (text.toList.drop (n + 1))) := by
    rw [String.singleton_eq_ofList, ← String.ofList_append, ← String.ofList_append,
      List.singleton_append, List.getElem_cons_drop, List.take_append_drop, String.ofList_toList]
  rw [removeAt?_of_parts htext (byteOf_eq h.le), List.eraseIdx_eq_take_drop_succ,
    String.ofList_append]

end PublisherConsole.Text
