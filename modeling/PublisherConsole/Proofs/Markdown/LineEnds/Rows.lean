import PublisherConsole.Proofs.Markdown.Payload
import PublisherConsole.Proofs.Text.Fill

/-!
# Line ends with carriage returns

`withReturns` puts a carriage return in front of every line feed. For the lines of a text this makes no
difference (`splitLines_withReturns`). But code with carriage returns is read in other stretches
(`recut`): every line feed starts one, and what is read in a stretch of its own is shown on lines of its
own. So the line feed that ends a row gives one more line, unless there is nothing else on its row
(`length_splitLines_recut`, `splitLines_recut`).
-/

namespace PublisherConsole.Markdown

open Text (splitRows splitLines dropReturn)

/-- A text with a carriage return in front of every line feed. -/
def withReturns (cs : List Char) : List Char :=
  cs.flatMap fun c => if c = '\n' then ['\r', '\n'] else [c]

/-- The stretches in which code is read if carriage returns stand in front of its line feeds: each line
feed starts one. -/
def recut (cs : List Char) : List (List Char) :=
  match splitRows cs with
  | [] => []
  | row :: rows => (if row.isEmpty then [] else [row]) ++ rows.map ('\n' :: ·)

/-- How many rows with anything on them are ended by a line feed. -/
def endedRows (cs : List Char) : Nat := (splitRows cs).dropLast.countP (! ·.isEmpty)

/-! ### The lines of a stretch -/

/-- The line of a row, if there is anything on it. -/
def lineOfRow (row : List Char) : List String := if row.isEmpty then [] else [String.ofList row]

theorem splitLines_ofList (cs : List Char) : splitLines (String.ofList cs) =
    ((splitRows cs).dropLast.map dropReturn).map String.ofList ++
      lineOfRow ((splitRows cs).getLastD []) := by
  rw [splitLines, String.toList_ofList, List.map_append, lineOfRow]
  split <;> rfl

theorem splitLines_lineFeed_cons {row : List Char} (h : '\n' ∉ row) :
    splitLines (String.ofList ('\n' :: row)) = "" :: lineOfRow row := by
  have rows : splitRows ('\n' :: row) = [[], row] := by
    rw [splitRows, if_pos rfl, Text.splitRows_of_notMem h]
  rw [splitLines_ofList, rows]
  rfl

/-- The lines of code from its recut stretches. -/
theorem flatMap_splitLines_recut (cs : List Char) {row : List Char} {rows : List (List Char)}
    (heq : splitRows cs = row :: rows) :
    (recut cs).flatMap (fun cs => splitLines (String.ofList cs)) =
      lineOfRow row ++ rows.flatMap fun row => "" :: lineOfRow row := by
  have plain := fun row (h : row ∈ splitRows cs) => Text.lineFeed_notMem_row h
  rw [heq] at plain
  have first : (if row.isEmpty then [] else [row]).flatMap (fun cs => splitLines (String.ofList cs)) =
      lineOfRow row := by
    unfold lineOfRow
    split
    · rfl
    next some =>
      rw [List.flatMap_singleton, splitLines_ofList,
        Text.splitRows_of_notMem (plain row (List.mem_cons_self ..))]
      simp [lineOfRow, some]
  rw [recut, heq]
  dsimp only
  rw [List.flatMap_append, first, List.flatMap_map]
  congr 1
  exact List.flatMap_congr fun row h => splitLines_lineFeed_cons (plain row (List.mem_cons_of_mem _ h))

/-- Recutting adds a line for every row with anything on it that is ended. -/
theorem length_splitLines_recut (cs : List Char) :
    ((recut cs).flatMap fun cs => splitLines (String.ofList cs)).length =
      (splitLines (String.ofList cs)).length + endedRows cs := by
  obtain ⟨row, rows, heq⟩ := List.exists_cons_of_ne_nil (Text.splitRows_ne_nil cs)
  rw [flatMap_splitLines_recut cs heq, splitLines_ofList, endedRows, heq]
  have lines (row : List Char) : (lineOfRow row).length = if row.isEmpty then 0 else 1 := by
    unfold lineOfRow
    split <;> rfl
  clear heq
  induction rows generalizing row with
  | nil => simp [lines]
  | cons next rows ih =>
    have rest := ih next
    by_cases empty : row.isEmpty <;> simp_all <;> omega

theorem endedRows_le (cs : List Char) : endedRows cs ≤ (splitLines (String.ofList cs)).length := by
  rw [splitLines_ofList, List.length_append, List.length_map, List.length_map]
  exact Nat.le_trans List.countP_le_length (Nat.le_add_right _ _)

/-- If no row with anything on it is ended, the lines are the same. -/
theorem splitLines_recut (cs : List Char) (h : endedRows cs = 0) :
    ((recut cs).flatMap fun cs => splitLines (String.ofList cs)) = splitLines (String.ofList cs) := by
  obtain ⟨row, rows, heq⟩ := List.exists_cons_of_ne_nil (Text.splitRows_ne_nil cs)
  rw [flatMap_splitLines_recut cs heq, splitLines_ofList, heq]
  rw [endedRows, heq] at h
  clear heq
  induction rows generalizing row with
  | nil => simp
  | cons next rows ih =>
    rw [List.dropLast_cons_cons, List.countP_cons] at h
    have rest := ih next (by omega)
    obtain rfl : row = [] := by simpa using (show ¬ (!row.isEmpty) = true by intro some; simp [some] at h)
    simpa [lineOfRow, dropReturn] using rest

/-! ### Carriage returns -/

theorem withReturns_cons (c : Char) (cs : List Char) :
    withReturns (c :: cs) = (if c = '\n' then ['\r', '\n'] else [c]) ++ withReturns cs := List.flatMap_cons

theorem withReturns_append (cs ds : List Char) : withReturns (cs ++ ds) = withReturns cs ++ withReturns ds :=
  List.flatMap_append

theorem splitRows_withReturns (cs : List Char) : splitRows (withReturns cs) =
    (splitRows cs).dropLast.map (· ++ ['\r']) ++ [(splitRows cs).getLastD []] := by
  induction cs with
  | nil => rfl
  | cons c cs ih =>
    obtain ⟨row, rows, heq⟩ := List.exists_cons_of_ne_nil (Text.splitRows_ne_nil cs)
    rw [heq] at ih
    rw [withReturns_cons]
    by_cases feed : c = '\n'
    · subst feed
      rw [if_pos rfl, List.cons_append, List.cons_append, List.nil_append, splitRows, if_neg (by decide),
        splitRows, if_pos rfl, ih, splitRows, if_pos rfl, heq]
      simp
    · rw [if_neg feed, List.cons_append, List.nil_append, splitRows, if_neg feed, ih, splitRows,
        if_neg feed, heq]
      cases rows <;> simp

theorem mem_of_mem_splitRows {cs row : List Char} (h : row ∈ splitRows cs) : row ⊆ cs := by
  fun_induction splitRows cs generalizing row with
  | case1 => simp_all
  | case2 cs ih =>
    rcases List.mem_cons.1 h with rfl | h
    · exact List.nil_subset _
    · exact List.subset_cons_of_subset _ (ih h)
  | case3 c cs _ empty => exact absurd empty (Text.splitRows_ne_nil cs)
  | case4 c cs _ first rows heq ih =>
    rw [heq] at ih
    rcases List.mem_cons.1 h with rfl | h
    · exact List.cons_subset_cons _ (ih (List.mem_cons_self ..))
    · exact List.subset_cons_of_subset _ (ih (List.mem_cons_of_mem _ h))

/-- A carriage return in front of a line feed belongs to the end of the line. -/
theorem splitLines_withReturns {cs : List Char} (plain : '\r' ∉ cs) :
    splitLines (String.ofList (withReturns cs)) = splitLines (String.ofList cs) := by
  rw [splitLines_ofList, splitLines_ofList, splitRows_withReturns]
  have rows : (splitRows cs).dropLast.map dropReturn = (splitRows cs).dropLast := by
    refine (List.map_congr_left fun row h => ?_).trans (List.map_id _)
    have same : '\r' ∉ row := fun h' => plain (mem_of_mem_splitRows (List.mem_of_mem_dropLast h) h')
    rw [dropReturn, if_neg fun last => same (List.mem_of_getLast? last), id]
  have returns : ((splitRows cs).dropLast.map (· ++ ['\r'])).map dropReturn = (splitRows cs).dropLast := by
    rw [List.map_map]
    exact (List.map_congr_left fun row _ => by simp [dropReturn]).trans (List.map_id _)
  rw [List.dropLast_concat, List.getLastD_concat, returns, rows]

end PublisherConsole.Markdown
