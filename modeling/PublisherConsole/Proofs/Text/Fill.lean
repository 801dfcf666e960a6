import PublisherConsole.Proofs.Text.ColumnMinima
import PublisherConsole.Proofs.Text.Words
import PublisherConsole.Text.Fill

/-!
# What filling keeps of a text

Filling takes a row apart into lines and drops nothing but blanks between them.

* `Spaced` says how the lines of a row lie in it: each is followed by the blanks that were dropped,
  what comes behind dropped blanks is no blank, and a line without characters has some behind it;
* the lines that are read off the minima put the words together again (`flatten_linesBack`);
* `spaced_fillRow`: the lines of a row lie in it.
-/

namespace PublisherConsole.Text

/-! ### Rows -/

theorem splitRows_ne_nil (cs : List Char) : splitRows cs ≠ [] := by
  cases cs with
  | nil => simp [splitRows]
  | cons c cs =>
    simp only [splitRows]
    split
    · simp
    · split <;> simp

/-- The rows with line feeds between them are the text. -/
theorem intercalate_splitRows (cs : List Char) : ['\n'].intercalate (splitRows cs) = cs := by
  induction cs with
  | nil => rfl
  | cons c cs ih =>
    obtain ⟨row, rows, hrows⟩ := List.exists_cons_of_ne_nil (splitRows_ne_nil cs)
    simp only [splitRows]
    split
    next hc =>
      rw [hrows] at ih ⊢
      rw [List.intercalate_cons_cons, ih, hc]
      rfl
    next hc =>
      rw [hrows] at ih
      simp only [hrows]
      cases rows with
      | nil => simpa using ih
      | cons next rows => simpa [List.intercalate_cons_cons] using ih

/-- There is no line feed in a row. -/
theorem lineFeed_notMem_row {cs row : List Char} (h : row ∈ splitRows cs) : '\n' ∉ row := by
  induction cs generalizing row with
  | nil => simp_all [splitRows]
  | cons c cs ih =>
    simp only [splitRows] at h
    split at h
    next hc =>
      rcases List.mem_cons.1 h with rfl | h
      · simp
      · exact ih h
    next hc =>
      split at h
      next hrows => exact absurd hrows (splitRows_ne_nil cs)
      next first rows hrows =>
        rcases List.mem_cons.1 h with rfl | h
        · have hfirst : '\n' ∉ first := ih (by simp [hrows])
          simp [Ne.symm hc, hfirst]
        · exact ih (by simp [hrows, h])

/-- A text without line feeds is one row. -/
theorem splitRows_of_notMem {cs : List Char} (h : '\n' ∉ cs) : splitRows cs = [cs] := by
  induction cs with
  | nil => rfl
  | cons c cs ih =>
    rw [List.mem_cons, not_or] at h
    rw [splitRows, if_neg (Ne.symm h.1), ih h.2]

/-! ### Lines of a row -/

/-- How lines lie in a row: each has the blanks behind it that were dropped, and what comes behind
them is another character. -/
inductive Spaced : List (List Char) → List Char → Prop
  | last {piece : List Char} {n : Nat} (h : piece = [] → 0 < n) :
      Spaced [piece] (piece ++ List.replicate n ' ')
  | cons {piece next : List Char} {pieces : List (List Char)} {cs : List Char} {n : Nat}
      (h : piece = [] → 0 < n) (hnext : 0 < n → ∃ c, next.head? = some c ∧ c ≠ ' ')
      (rest : Spaced (next :: pieces) cs) :
      Spaced (piece :: next :: pieces) (piece ++ List.replicate n ' ' ++ cs)

/-- The words of a line without the blanks behind the last one. -/
theorem lineText_append {ws : List Word} {w : Word} (h : ws.getLast? = some w) :
    lineText ws ++ List.replicate w.blanks ' ' = ws.flatMap Word.all := by
  induction ws with
  | nil => cases h
  | cons v ws ih =>
    cases ws with
    | nil =>
      obtain rfl : v = w := by simpa using h
      simp [lineText, Word.all]
    | cons v' ws =>
      have hrest := ih (by simpa using h)
      rw [lineText, List.append_assoc, hrest]
      · rfl
      · simp

/-- A line begins as its first word does, unless that begins with a blank. -/
theorem head?_lineText {w : Word} {ws : List Word} {c : Char} (h : w.all.head? = some c)
    (hc : c ≠ ' ') : (lineText (w :: ws)).head? = some c := by
  cases ws with
  | nil =>
    rw [Word.all, List.head?_append] at h
    cases hw : w.chars.head? with
    | some d => simpa [lineText, hw] using h
    | none =>
      rw [hw, Option.none_or] at h
      exact absurd (List.eq_of_mem_replicate (List.mem_of_head? h)) hc
  | cons v ws =>
    rw [lineText, List.head?_append, h]
    · rfl
    · simp

/-- Words that are put together to lines lie in the row as lines do. -/
theorem spaced_of_lines {lines : List (List Word)} {cs : List Char} (hne : lines ≠ [])
    (hlines : ∀ ws ∈ lines, ws ≠ []) (h : Divides lines.flatten cs) :
    Spaced (lines.map lineText) cs := by
  induction lines generalizing cs with
  | nil => exact absurd rfl hne
  | cons ws lines ih =>
    simp only [List.forall_mem_cons] at hlines
    rw [List.flatten_cons] at h
    obtain ⟨w, hw⟩ : ∃ w, ws.getLast? = some w := ⟨_, List.getLast?_eq_some_getLast hlines.1⟩
    have hline := lineText_append hw
    have hlast : lineText ws = [] → 0 < w.blanks := by
      intro hnil
      by_contra hzero
      have hempty : ws.flatMap Word.all = [] := by
        rw [← hline, hnil, Nat.le_zero.1 (Nat.not_lt.1 hzero)]
        rfl
      have hmem := List.mem_of_getLast? hw
      exact h.nonempty w (by simp [hmem]) (List.flatMap_eq_nil_iff.1 hempty w hmem)
    cases lines with
    | nil =>
      have hcs : cs = lineText ws ++ List.replicate w.blanks ' ' := by
        rw [hline, ← h.all]
        simp
      rw [hcs]
      exact .last hlast
    | cons ws' lines =>
      have hrest : Divides (ws' :: lines).flatten ((ws' :: lines).flatten.flatMap Word.all) :=
        ⟨rfl, fun v hv => h.nonempty v (List.mem_append_right _ hv),
          (List.isChain_append.1 h.apart).2.1⟩
      have hcs : cs = lineText ws ++ List.replicate w.blanks ' ' ++
          (ws' :: lines).flatten.flatMap Word.all := by
        rw [hline, ← h.all, List.flatMap_append]
      obtain ⟨v, vs, rfl⟩ := List.exists_cons_of_ne_nil (hlines.2 ws' (by simp))
      rw [hcs]
      refine .cons hlast (fun hblanks => ?_) (ih (by simp) hlines.2 hrest)
      -- The next line begins with a word, which has characters and does not begin with a blank.
      have hnot : v.all.head? ≠ some ' ' :=
        (List.isChain_append.1 h.apart).2.2 w hw v (by simp) hblanks
      obtain ⟨c, hc⟩ : ∃ c, v.all.head? = some c :=
        ⟨_, List.head?_eq_some_head (h.nonempty v (by simp))⟩
      have hne : c ≠ ' ' := by
        rintro rfl
        exact hnot hc
      exact ⟨c, head?_lineText hc hne, hne⟩

/-! ### Reading off the lines -/

/-- The words of a line, by the places where it begins and ends. -/
def slice (ws : List Word) (place : Nat × Nat) : List Word :=
  (ws.drop place.1).take (place.2 - place.1)

theorem slice_ne_nil {ws : List Word} {start stop : Nat} (h : start < stop)
    (hstop : stop ≤ ws.length) : slice ws (start, stop) ≠ [] := by
  intro hnil
  have := congrArg List.length hnil
  simp only [slice, List.length_take, List.length_drop, List.length_nil] at this
  omega

theorem take_append_slice (ws : List Word) {start stop : Nat} (h : start ≤ stop) :
    ws.take start ++ slice ws (start, stop) = ws.take stop := by
  obtain ⟨n, rfl⟩ := Nat.exists_eq_add_of_le h
  rw [slice, Nat.add_sub_cancel_left, List.take_add]

/-- Lines that begin before they end are read off one behind the other, and have all of the words. -/
theorem flatten_linesBack {minima : Array Minimum} {ws : List Word}
    (h : ∀ j, 0 < j → (minima.getD j default).row < j) (fuel : Nat) {stop : Nat}
    (hfuel : stop < fuel) (hpos : 0 < stop) (hstop : stop ≤ ws.length) :
    let lines := (linesBack minima fuel stop).reverse.map (slice ws)
    lines.flatten = ws.take stop ∧ lines ≠ [] ∧ ∀ line ∈ lines, line ≠ [] := by
  induction fuel generalizing stop with
  | zero => omega
  | succ fuel ih =>
    have hrow := h stop hpos
    simp only [linesBack]
    split
    next hzero =>
      rw [hzero]
      have hne := slice_ne_nil hpos hstop
      refine ⟨?_, by simp, by simpa using hne⟩
      simpa using take_append_slice ws (Nat.zero_le stop)
    next hnonzero =>
      obtain ⟨hflatten, -, hlines⟩ := ih (hrow.trans_le (Nat.le_of_lt_succ hfuel))
        (Nat.pos_of_ne_zero hnonzero) (hrow.le.trans hstop)
      have hne := slice_ne_nil hrow hstop
      rw [List.reverse_cons, List.map_append]
      refine ⟨?_, by simp, fun line hline => ?_⟩
      · rw [List.flatten_append, hflatten, List.map_singleton, List.flatten_singleton,
          take_append_slice ws hrow.le]
      · rcases List.mem_append.1 hline with hline | hline
        · exact hlines line hline
        · rw [List.map_singleton, List.mem_singleton] at hline
          rw [hline]
          exact hne

/-- The best lines have all of the words, and each line has some. -/
theorem flatten_bestLines (width : Nat) {ws : List Word} (h : ws ≠ []) :
    ((bestLines width ws).map (slice ws)).flatten = ws ∧ (bestLines width ws).map (slice ws) ≠ [] ∧
      ∀ line ∈ (bestLines width ws).map (slice ws), line ≠ [] := by
  simp only [bestLines]
  generalize hminima : columnMinima _ _ = minima
  have hrow : ∀ j, 0 < j → (minima.getD j default).row < j :=
    fun j hj => hminima ▸ row_columnMinima_lt _ (Nat.succ_pos _) hj
  have hlines := flatten_linesBack hrow (ws.length + 1) (Nat.lt_succ_self _)
    (List.length_pos_iff.2 h) (le_refl ws.length)
  rwa [List.take_length] at hlines

/-- The lines of a row lie in it. -/
theorem spaced_fillRow (width : Nat) {cs : List Char} (hcs : cs ≠ []) :
    Spaced (fillRow width cs) cs := by
  unfold fillRow
  split
  · -- A short row is a line of its own.
    have happend := dropBlanks_append cs
    generalize (cs.reverse.dropWhile (· = ' ')).reverse = piece at happend
    generalize cs.length - piece.length = n at happend
    rw [← happend]
    refine .last fun hpiece => Nat.pos_of_ne_zero fun hn => hcs ?_
    rw [← happend, hpiece, hn]
    rfl
  · have hdivides := divides_fragments width cs
    generalize fragments width cs = ws at hdivides
    have hws : ws ≠ [] := by
      rintro rfl
      exact hcs hdivides.all.symm
    obtain ⟨hflatten, hne, hlines⟩ := flatten_bestLines width hws
    have hspaced := spaced_of_lines hne hlines (hflatten.symm ▸ hdivides)
    rwa [List.map_map] at hspaced

theorem fillRow_nil {width : Nat} (h : 0 < width) : fillRow width [] = [[]] := by
  simp [fillRow, h]

end PublisherConsole.Text
