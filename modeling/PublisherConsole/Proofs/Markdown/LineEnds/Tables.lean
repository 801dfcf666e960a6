import PublisherConsole.Proofs.Markdown.LineEnds.Readers

/-!
# Headings and tables of a text with carriage returns

A heading is read to some place behind its start, into a block whose pieces follow each other, and with
carriage returns into what becomes of that block (`readHeading_crlf`). So is a table: a row is read cell by cell
(`cellsFrom_crlf`), and the rows go on as long as something is on their lines (`rowsFrom_crlf`).
-/

namespace PublisherConsole.Markdown

variable {s : Source} {r : Reader} {m : Margin} {i j k n n' b : Nat} {c : Char} {path : List Container}
  {pieces : List Piece} {ending : LineBreak}

/-! ### Places -/

namespace Source

theorem skipBack_le (p : Char → Bool) (low i : Nat) : s.skipBack p low i ≤ i := by
  induction i with
  | zero => exact Nat.le_refl 0
  | succ i ih =>
    rw [skipBack]
    split
    · exact Nat.le_succ_of_le ih
    · exact Nat.le_refl _

theorem le_skipBack (p : Char → Bool) {low : Nat} (h : low ≤ i) : low ≤ s.skipBack p low i := by
  induction i with
  | zero => exact h
  | succ i ih =>
    rw [skipBack]
    split
    next skipped => exact ih (of_decide_eq_true (Bool.and_eq_true_iff.1 skipped).1)
    next => exact h

theorem le_of_blankLine? (read : s.blankLine? i = some j) : i ≤ j :=
  Nat.le_trans (s.le_skip _ i) (Source.le_of_lineEnd? read)

/-- A line that is not blank does not end here. -/
theorem lineEnd?_of_blankLine? (some : s.blankLine? i = none) : s.lineEnd? i = none := by
  rw [blankLine?, skipBlanks, skip_eq] at some
  split at some
  next blank =>
    obtain ⟨c, here, blank⟩ := (Option.any_eq_true _ _).1 blank
    rw [lineEnd?, here]
    split
    next none => cases none
    next feed =>
      obtain rfl := Option.some.inj feed
      cases blank
    next return' =>
      obtain rfl := Option.some.inj return'
      cases blank
    next => rfl
  next => exact some

variable [s.IsPlain]

/-- Where a line does not end, something stands in it. -/
theorem exists_of_lineEnd? (line : s.lineEnd? i = none) : ∃ c, s.char? i = some c ∧ c ≠ '\n' := by
  rcases s.seen i with ⟨here, -⟩ | ⟨here, -, -, -⟩ | ⟨here, -, -, feed, -⟩
  · rw [lineEnd?, here] at line
    cases line
  · rw [lineEnd?_of_feed here] at line
    cases line
  · exact ⟨_, here, feed⟩

theorem lt_stop_of_lineEnd? (line : s.lineEnd? i = none) : i < s.stop := by
  obtain ⟨c, here, -⟩ := exists_of_lineEnd? line
  exact lt_stop here

/-- No line feed stands in front of what is read here. -/
theorem front_of_lineEnd? (line : s.lineEnd? i = none) : 0 < i ∨ s.char? 0 ≠ some '\n' := by
  obtain ⟨c, here, feed⟩ := exists_of_lineEnd? line
  rcases Nat.eq_zero_or_pos i with rfl | some
  · exact .inr fun first => feed (Option.some.inj (here.symm.trans first))
  · exact .inl some

/-- A line ends behind every place in it. -/
theorem lt_of_blankLine? (inside : i < s.stop) (read : s.blankLine? i = some j) : i < j := by
  cases line : s.lineEnd? i with
  | none =>
    obtain ⟨c, here, -⟩ := exists_of_lineEnd? line
    have low : i ≤ s.skipBlanks i := s.le_skip _ i
    rcases Nat.eq_or_lt_of_le low with same | lt
    · rw [blankLine?, ← same, line] at read
      cases read
    · exact Nat.lt_of_lt_of_le lt (Source.le_of_lineEnd? read)
  | some behind =>
    obtain ⟨c, here⟩ : ∃ c, s.char? i = some c :=
      Option.ne_none_iff_exists'.1 fun none => absurd (char?_eq_none.1 none) (Nat.not_le.2 inside)
    have stays : s.skipBlanks i = i := by
      rw [skipBlanks, skip_eq, if_neg]
      intro blank
      rcases s.seen i with ⟨none, -⟩ | ⟨feed, -, -, -⟩ | ⟨other, -, -, feed, plain⟩
      · cases here.symm.trans none
      · rw [feed] at blank
        cases blank
      · rw [lineEnd?, other] at line
        split at line
        next none => cases none
        next same => exact feed (Option.some.inj same)
        next same => exact plain (Option.some.inj same)
        next => cases line
    rw [blankLine?, stays] at read
    exact lt_of_lineEnd? here read

end Source

/-! ### Leaves -/

theorem Source.HasPieces.tail (h : s.HasPieces b pieces) : s.HasRow pieces.tail.reverse := by
  cases h with
  | nil => exact (HasPieces.nil b).hasRow
  | cons before => exact before.hasRow

/-- The last piece may end elsewhere in its line. -/
theorem Source.HasPieces.trimPieces (h : s.HasPieces b pieces) (line : s.feeds j = b) :
    s.HasPieces b (trimPieces pieces j) := by
  cases h with
  | nil => exact .nil b
  | @cons _ p rest before here stop =>
    refine .cons before ?_ line
    cases here with
    | inLine same next => exact .inLine ((line.trans stop.symm).trans same) next
    | lineEnd kind front => exact .lineEnd kind front

theorem trimPieces_crlf (pieces : List Piece) (stop : Nat) :
    trimPieces (pieces.map s.shiftPiece) (s.shift stop) = (trimPieces pieces stop).map s.shiftPiece := by
  cases pieces <;> rfl

/-- With a leaf a block is read whose pieces follow each other. -/
theorem hasRow_shiftLeaf (pieces : List Piece) (stop : Nat) :
    (⟨(pieces.map s.shiftPiece).reverse, s.shift stop⟩ : Leaf) = s.shiftLeaf ⟨pieces.reverse, stop⟩ := by
  rw [Source.shiftLeaf, List.map_reverse]

/-- A block is read and put to the others. -/
theorem Source.IsRead.add {b b' : Block} (h : r.Holds s.HasBlock) (here : s.HasBlock b) (same : b' = s.shiftBlock b)
    (lt : i < j) : s.IsRead i (r.add b, j) ((s.shiftReader r).add b', s.shift j) where
  holds := h.add here
  lt := lt
  shift := by rw [same, Reader.add_shiftReader]

/-! ### Headings -/

/-- The number signs of a heading. -/
theorem of_headingLevel? {level : Nat} (read : headingLevel? s i = some level) :
    i + level = s.skipRun '#' i ∧ 0 < level := by
  have low : i ≤ s.skipRun '#' i := s.le_skip _ i
  unfold headingLevel? at read
  dsimp only at read
  split at read
  next signs =>
    obtain rfl := Option.some.inj read
    simp only [Bool.and_eq_true, decide_eq_true_eq] at signs
    omega
  next => cases read

/-- The text of a heading ends in its line. -/
theorem feeds_headingEnd (start : i ≤ k) (line : s.feeds k = s.feeds i)
    (stop : (s.char? k = none ∧ j = k) ∨ (s.char? k = some '\n' ∧ j = k + 1)) :
    s.feeds (headingEnd s i j) = s.feeds i := by
  have limit : i ≤ s.skipBack (fun c => c = ' ' || isLineEnd c) i j ∧
      s.skipBack (fun c => c = ' ' || isLineEnd c) i j ≤ k := by
    rcases stop with ⟨-, rfl⟩ | ⟨feed, rfl⟩
    · exact ⟨Source.le_skipBack _ start, Source.skipBack_le ..⟩
    · have back : s.skipBack (fun c => c = ' ' || isLineEnd c) i (k + 1) =
          s.skipBack (fun c => c = ' ' || isLineEnd c) i k := by
        rw [Source.skipBack, feed, decide_eq_true start]
        rfl
      rw [back]
      exact ⟨Source.le_skipBack _ start, Source.skipBack_le ..⟩
  unfold headingEnd
  dsimp only
  obtain ⟨low, high⟩ := limit
  generalize s.skipBack (fun c => c = ' ' || isLineEnd c) i j = limit at low high ⊢
  have closer := Source.le_skipBack (s := s) (· = '#') low
  have closer' := Nat.le_trans (s.skipBack_le (· = '#') i limit) high
  generalize s.skipBack (· = '#') i limit = closer at closer closer' ⊢
  split
  · rfl
  · split
    · exact Source.feeds_between line (Source.le_skipBack _ closer) (Nat.le_trans (Source.skipBack_le ..) closer')
    · exact Source.feeds_between line low high

/-- The pieces of a heading without the number signs at its end. -/
def headingText (s : Source) (pieces : List Piece) (start stop : Nat) : List Piece :=
  if headingEnd s start stop = start then pieces.tail else trimPieces pieces (headingEnd s start stop)

theorem readHeading_of_text {level : Nat} (text : s.lineEnd? (i + level) = none) : readHeading s r level i =
    (r.add (.heading level ⟨(headingText s (scanLine s r.path .plain [] (s.skipBlanks (i + level))).1
      (s.skipBlanks (i + level)) (scanLine s r.path .plain [] (s.skipBlanks (i + level))).2.1).reverse,
        (scanLine s r.path .plain [] (s.skipBlanks (i + level))).2.1⟩),
      (scanLine s r.path .plain [] (s.skipBlanks (i + level))).2.1) := by
  rw [readHeading, text]
  rfl

/-! ### Cells and rows -/

/-- Where the text of a cell starts. -/
def cellStart (s : Source) (i : Nat) : Nat := s.skipBlanks (if s.isAt i '|' then i + 1 else i)

theorem le_cellStart (s : Source) (i : Nat) : i ≤ cellStart s i := by
  refine Nat.le_trans ?_ (s.le_skip _ _)
  split
  · exact Nat.le_succ i
  · exact Nat.le_refl i

theorem cellsFrom_succ (s : Source) (path : List Container) (n : Nat) (cells : List Leaf) (i : Nat) :
    cellsFrom s path (n + 1) cells i = match s.lineEnd? (cellStart s i) with
      | some behind => (cells.reverse, behind)
      | none => cellsFrom s path n (⟨(scanLine s path .cell [] (cellStart s i)).1.reverse,
          (scanLine s path .cell [] (cellStart s i)).2.1⟩ :: cells)
        (scanLine s path .cell [] (cellStart s i)).2.1 := rfl

theorem cellsFrom_of_le (end' : s.stop ≤ i) (n : Nat) (cells : List Leaf) :
    cellsFrom s path n cells i = (cells.reverse, i) := by
  cases n with
  | zero => rfl
  | succ n =>
    have here : s.char? i = none := by rw [Source.char?, if_neg (Nat.not_lt.2 end')]
    have start : cellStart s i = i := by
      rw [cellStart, Source.isAt, here, if_neg (by simp), Source.skipBlanks, Source.skip_eq, here]
      rfl
    have line : s.lineEnd? i = some i := by rw [Source.lineEnd?, here]
    rw [cellsFrom_succ, start, line]

/-- In a row of a table there is something. -/
theorem lineEnd?_of_startsBlock {inside : Bool} (starts : startsBlock s inside i = false) : s.lineEnd? i = none := by
  simp only [startsBlock, Bool.or_eq_false_iff, Option.isSome_eq_false_iff, Option.isNone_iff_eq_none] at starts
  exact starts.1.1.1.1.1.1

theorem rowsFrom_of_le (end' : s.stop ≤ i) (columns n : Nat) : rowsFrom s path columns n i = ([], i) := by
  cases n with
  | zero => rfl
  | succ n =>
    have low := Nat.le_trans end' (Nat.le_trans (Margin.le_place_ofLine (s := s) path i)
      (Margin.le_place_useAll (s := s) (Margin.ofLine s path i).2))
    rw [rowsFrom]
    generalize Margin.ofLine s path i = read at low ⊢
    obtain ⟨inside, m⟩ := read
    dsimp only at low ⊢
    have starts : startsBlock s inside (m.useAll s).place = true := by
      by_contra none
      have line := lineEnd?_of_startsBlock (eq_false_of_ne_true none)
      rw [Source.lineEnd?, Source.char?, if_neg (Nat.not_lt.2 low)] at line
      cases line
    rw [starts, Bool.or_true, if_pos rfl]

/-! ### The same headings -/

variable [s.IsPlain]

theorem headingEnd_crlf (start stop : Nat) :
    headingEnd s.crlf (s.shift start) (s.shift stop) = s.shift (headingEnd s start stop) := by
  unfold headingEnd
  dsimp only
  rw [Source.skipBack_crlf rfl, Source.skipBack_crlf rfl, Source.skipBack_crlf rfl]
  simp only [Source.shift_inj, Source.shift_lt_iff]
  split
  · rfl
  · split <;> rfl

theorem headingText_crlf (pieces : List Piece) (start stop : Nat) :
    headingText s.crlf (pieces.map s.shiftPiece) (s.shift start) (s.shift stop) =
      (headingText s pieces start stop).map s.shiftPiece := by
  unfold headingText
  rw [headingEnd_crlf, trimPieces_crlf]
  simp only [Source.shift_inj]
  split
  · exact List.map_tail.symm
  · rfl

theorem readHeading_crlf (h : r.Holds s.HasBlock) {level : Nat} (read : headingLevel? s i = some level) :
    s.IsRead i (readHeading s r level i) (readHeading s.crlf (s.shiftReader r) level (s.shift i)) := by
  obtain ⟨signs, positive⟩ := of_headingLevel? read
  have level' : s.shift i + level = s.shift (i + level) :=
    (Source.shift_add (by rw [signs, Source.feeds_skipRun (by decide)])).symm
  cases ended : s.lineEnd? (i + level) with
  | some behind =>
    have low := Source.le_of_lineEnd? ended
    unfold readHeading
    rw [level', Source.lineEnd?_crlf, ended]
    exact .add h (.heading level (Source.HasPieces.nil 0).hasRow) rfl (by omega)
  | none =>
    have ended' : s.crlf.lineEnd? (s.shift i + level) = none := by rw [level', Source.lineEnd?_crlf, ended]; rfl
    have low : i + level ≤ s.skipBlanks (i + level) := s.le_skip _ _
    rw [readHeading_of_text ended, readHeading_of_text ended', level', Source.skipBlanks_crlf, Reader.path_shiftReader]
    generalize s.skipBlanks (i + level) = start at low ⊢
    have empty : s.HasPieces (s.feeds start) [] := .nil _
    have held : s.HasRead (s.feeds start) start (scanLine s r.path .plain [] start) :=
      empty.scanLine (.inl (show 0 < start by omega))
    have same : scanLine s.crlf r.path .plain [] (s.shift start) = s.shiftRead (scanLine s r.path .plain [] start) :=
      scanLine_crlf empty
    obtain ⟨k, inside, line, stop⟩ : ∃ k, start ≤ k ∧ s.feeds k = s.feeds start ∧
        ((s.char? k = none ∧ (scanLine s r.path .plain [] start).2.1 = k) ∨
          (s.char? k = some '\n' ∧ (scanLine s r.path .plain [] start).2.1 = k + 1)) :=
      (LineScan.isIn_start empty).stop_scanFrom rfl start (show s.stop ≤ start + (s.stop + 1 - start) by omega)
    have row : s.HasRow (headingText s (scanLine s r.path .plain [] start).1 start
        (scanLine s r.path .plain [] start).2.1).reverse := by
      unfold headingText
      split
      · exact held.pieces.tail
      · exact (held.pieces.trimPieces (feeds_headingEnd inside line stop)).hasRow
    have lt : i < (scanLine s r.path .plain [] start).2.1 := Nat.lt_of_lt_of_le (by omega) held.le
    rw [same]
    dsimp only [Source.shiftRead]
    rw [headingText_crlf, hasRow_shiftLeaf]
    exact .add h (.heading level row) rfl lt

/-! ### The same tables -/

theorem cellStart_crlf (i : Nat) : cellStart s.crlf (s.shift i) = s.shift (cellStart s i) := by
  unfold cellStart
  rw [Source.isAt_crlf (by decide) (by decide), ← Source.skipBlanks_crlf]
  split
  next bar => rw [Source.shift_add (Source.feeds_of_isAt bar (by decide))]
  next => rfl

theorem hasRead_cell (path : List Container) (line : s.lineEnd? j = none) :
    s.HasRead (s.feeds j) j (scanLine s path .cell [] j) :=
  (Source.HasPieces.nil _).scanLine (Source.front_of_lineEnd? line)

/-- Behind a cell the row goes on. -/
theorem lt_cell (path : List Container) (line : s.lineEnd? (cellStart s i) = none) :
    i < (scanLine s path .cell [] (cellStart s i)).2.1 := by
  have behind := (hasRead_cell path line).le
  rcases Nat.eq_or_lt_of_le (le_cellStart s i) with same | lt
  · obtain ⟨c, here, feed⟩ := Source.exists_of_lineEnd? line
    rw [← same] at here ⊢
    have other : c ≠ '|' := by
      rintro rfl
      have further : i + 1 ≤ cellStart s i := by
        rw [cellStart, if_pos (show s.isAt i '|' = true from decide_eq_true here)]
        exact s.le_skip _ _
      omega
    exact lt_scanLine (.nil _) here feed (.inr other)
  · exact Nat.lt_of_lt_of_le lt behind

theorem le_cellsFrom (n : Nat) (cells : List Leaf) (i : Nat) : i ≤ (cellsFrom s path n cells i).2 := by
  induction n generalizing cells i with
  | zero => exact Nat.le_refl i
  | succ n ih =>
    rw [cellsFrom_succ]
    cases line : s.lineEnd? (cellStart s i) with
    | some behind => exact Nat.le_trans (le_cellStart s i) (Source.le_of_lineEnd? line)
    | none => exact Nat.le_trans (Nat.le_of_lt (lt_cell path line)) (ih _ _)

/-- A row of a table that is not empty goes on to another line. -/
theorem lt_cellsFrom (path : List Container) (line : s.lineEnd? i = none) (n : Nat) (cells : List Leaf) :
    i < (cellsFrom s path (n + 1) cells i).2 := by
  rw [cellsFrom_succ]
  cases ended : s.lineEnd? (cellStart s i) with
  | some behind =>
    rcases Nat.eq_or_lt_of_le (le_cellStart s i) with same | lt
    · rw [← same, line] at ended
      cases ended
    · exact Nat.lt_of_lt_of_le lt (Source.le_of_lineEnd? ended)
  | none => exact Nat.lt_of_lt_of_le (lt_cell path ended) (le_cellsFrom n _ _)

theorem hasRow_of_mem_cellsFrom {cells : List Leaf} (h : ∀ l ∈ cells, s.HasRow l.pieces) (n i : Nat) :
    ∀ l ∈ (cellsFrom s path n cells i).1, s.HasRow l.pieces := by
  induction n generalizing cells i with
  | zero => exact fun l hl => h l (List.mem_reverse.1 hl)
  | succ n ih =>
    rw [cellsFrom_succ]
    cases line : s.lineEnd? (cellStart s i) with
    | some behind => exact fun l hl => h l (List.mem_reverse.1 hl)
    | none => exact ih (List.forall_mem_cons.2 ⟨(hasRead_cell path line).pieces.hasRow, h⟩) _

theorem cellsFrom_crlf (enough : s.stop ≤ i + n) (enough' : s.crlf.stop ≤ s.shift i + n') (cells : List Leaf) :
    cellsFrom s.crlf path n' (cells.map s.shiftLeaf) (s.shift i) =
      ((cellsFrom s path n cells i).1.map s.shiftLeaf, s.shift (cellsFrom s path n cells i).2) := by
  induction n using Nat.strong_induction_on generalizing n' i cells with
  | h n ih =>
  by_cases end' : s.stop ≤ i
  · rw [cellsFrom_of_le end', cellsFrom_of_le (Source.shift_le_iff.2 end'), List.map_reverse]
  · have inside := (Source.shift_lt_iff (s := s)).2 (Nat.not_le.1 end')
    obtain ⟨n, rfl⟩ : ∃ m, n = m + 1 := ⟨n - 1, by omega⟩
    obtain ⟨n', rfl⟩ : ∃ m, n' = m + 1 := ⟨n' - 1, by rw [Source.stop_crlf] at enough'; omega⟩
    rw [cellsFrom_succ, cellsFrom_succ, cellStart_crlf, Source.lineEnd?_crlf]
    cases line : s.lineEnd? (cellStart s i) with
    | some behind => rw [Option.map_some, List.map_reverse]
    | none =>
      have lt := lt_cell path line
      have lt' := (Source.shift_lt_iff (s := s)).2 lt
      have same : scanLine s.crlf path .cell [] (s.shift (cellStart s i)) =
          s.shiftRead (scanLine s path .cell [] (cellStart s i)) := scanLine_crlf (.nil _)
      dsimp only [Option.map_none]
      rw [same]
      dsimp only [Source.shiftRead]
      rw [hasRow_shiftLeaf]
      exact ih n (Nat.lt_succ_self n) (by omega) (by omega) (_ :: cells)

theorem readRow_crlf (columns i : Nat) : readRow s.crlf path columns (s.shift i) =
    ((readRow s path columns i).1.map s.shiftLeaf, s.shift (readRow s path columns i).2) := by
  have cells : cellsFrom s.crlf path (s.crlf.stop + 1 - s.shift i) [] (s.shift i) =
      ((cellsFrom s path (s.stop + 1 - i) [] i).1.map s.shiftLeaf,
        s.shift (cellsFrom s path (s.stop + 1 - i) [] i).2) := cellsFrom_crlf (by omega) (by omega) []
  unfold readRow
  rw [cells]
  simp [List.map_take, Source.shiftLeaf]

theorem hasRow_of_mem_readRow (columns i : Nat) : ∀ l ∈ (readRow s path columns i).1, s.HasRow l.pieces := by
  intro l hl
  rcases List.mem_append.1 (List.mem_of_mem_take hl : l ∈ _ ++ _) with cell | empty
  · exact hasRow_of_mem_cellsFrom (List.forall_mem_nil _) _ _ l cell
  · rw [(List.mem_replicate.1 empty).2]
    exact (Source.HasPieces.nil 0).hasRow

theorem lt_readRow (path : List Container) (line : s.lineEnd? i = none) (columns : Nat) :
    i < (readRow s path columns i).2 := by
  have inside := Source.lt_stop_of_lineEnd? line
  have lt := lt_cellsFrom path line (s.stop - i) []
  rw [show s.stop - i + 1 = s.stop + 1 - i by omega] at lt
  exact lt

theorem le_rowsFrom (columns n i : Nat) : i ≤ (rowsFrom s path columns n i).2 := by
  induction n generalizing i with
  | zero => exact Nat.le_refl i
  | succ n ih =>
    rw [rowsFrom]
    dsimp only
    split
    next => exact Nat.le_refl i
    next starts =>
      rw [Bool.or_eq_true, not_or, Bool.not_eq_true] at starts
      have row := lt_readRow path (lineEnd?_of_startsBlock (eq_false_of_ne_true starts.2)) columns
      exact Nat.le_trans (Margin.le_place_ofLine path i) (Nat.le_trans (Margin.le_place_useAll _)
        (Nat.le_trans (Nat.le_of_lt row) (ih _)))

theorem hasRow_of_mem_rowsFrom (columns n i : Nat) :
    ∀ row ∈ (rowsFrom s path columns n i).1, ∀ l ∈ row, s.HasRow l.pieces := by
  induction n generalizing i with
  | zero => exact List.forall_mem_nil _
  | succ n ih =>
    rw [rowsFrom]
    dsimp only
    split
    · exact List.forall_mem_nil _
    · exact List.forall_mem_cons.2 ⟨hasRow_of_mem_readRow columns _, ih _⟩

theorem rowsFrom_crlf (columns : Nat) (enough : s.stop ≤ i + n) (enough' : s.crlf.stop ≤ s.shift i + n') :
    rowsFrom s.crlf path columns n' (s.shift i) = ((rowsFrom s path columns n i).1.map fun row => row.map s.shiftLeaf,
      s.shift (rowsFrom s path columns n i).2) := by
  induction n using Nat.strong_induction_on generalizing n' i with
  | h n ih =>
  by_cases end' : s.stop ≤ i
  · rw [rowsFrom_of_le end', rowsFrom_of_le (Source.shift_le_iff.2 end')]
    rfl
  · have inside := (Source.shift_lt_iff (s := s)).2 (Nat.not_le.1 end')
    obtain ⟨n, rfl⟩ : ∃ m, n = m + 1 := ⟨n - 1, by omega⟩
    obtain ⟨n', rfl⟩ : ∃ m, n' = m + 1 := ⟨n' - 1, by rw [Source.stop_crlf] at enough'; omega⟩
    rw [rowsFrom, rowsFrom, Margin.ofLine_crlf]
    have low := Nat.le_trans (Margin.le_place_ofLine (s := s) path i)
      (Margin.le_place_useAll (s := s) (Margin.ofLine s path i).2)
    generalize Margin.ofLine s path i = read at low ⊢
    obtain ⟨belongs, m⟩ := read
    dsimp only at low ⊢
    rw [Margin.useAll_crlf, place_shiftMargin, startsBlock_crlf, readRow_crlf]
    generalize (m.useAll s).place = start at low ⊢
    split
    next => rfl
    next starts =>
      rw [Bool.or_eq_true, not_or, Bool.not_eq_true] at starts
      have lt := Nat.lt_of_le_of_lt low
        (lt_readRow path (lineEnd?_of_startsBlock (eq_false_of_ne_true starts.2)) columns)
      have lt' := (Source.shift_lt_iff (s := s)).2 lt
      have rest : rowsFrom s.crlf path columns n' (s.shift (readRow s path columns start).2) = _ :=
        ih n (Nat.lt_succ_self n) (by omega) (by omega)
      dsimp only
      rw [rest]
      rfl

theorem readTable_crlf (h : r.Holds s.HasBlock) (lt : i < j) (columns : Nat) :
    s.IsRead i (readTable s r columns i j) (readTable s.crlf (s.shiftReader r) columns (s.shift i) (s.shift j)) := by
  have rows : rowsFrom s.crlf r.path columns (s.crlf.stop + 1 - s.shift j) (s.shift j) =
      ((rowsFrom s r.path columns (s.stop + 1 - j) j).1.map fun row => row.map s.shiftLeaf,
        s.shift (rowsFrom s r.path columns (s.stop + 1 - j) j).2) := rowsFrom_crlf columns (by omega) (by omega)
  unfold readTable
  rw [Reader.path_shiftReader, readRow_crlf, rows]
  exact .add h (.table (hasRow_of_mem_readRow columns i) (hasRow_of_mem_rowsFrom columns _ j)) rfl
    (Nat.lt_of_lt_of_le lt (le_rowsFrom columns _ j))

end PublisherConsole.Markdown
