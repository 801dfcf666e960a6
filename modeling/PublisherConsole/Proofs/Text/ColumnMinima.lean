import Mathlib.Tactic
import PublisherConsole.Text.ColumnMinima

/-!
# The rows of column minima

Whatever the entries of the matrix are, totally monotone or not, the row chosen for a column lies
before the column (`row_columnMinima_lt`). This is what it takes for lines to be read off the minima:
each line begins before it ends.

The rounds of a block choose among the rows they are given (`blockMinima_le`), and the search gives
them rows that are settled and asks for columns that are not (`Ahead.step`).
-/

namespace PublisherConsole.Text

/-! ### The rows of a block -/

section Block

variable {entry : Nat → Nat → Nat} {rows cols : List Nat} {minima : Array Nat} {bound : Nat}

theorem mem_dropLosers {cols : Array Nat} {row r size : Nat} {stack : List Nat}
    (h : r ∈ (dropLosers entry cols row stack size).1) : r ∈ stack := by
  induction stack generalizing size with
  | nil => simp [dropLosers] at h
  | cons top rest ih =>
    simp only [dropLosers] at h
    split at h
    · exact List.mem_cons_of_mem _ (ih h)
    · exact h

/-- Reducing the rows leaves some of them. -/
theorem mem_reduceRows {cols : Array Nat} {r : Nat} (h : r ∈ reduceRows entry cols rows) :
    r ∈ rows := by
  rw [reduceRows, List.mem_reverse] at h
  -- The rows on the stack are rows that were put there.
  refine List.foldlRecOn (motive := fun acc : List Nat × Nat => r ∈ acc.1 → r ∈ rows) rows _
    (fun hr => absurd hr List.not_mem_nil) ?_ h
  intro acc hacc row hrow hr
  dsimp only at hr
  split at hr
  · exact hacc (mem_dropLosers hr)
  · rcases List.mem_cons.1 hr with rfl | hr
    · exact hrow
    · exact hacc (mem_dropLosers hr)

variable (entry) in
/-- Looking through rows finds one of them, or the one that was best before. -/
theorem scanRows_le (col last : Nat) (best : Nat × Nat) (hrows : ∀ r ∈ rows, r ≤ bound)
    (hbest : best.2 ≤ bound) :
    (scanRows entry col last best rows).1 ≤ bound ∧
      ∀ r ∈ (scanRows entry col last best rows).2, r ≤ bound := by
  induction rows generalizing best with
  | nil => exact ⟨hbest, by simp [scanRows]⟩
  | cons row rows ih =>
    simp only [List.forall_mem_cons] at hrows
    simp only [scanRows]
    have hbetter : (if entry row col < best.1 ∨ entry row col = best.1 ∧ row < best.2
        then (entry row col, row) else best).2 ≤ bound := by
      split
      · exact hrows.1
      · exact hbest
    split
    · exact ⟨by simpa using hbetter, by simpa using hrows⟩
    · exact ih _ hrows.2 (by simpa using hbetter)

theorem headD_le (hrows : ∀ r ∈ rows, r ≤ bound) : rows.headD 0 ≤ bound := by
  cases rows with
  | nil => exact Nat.zero_le _
  | cons row rows => exact hrows row (by simp)

theorem getD_set!_le {i col row : Nat} (hminima : ∀ i, minima.getD i 0 ≤ bound)
    (hrow : row ≤ bound) : (minima.set! col row).getD i 0 ≤ bound := by
  have hi := hminima i
  simp only [Array.getD_eq_getD_getElem?, Array.set!_eq_setIfInBounds,
    Array.getElem?_setIfInBounds] at hi ⊢
  split
  · split
    · simpa using hrow
    · simp
  · exact hi

theorem fillEven_le (hrows : ∀ r ∈ rows, r ≤ bound) (hminima : ∀ i, minima.getD i 0 ≤ bound)
    (i : Nat) : (fillEven entry cols rows minima).getD i 0 ≤ bound := by
  induction cols, rows, minima using fillEven.induct entry with
  | case1 rows minima => exact hminima i
  | case2 col rows minima => exact getD_set!_le hminima (scanRows_le _ _ _ _ hrows (headD_le hrows)).1
  | case3 col next cols rows minima row best rest hscan ih =>
    have hle := scanRows_le entry col (minima.getD next 0) (entry row col, row) hrows
      (headD_le hrows)
    rw [hscan] at hle
    have hfill : fillEven entry (col :: next :: cols) rows minima =
        fillEven entry cols rest (minima.set! col best) := by
      simp only [fillEven]
      rw [hscan]
    rw [hfill]
    exact ih hle.2 fun i => getD_set!_le hminima hle.1

/-- The minima of a block are in rows of the block. -/
theorem blockMinima_le (fuel : Nat) (hrows : ∀ r ∈ rows, r ≤ bound)
    (hminima : ∀ i, minima.getD i 0 ≤ bound) (i : Nat) :
    (blockMinima entry fuel rows cols minima).getD i 0 ≤ bound := by
  induction fuel generalizing rows cols minima i with
  | zero => exact hminima i
  | succ fuel ih =>
    simp only [blockMinima]
    split
    · exact hminima i
    · have hreduced : ∀ r ∈ reduceRows entry cols.toArray rows, r ≤ bound :=
        fun r hr => hrows r (mem_reduceRows hr)
      exact fillEven_le hreduced (fun i => ih hreduced hminima i) i

end Block

/-! ### The search -/

namespace MinimaSearch

variable {matrix : Array Minimum → Nat → Nat → Nat} {size : Nat}

/-- Each column has a row before it. -/
def RowsAhead (minima : Array Minimum) : Prop :=
  ∀ j m, minima[j]? = some m → 0 < j → m.row < j

/-- There are rows ahead of all columns up to the reach of the search, and its block begins with a
settled column. -/
structure Ahead (s : MinimaSearch) : Prop where
  rows : RowsAhead s.minima
  settled : s.settled ≤ s.reach
  reach : s.reach < s.minima.size
  base : s.base ≤ s.settled

theorem RowsAhead.set! {minima : Array Minimum} {col : Nat} {m : Minimum}
    (h : RowsAhead minima) (hm : m.row < col) : RowsAhead (minima.set! col m) := by
  intro j m' hj hpos
  simp only [Array.set!_eq_setIfInBounds, Array.getElem?_setIfInBounds] at hj
  split at hj
  next heq =>
    split at hj
    · obtain rfl := Option.some.inj hj
      omega
    · cases hj
  next => exact h j m' hj hpos

/-- A row before a column is offered for it when all columns before it have one. -/
theorem RowsAhead.offer {minima : Array Minimum} {col row : Nat} (value : Nat)
    (h : RowsAhead minima) (hrow : row < col) (hcol : col ≤ minima.size) :
    RowsAhead (MinimaSearch.offer minima col row value) ∧
      col < (MinimaSearch.offer minima col row value).size := by
  unfold MinimaSearch.offer
  split
  next hnone =>
    have hsize : minima.size = col := by
      have := Array.getElem?_eq_none_iff.1 hnone
      omega
    refine ⟨fun j m hj hpos => ?_, by simp [hsize]⟩
    rw [Array.getElem?_push] at hj
    split at hj
    next heq =>
      obtain rfl := Option.some.inj hj
      simp only
      omega
    next => exact h j m hj hpos
  next m hsome =>
    have hlt : col < minima.size := (Array.getElem?_eq_some_iff.1 hsome).1
    split
    · exact ⟨h.set! hrow, by simpa using hlt⟩
    · exact ⟨h, hlt⟩

/-- Offers for one column after the other. -/
theorem RowsAhead.offers {minima : Array Minimum} {row : Nat → Nat} (value : Nat → Nat)
    (n : Nat) {col : Nat} (h : RowsAhead minima) (hrow : ∀ j, col ≤ j → row j < j) (hcol : col ≤ minima.size) :
    let minima' := (List.range' col n).foldl
      (fun minima j => MinimaSearch.offer minima j (row j) (value j)) minima
    RowsAhead minima' ∧ col + n ≤ minima'.size := by
  induction n generalizing col minima with
  | zero => exact ⟨h, hcol⟩
  | succ n ih =>
    obtain ⟨hahead, hsize⟩ := h.offer (value col) (hrow col le_rfl) hcol
    have hnext : ∀ j, col + 1 ≤ j → row j < j := fun j hj => hrow j (by omega)
    obtain ⟨hahead, hsize⟩ := ih hahead hnext hsize
    rw [List.range'_succ, List.foldl_cons]
    exact ⟨hahead, by omega⟩

variable (matrix) in
/-- Settling a column. -/
theorem Ahead.step {s : MinimaSearch} (h : s.Ahead) (hsize : s.settled + 1 < size) :
    (s.step matrix size).Ahead ∧ (s.step matrix size).settled = s.settled + 1 := by
  have hrows := h.rows
  have hsettled := h.settled
  have hreach := h.reach
  have hbase := h.base
  simp only [MinimaSearch.step]
  split
  next hnew =>
    -- A new block: its rows are settled, and its columns come behind them.
    have hblock : ∀ r ∈ List.range' s.base (s.settled + 1 - s.base), r ≤ s.settled := by
      intro r hr
      have := List.mem_range'_1.1 hr
      omega
    have hzero : ∀ n i : Nat, (Array.replicate n 0).getD i 0 ≤ s.settled := by
      intro n i
      rw [Array.getD_eq_getD_getElem?, Array.getElem?_replicate]
      split <;> simp
    generalize hfound : blockMinima _ _ _ _ _ = found
    have hrow : ∀ j, s.settled + 1 ≤ j → found.getD j 0 < j := by
      intro j hj
      have : found.getD j 0 ≤ s.settled := hfound ▸ blockMinima_le _ hblock (hzero _) j
      omega
    obtain ⟨hahead, hsize'⟩ := hrows.offers (fun j => matrix s.minima (found.getD j 0) j)
      (min (s.settled + (List.range' s.base (s.settled + 1 - s.base)).length) (size - 1) - s.settled)
      hrow (by omega)
    simp only [List.length_range'] at hahead hsize' ⊢
    exact ⟨⟨hahead, by simp only; omega, by simp only; omega, by simp only; omega⟩, trivial⟩
  next hold =>
    split
    · exact ⟨⟨hrows.set! (by simp), le_rfl, by simp; omega, by simp⟩, rfl⟩
    · split
      · exact ⟨⟨hrows, by simp; omega, by simpa using hreach, by simp; omega⟩, rfl⟩
      · exact ⟨⟨hrows, by simp, by simp; omega, by simp⟩, rfl⟩

variable (matrix) in
/-- Settling columns one after the other. -/
theorem Ahead.run {s : MinimaSearch} (n : Nat) (h : s.Ahead) (hsize : s.settled + n < size) :
    (run matrix size n s).Ahead := by
  induction n generalizing s with
  | zero => exact h
  | succ n ih =>
    obtain ⟨hstep, hsettled⟩ := h.step matrix (by omega : s.settled + 1 < size)
    exact ih hstep (by omega)

theorem ahead_start : Ahead ⟨#[⟨0, 0⟩], 0, 0, 0⟩ := by
  refine ⟨fun j m hm hpos => ?_, le_rfl, by simp, le_rfl⟩
  have := (Array.getElem?_eq_some_iff.1 hm).1
  simp at this
  omega

end MinimaSearch

/-- The row chosen for a column lies before it. -/
theorem row_columnMinima_lt (matrix : Array Minimum → Nat → Nat → Nat) {size j : Nat}
    (hsize : 0 < size) (hj : 0 < j) : ((columnMinima matrix size).getD j default).row < j := by
  have hrun := MinimaSearch.ahead_start.run matrix (size - 1) (by omega : 0 + (size - 1) < size)
  rw [columnMinima, Array.getD_eq_getD_getElem?]
  cases hm : (MinimaSearch.run matrix size (size - 1) ⟨#[⟨0, 0⟩], 0, 0, 0⟩).minima[j]? with
  | none => exact hj
  | some m => exact hrun.rows j m hm hj

end PublisherConsole.Text
