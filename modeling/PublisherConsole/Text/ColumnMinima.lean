/-!
# Column minima of a growing matrix

`columnMinima` finds, for every column `j` of a matrix above the diagonal, a row `i < j` with a
small entry, where the entries of row `i` may depend on the minimum of column `i`. It takes far
fewer looks than there are entries, and gives the true minima when the matrix is totally monotone.
Other matrices get the rows that the same looks lead to.

A column is settled when all later rows are out of the question for it. The search settles one
column after the other. It works on a block of rows from `base` on, and has tentative minima for
the columns up to `reach`.
-/

namespace PublisherConsole.Text

/-- The row chosen for a column, with its entry. -/
structure Minimum where
  row : Nat
  value : Nat
  deriving DecidableEq, Repr, Inhabited

/-- Drop the rows from the top of a stack that lose against a new row in the column of the same
number. The stack is given with its top first and has `size` rows. -/
def dropLosers (entry : Nat → Nat → Nat) (cols : Array Nat) (row : Nat) :
    List Nat → Nat → List Nat × Nat
  | [], size => ([], size)
  | top :: rest, size =>
    let col := cols.getD (size - 1) 0
    if entry top col > entry row col then dropLosers entry cols row rest (size - 1)
    else (top :: rest, size)

/-- The rows that can have a minimum in one of the columns: at most one for each column. -/
def reduceRows (entry : Nat → Nat → Nat) (cols : Array Nat) (rows : List Nat) : List Nat :=
  let (stack, _) := rows.foldl
    (fun (stack, size) row =>
      let (stack, size) := dropLosers entry cols row stack size
      if size = cols.size then (stack, size) else (row :: stack, size + 1))
    (([] : List Nat), 0)
  stack.reverse

/-- The elements of a list in odd places, counted from zero. -/
def oddPlaces : List Nat → List Nat
  | _ :: b :: rest => b :: oddPlaces rest
  | _ => []

/-- Look through the rows from the first one up to `last` for the least entry of a column, the
earliest row of equal ones; the answer also has the rows from `last` on. -/
def scanRows (entry : Nat → Nat → Nat) (col last : Nat) (best : Nat × Nat) :
    List Nat → Nat × List Nat
  | [] => (best.2, [])
  | row :: rest =>
    let value := entry row col
    let best := if value < best.1 || (value = best.1 && row < best.2) then (value, row) else best
    if row = last then (best.2, row :: rest) else scanRows entry col last best rest

/-- Fill in the minima of the columns in even places, between the rows of their neighbours. -/
def fillEven (entry : Nat → Nat → Nat) : List Nat → List Nat → Array Nat → Array Nat
  | [], _, minima => minima
  | [col], rows, minima =>
    let row := rows.headD 0
    minima.set! col (scanRows entry col (rows.getLastD 0) (entry row col, row) rows).1
  | col :: next :: cols, rows, minima =>
    let row := rows.headD 0
    let (best, rows) := scanRows entry col (minima.getD next 0) (entry row col, row) rows
    fillEven entry cols rows (minima.set! col best)

/-- The rows of the minima of the given columns among the given rows, written into `minima` by
column. Every round leaves half of the columns. -/
def blockMinima (entry : Nat → Nat → Nat) : Nat → List Nat → List Nat → Array Nat → Array Nat
  | 0, _, _, minima => minima
  | fuel + 1, rows, cols, minima =>
    if cols.isEmpty then minima
    else
      let rows := reduceRows entry cols.toArray rows
      let minima := blockMinima entry fuel rows (oddPlaces cols) minima
      fillEven entry cols rows minima

/-- The state of the search. -/
structure MinimaSearch where
  minima : Array Minimum
  settled : Nat
  base : Nat
  reach : Nat
  deriving Repr, Inhabited

namespace MinimaSearch

/-- Keep a row for a column if it is the first one or better than the one there is. -/
def offer (minima : Array Minimum) (col row value : Nat) : Array Minimum :=
  match minima[col]? with
  | none => minima.push ⟨row, value⟩
  | some m => if value < m.value then minima.set! col ⟨row, value⟩ else minima

/-- Settle the next column; `size` is the number of columns, and `matrix` takes the minima so
far. -/
def step (matrix : Array Minimum → Nat → Nat → Nat) (size : Nat) (s : MinimaSearch) :
    MinimaSearch :=
  let entry := matrix s.minima
  let next := s.settled + 1
  if next > s.reach then
    let rows := List.range' s.base (s.settled + 1 - s.base)
    let reach := min (s.settled + rows.length) (size - 1)
    let cols := List.range' (s.settled + 1) (reach - s.settled)
    let found := blockMinima entry (cols.length + 1) rows cols (Array.replicate (reach + 1) 0)
    let minima := cols.foldl
      (fun minima col => offer minima col (found.getD col 0) (entry (found.getD col 0) col))
      s.minima
    { s with minima, reach, settled := next }
  else
    let value (col : Nat) : Nat := (s.minima[col]?.map Minimum.value).getD 0
    let diagonal := entry (next - 1) next
    if diagonal < value next then
      { minima := s.minima.set! next ⟨next - 1, diagonal⟩, base := next - 1, reach := next,
        settled := next }
    else if entry (next - 1) s.reach ≥ value s.reach then { s with settled := next }
    else { s with base := next - 1, reach := next, settled := next }

/-- Settle `n` more columns. -/
def run (matrix : Array Minimum → Nat → Nat → Nat) (size : Nat) : Nat → MinimaSearch → MinimaSearch
  | 0, s => s
  | n + 1, s => run matrix size n (s.step matrix size)

end MinimaSearch

/-- The minima of the columns of a matrix with `size` columns; column zero has the value zero. -/
def columnMinima (matrix : Array Minimum → Nat → Nat → Nat) (size : Nat) : Array Minimum :=
  (MinimaSearch.run matrix size (size - 1) ⟨#[⟨0, 0⟩], 0, 0, 0⟩).minima

end PublisherConsole.Text
