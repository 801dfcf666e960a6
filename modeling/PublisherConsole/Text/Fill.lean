import PublisherConsole.Text.ColumnMinima
import PublisherConsole.Text.Rows
import PublisherConsole.Text.Total
import PublisherConsole.Text.Words

/-!
# Filling lines with words

Lines are filled so that the gaps at their ends are small all over. A way to divide the words costs
a fixed amount for every line, the square of the gap for every line but the last, far more for
every cell that sticks out, and a little for a last line of one short word.
-/

namespace PublisherConsole.Text

/-- The cost of a line. -/
def lineCost : Nat := 1000

/-- The cost of each cell that does not fit. -/
def overflowCost : Nat := 2500

/-- The cost of a last line of one short word. -/
def shortLastLineCost : Nat := 25

/-- What a line takes off the budget: `used` cells of `target`, whether it is the last line, and
whether it has a single word. -/
def costOfLine (target used : Nat) (last single : Bool) : Nat :=
  lineCost +
    if used > target then (used - target) * overflowCost
    else if !last then (target - used) * (target - used)
    else if single && 4 * used < target then shortLastLineCost
    else 0

/-- Sums of the cells of the first words, with their blanks: one entry more than there are words. -/
def prefixCells (ws : List Word) : Array Nat :=
  ws.foldl (fun sums w => sums.push (sums.getD (sums.size - 1) 0 + w.cells + w.blanks)) #[0]

/-- Read off the lines from the minima: the last line comes first. -/
def linesBack (minima : Array Minimum) : Nat → Nat → List (Nat × Nat)
  | 0, _ => []
  | fuel + 1, stop =>
    let start := (minima.getD stop default).row
    if start = 0 then [(start, stop)] else (start, stop) :: linesBack minima fuel start

/-- The words of each line, as places in the list of words. -/
def bestLines (width : Nat) (ws : List Word) : List (Nat × Nat) :=
  let words := ws.toArray
  let sums := prefixCells ws
  let target := max width 1
  let matrix (minima : Array Minimum) (i j : Nat) : Nat :=
    let used := sums.getD j 0 - sums.getD i 0 - (words.getD (j - 1) default).blanks
    (minima.getD i default).value + costOfLine target used (j ≥ words.size) (i + 1 = j)
  (linesBack (columnMinima matrix (words.size + 1)) (words.size + 1) words.size).reverse

/-- The text of a line: its words without the blanks behind the last one. -/
def lineText : List Word → List Char
  | [] => []
  | [w] => w.chars
  | w :: ws => w.all ++ lineText ws

/-- The lines of one row of text. A row of fewer bytes than the width is a line of its own, without
the blanks at its end. -/
def fillRow (width : Nat) (cs : List Char) : List (List Char) :=
  if total Char.utf8Size cs < width then [(cs.reverse.dropWhile (· = ' ')).reverse]
  else
    let ws := fragments width cs
    (bestLines width ws).map fun (start, stop) => lineText ((ws.drop start).take (stop - start))

/-- The lines of a text. -/
def fill (width : Nat) (cs : List Char) : List (List Char) :=
  (splitRows cs).flatMap (fillRow width)

end PublisherConsole.Text
