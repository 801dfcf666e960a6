/-!
# Sets and classes of code points

A property of characters is written down as text: ascending spans `lo-hi` in base sixteen, with
`lo` alone for a single code point. `Ranges.ofText` reads the spans, and membership is a binary
search. A `ClassTable` gives each code point the class of the last entry that starts at or before
it.
-/

namespace PublisherConsole.Unicode

/-- The value of a base-sixteen digit written in lower case. -/
def hexDigit (c : Char) : Nat :=
  if c.isDigit then c.toNat - '0'.toNat else c.toNat - 'a'.toNat + 10

/-- The number written by base-sixteen digits. -/
def hexNumber (cs : List Char) : Nat := cs.foldl (fun n c => n * 16 + hexDigit c) 0

/-- The words of a text, between blanks and line ends. -/
def words (text : String) : List (List Char) :=
  let step (c : Char) (acc : List (List Char)) : List (List Char) :=
    if c = ' ' || c = '\n' then [] :: acc
    else
      match acc with
      | [] => [[c]]
      | w :: ws => (c :: w) :: ws
  (text.toList.foldr step [[]]).filter (· ≠ [])

/-- A set of code points as ascending, disjoint, closed spans. -/
structure Ranges where
  spans : Array (Nat × Nat)
  deriving Inhabited

namespace Ranges

/-- Read one span. -/
def spanOfText (token : List Char) : Nat × Nat :=
  let lo := hexNumber (token.takeWhile (· ≠ '-'))
  match token.dropWhile (· ≠ '-') with
  | [] => (lo, lo)
  | _ :: hi => (lo, hexNumber hi)

/-- Read spans separated by blanks and line ends. -/
def ofText (text : String) : Ranges := ⟨((words text).map spanOfText).toArray⟩

/-- Search the spans from `lo` up to, but not including, `hi`; each round halves the distance. -/
def search (spans : Array (Nat × Nat)) (n : Nat) : Nat → Nat → Nat → Bool
  | 0, _, _ => false
  | fuel + 1, lo, hi =>
    if lo < hi then
      let mid := (lo + hi) / 2
      match spans[mid]? with
      | none => false
      | some (a, b) =>
        if n < a then search spans n fuel lo mid
        else if b < n then search spans n fuel (mid + 1) hi
        else true
    else false

/-- Whether a code point is in the set. -/
def holds (r : Ranges) (n : Nat) : Bool := search r.spans n 20 0 r.spans.size

/-- Whether a character is in the set. -/
def contains (r : Ranges) (c : Char) : Bool := r.holds c.toNat

end Ranges

/-- The classes of all code points: each entry holds from its code point up to the next entry. -/
structure ClassTable (α : Type) where
  entries : Array (Nat × α)
  other : α

namespace ClassTable

variable {α : Type}

/-- Read entries `start:letter` separated by blanks and line ends. -/
def ofText (other : α) (ofLetter : Char → α) (text : String) : ClassTable α :=
  let entry (token : List Char) : Nat × α :=
    (hexNumber (token.takeWhile (· ≠ ':')), ofLetter (token.getLastD '?'))
  ⟨((words text).map entry).toArray, other⟩

/-- The last entry that starts at or before `n`, searched from `lo` up to `hi`. -/
def search (t : ClassTable α) (n : Nat) : Nat → Nat → Nat → α → α
  | 0, _, _, best => best
  | fuel + 1, lo, hi, best =>
    if lo < hi then
      let mid := (lo + hi) / 2
      match t.entries[mid]? with
      | none => best
      | some (a, x) =>
        if n < a then search t n fuel lo mid best else search t n fuel (mid + 1) hi x
    else best

/-- The class of a character. -/
def classOf (t : ClassTable α) (c : Char) : α :=
  t.search c.toNat 20 0 t.entries.size t.other

end ClassTable

end PublisherConsole.Unicode
