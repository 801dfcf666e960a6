import PublisherConsole.Markdown.Source

/-!
# The margin of a line

What stands in front of the content of a line belongs to the containers around it: the `>` of each
quote, and for each list item as many blanks as its marker takes. A margin reads that part of a
line. Tabs reach to the next multiple of four columns and can be used in part.
-/

namespace PublisherConsole.Markdown

/-- A container that goes on over several lines. -/
inductive Container
  | quote
  /-- An item whose content is indented by so many columns. -/
  | item (indent : Nat)
  deriving DecidableEq, Repr, Inhabited

/-- Where the reading of a margin stands: the place, the place from which columns are counted, and
the columns left over from a tab. -/
structure Margin where
  place : Nat
  origin : Nat
  left : Nat
  deriving Repr, Inhabited

namespace Margin

/-- The margin of the line that starts at a place. -/
def start (i : Nat) : Margin := ⟨i, i, 0⟩

/-- Use up to `n` columns of blanks, given that `fuel` characters may be read; the answer has the
columns that were missing. -/
def useColumns (s : Source) : Nat → Nat → Margin → Nat × Margin
  | 0, n, m => (n, m)
  | fuel + 1, n, m =>
    if n = 0 then (0, m)
    else
      match s.char? m.place with
      | some ' ' => useColumns s fuel (n - 1) { m with place := m.place + 1 }
      | some '\t' =>
        let wide := 4 - (m.place - m.origin) % 4
        let used := min wide n
        useColumns s fuel (n - used) ⟨m.place + 1, m.place + 1, wide - used⟩
      | _ => (n, m)

/-- Use up to `n` columns; the answer has the number of columns used. -/
def useUpTo (s : Source) (n : Nat) (m : Margin) : Nat × Margin :=
  let fromTab := min m.left n
  let (missing, m) :=
    useColumns s (n - fromTab) (n - fromTab) { m with left := m.left - fromTab }
  (n - missing, m)

/-- Use `n` columns, or as many as there are; the answer tells whether there were enough. -/
def use (s : Source) (n : Nat) (m : Margin) : Bool × Margin :=
  let (used, m) := m.useUpTo s n
  (used = n, m)

/-- Use all blanks. -/
def useAll (s : Source) (m : Margin) : Margin :=
  ⟨s.skip (fun c => c = ' ' || c = '\t') m.place, m.origin, 0⟩

/-- Whether the line ends here. -/
def isAtEnd (s : Source) (m : Margin) : Bool :=
  match s.char? m.place with
  | none => true
  | some c => isLineEnd c

/-- Read the sign of a quote and one column behind it. -/
def quote? (s : Source) (m : Margin) : Option Margin :=
  let (_, m) := m.useUpTo s 3
  if s.isAt m.place '>' then some (Margin.use s 1 { m with place := m.place + 1 }).2 else none

/-- Read what one container takes of a line. An item also goes on over blank lines. -/
def container? (s : Source) (c : Container) (m : Margin) : Option Margin :=
  match c with
  | .quote => m.quote? s
  | .item indent =>
    let (enough, m') := m.use s indent
    if enough || m'.isAtEnd s then some m' else none

/-- Read the margin for containers from the outermost on; the answer has how many of them go on. -/
def containers (s : Source) : List Container → Margin → Nat × Margin
  | [], m => (0, m)
  | c :: cs, m =>
    match m.container? s c with
    | some m =>
      let (n, m) := containers s cs m
      (n + 1, m)
    | none => (0, m)

/-- Read the margin of the line at a place; the answer tells whether all containers go on. -/
def ofLine (s : Source) (path : List Container) (i : Nat) : Bool × Margin :=
  let (n, m) := containers s path (start i)
  (n = path.length, m)

end Margin

/-- The place behind the margin of the line at a place. -/
def skipMargin (s : Source) (path : List Container) (i : Nat) : Nat :=
  (Margin.ofLine s path i).2.place

/-- The place behind a thematic break: three or more signs of one kind and nothing else. -/
def rule? (s : Source) (i : Nat) : Option Nat :=
  match s.char? i with
  | some c =>
    if c = '*' || c = '-' || c = '_' then
      let stop := s.skip (fun d => d = c || d = ' ' || d = '\t') i
      let signs := ((s.slice i stop).filter (· = c)).length
      if signs ≥ 3 then s.lineEnd? stop else none
    else none
  | none => none

/-- The marker of a list item. -/
structure ListMarker where
  /-- The sign, or the delimiter behind a number. -/
  sign : Char
  number : Nat
  /-- The columns that the content of the item is indented by. -/
  indent : Nat
  deriving Repr, Inhabited

/-- Whether the items of a list have numbers. -/
def isOrderedSign (c : Char) : Bool := c = '.' || c = ')'

/-- Whether a character starts an item of a list without numbers. -/
def isBullet (c : Char) : Bool := c = '-' || c = '+' || c = '*'

namespace Margin

/-- Add the columns behind a marker to the indentation, unless the content is code. -/
def finishMarker (s : Source) (sign : Char) (number indent : Nat) (m : Margin) :
    ListMarker × Margin :=
  if (s.blankLine? m.place).isSome then (⟨sign, number, indent⟩, m)
  else
    let (columns, m') := m.useUpTo s 4
    if columns < 4 then (⟨sign, number, indent + columns⟩, m') else (⟨sign, number, indent⟩, m)

/-- Read the marker of a list item: its sign, and one column or the end of the line. -/
def listMarker? (s : Source) (m : Margin) : Option (ListMarker × Margin) :=
  let (indent, m) := m.useUpTo s 4
  if indent ≥ 4 then none
  else
    match s.char? m.place with
    | none => none
    | some c =>
      if isBullet c then
        if (rule? s m.place).isSome then none
        else
          let (enough, m) := Margin.use s 1 { m with place := m.place + 1 }
          if enough || m.isAtEnd s then some (m.finishMarker s c 0 (indent + 2)) else none
      else if c.isDigit then
        let (number, behind) := s.decimal 9 m.place
        match s.char? behind with
        | none => none
        | some d =>
          if isOrderedSign d then
            let width := behind + 1 - m.place
            let (enough, m) := Margin.use s 1 { m with place := behind + 1 }
            if enough || m.isAtEnd s then some (m.finishMarker s d number (indent + 1 + width))
            else none
          else none
      else none

/-- Read the box of a task; the answer has whether it is checked. -/
def taskMarker? (s : Source) (m : Margin) : Option (Bool × Margin) :=
  let (_, m) := m.useUpTo s 3
  if s.isAt m.place '[' && s.isAt (m.place + 2) ']'
      && (s.char? (m.place + 3)).any isInlineBlank then
    match s.char? (m.place + 1) with
    | none => none
    | some c =>
      let behind : Margin := { m with place := m.place + 3 }
      if isInlineBlank c then some (false, behind)
      else if c = 'x' || c = 'X' then some (true, behind)
      else none
  else none

end Margin

end PublisherConsole.Markdown
