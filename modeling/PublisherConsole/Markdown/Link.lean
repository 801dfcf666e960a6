import PublisherConsole.Markdown.Entity
import PublisherConsole.Markdown.Margin
import PublisherConsole.Unicode.CaseFold

/-!
# The parts of links

A link has a label, a destination and perhaps a title. Labels are compared without regard to case
and to the amount of white space, so `label?` gives them in that normal form. What a destination
and a title say does not matter here, only where they end.
-/

namespace PublisherConsole.Markdown

/-- How many characters a label has at most. -/
def labelLimit : Nat := 999

/-- How deep the round brackets of a destination may be nested. -/
def nestingLimit : Nat := 5

/-- Skip the white space in a label, with one line end at most; `cross` gives the place where the
next line goes on, if it does. -/
def labelBlanks? (s : Source) (cross : Nat → Option Nat) : Nat → Nat → Bool → Option Nat
  | 0, i, _ => some i
  | fuel + 1, i, crossed =>
    match s.char? i with
    | none => some i
    | some c =>
      if isLineEnd c then
        if crossed then none
        else
          match s.lineEnd? i with
          | none => some i
          | some behind => (cross behind).bind fun next => labelBlanks? s cross fuel next true
      else if isInlineBlank c then labelBlanks? s cross fuel (i + 1) crossed
      else some i

/-- Read a label up to its closing bracket; `acc` has the characters so far in reverse, with every
stretch of white space as one blank. -/
def labelFrom? (s : Source) (cross : Nat → Option Nat) :
    Nat → Nat → Nat → List Char → Option (List Char × Nat)
  | 0, _, _, _ => none
  | fuel + 1, i, count, acc =>
    if count > labelLimit then none
    else
      match s.char? i with
      | none | some '[' => none
      | some ']' => if acc.all (· = ' ') then none else some (acc.reverse, i + 1)
      | some '\\' =>
        (s.char? (i + 1)).bind fun c => labelFrom? s cross fuel (i + 2) (count + 2) (c :: '\\' :: acc)
      | some c =>
        if isAnyBlank c then
          (labelBlanks? s cross (s.stop + 1 - i) i false).bind fun next =>
            labelFrom? s cross fuel next (count + (next - i)) (' ' :: acc)
        else labelFrom? s cross fuel (i + 1) (count + 1) (c :: acc)

/-- A text without the blanks around it. -/
def trimBlanks (cs : List Char) : List Char :=
  ((cs.dropWhile (· = ' ')).reverse.dropWhile (· = ' ')).reverse

/-- Read a label from behind its opening bracket: its normal form and the place behind it. -/
def label? (s : Source) (cross : Nat → Option Nat) (i : Nat) : Option (List Char × Nat) :=
  (labelFrom? s cross (s.stop + 1 - i) i 0 []).map fun (cs, stop) =>
    (Unicode.foldCase (trimBlanks cs), stop)

/-- Whether a backslash at a place escapes the next character. -/
def isEscape (s : Source) (i : Nat) : Bool :=
  s.isAt i '\\' && (s.char? (i + 1)).any isBasicPunctuation

/-- The place behind a destination in angle brackets, read from behind the first one. -/
def bracketedEnd? (s : Source) : Nat → Nat → Option Nat
  | 0, _ => none
  | fuel + 1, i =>
    match s.char? i with
    | none => none
    | some c =>
      if isLineEnd c || c = '<' then none
      else if c = '>' then some (i + 1)
      else bracketedEnd? s fuel (if isEscape s i then i + 2 else i + 1)

/-- The place behind a destination without brackets around it; `depth` counts the open round
brackets in it. -/
def bareEnd? (s : Source) : Nat → Nat → Nat → Option Nat
  | 0, i, depth => if depth = 0 then some i else none
  | fuel + 1, i, depth =>
    match s.char? i with
    | none => if depth = 0 then some i else none
    | some c =>
      if c ≤ ' ' || (c = ')' && depth = 0) then if depth = 0 then some i else none
      else if c = '(' then
        if depth > nestingLimit then none else bareEnd? s fuel (i + 1) (depth + 1)
      else if c = ')' then bareEnd? s fuel (i + 1) (depth - 1)
      else bareEnd? s fuel (if isEscape s i then i + 2 else i + 1) depth

/-- The place behind a destination. -/
def destinationEnd? (s : Source) (i : Nat) : Option Nat :=
  if s.isAt i '<' then bracketedEnd? s (s.stop - i) (i + 1) else bareEnd? s (s.stop - i) i 0

/-- The sign that closes a title, for the sign that opens it. -/
def titleMark? (c : Char) : Option Char :=
  if c = '"' || c = '\'' then some c else if c = '(' then some ')' else none

/-- The place behind the closing sign of the title of an inline link. -/
def titleFrom? (s : Source) (mark close : Char) : Nat → Nat → Option Nat
  | 0, _ => none
  | fuel + 1, i =>
    match s.char? i with
    | none => none
    | some c =>
      if c = close then some (i + 1)
      else if c = mark then none
      else titleFrom? s mark close fuel (if isEscape s i then i + 2 else i + 1)

/-- The place behind the title of an inline link. -/
def titleEnd? (s : Source) (i : Nat) : Option Nat := do
  let mark ← s.char? i
  let close ← titleMark? mark
  titleFrom? s mark close (s.stop - i) (i + 1)

/-- Skip the blanks between the parts of an inline link, with one line end at most. -/
def linkGap (s : Source) (path : List Container) (i : Nat) : Nat :=
  let i := s.skipBlanks i
  match s.lineEnd? i with
  | none => i
  | some behind => s.skipBlanks (skipMargin s path behind)

/-- The place behind the round brackets of an inline link that start here. -/
def inlineLinkEnd? (s : Source) (path : List Container) (i : Nat) : Option Nat :=
  if s.isAt i '(' then do
    let start := linkGap s path (i + 1)
    let stop ← destinationEnd? s start
    let next := linkGap s path stop
    let next := match titleEnd? s next with
      | some behind => linkGap s path behind
      | none => next
    if s.isAt next ')' then some (next + 1) else none
  else none

/-- Read the label that starts with a bracket at a place, in the text of a paragraph. -/
def referenceLabel? (s : Source) (path : List Container) (i : Nat) : Option (List Char × Nat) :=
  if s.isAt i '[' then label? s (fun j => some (skipMargin s path j)) (i + 1) else none

end PublisherConsole.Markdown
