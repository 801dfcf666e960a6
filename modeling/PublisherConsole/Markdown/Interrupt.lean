import PublisherConsole.Markdown.Html
import PublisherConsole.Markdown.Piece

/-!
# What ends a paragraph

A paragraph goes on until a blank line or until a line that begins a block of its own. Items end a
paragraph only if they have content and, with numbers, if they start with one; but a line that has
left the containers of the paragraph ends it with any item.
-/

namespace PublisherConsole.Markdown

/-- The level of the heading that starts at a place with number signs. -/
def headingLevel? (s : Source) (i : Nat) : Option Nat :=
  let stop := s.skipRun '#' i
  let level := stop - i
  if 1 ≤ level && level ≤ 6 && ((s.char? stop).all isAnyBlank) then some level else none

/-- The level of the heading that is underlined at a place, and the place behind the line. -/
def underline? (s : Source) (i : Nat) : Option (Nat × Nat) :=
  match s.char? i with
  | some c =>
    if c = '=' || c = '-' then
      (s.blankLine? (s.skipRun c i)).map fun behind => (if c = '=' then 1 else 2, behind)
    else none
  | none => none

/-- A fence in front of code. -/
structure Fence where
  sign : Char
  length : Nat
  deriving Repr, Inhabited

/-- The fence at a place. No backtick may stand behind a fence of backticks. -/
def fence? (s : Source) (i : Nat) : Option Fence :=
  match s.char? i with
  | some c =>
    if c = '`' || c = '~' then
      let stop := s.skipRun c i
      if stop - i < 3 then none
      else if c = '`' && (s.slice stop (s.nextLine stop)).contains '`' then none
      else some ⟨c, stop - i⟩
    else none
  | none => none

/-- The place behind the fence that closes code; the end of the source closes it as well. -/
def closingFence? (s : Source) (f : Fence) (i : Nat) : Option Nat :=
  if s.isEnd i then some i
  else
    let stop := s.skipRun f.sign i
    if stop - i < f.length then none
    else
      let behind := s.skipRun ' ' stop
      (s.lineEnd? behind).map fun _ => behind

/-- The marker of an item as far as it can end a paragraph: its sign, its number, and the place
where its content starts. -/
def itemStart? (s : Source) (i : Nat) : Option (Char × Nat × Nat) :=
  match s.char? i with
  | none => none
  | some c =>
    let (sign, number, behind) :=
      if isBullet c then (some c, 0, i + 1)
      else
        let (number, stop) := s.decimal 9 i
        ((s.char? stop).filter isOrderedSign, number, stop + 1)
    match sign with
    | none => none
    | some sign =>
      match s.char? behind with
      | none => some (sign, number, behind)
      | some d =>
        if d = ' ' || d = '\t' || isLineEnd d then some (sign, number, behind) else none

/-- Whether nothing stands at a place and in the line below. -/
def isEmptyItem (s : Source) (i : Nat) : Bool :=
  match s.blankLine? i with
  | none => false
  | some next => (s.blankLine? next).isSome

/-- Whether a block that is not a table begins at a place; `inside` says that the line belongs to
the containers of the paragraph. -/
def startsBlock (s : Source) (inside : Bool) (i : Nat) : Bool :=
  (s.lineEnd? i).isSome || (rule? s i).isSome || (headingLevel? s i).isSome
    || (fence? s i).isSome || s.isAt i '>'
    || (match itemStart? s i with
        | none => false
        | some (sign, number, behind) =>
          !inside || ((isBullet sign || number = 1) && !isEmptyItem s behind))
    || (s.isAt i '<' && ((htmlBlockEnd? s (i + 1)).isSome || isBlockElement s (i + 1)))

/-- The bars of a line that are not escaped: their number, the place of the last one, and the place
behind the line feed; no place if the line is the last one. -/
def lineBars (s : Source) : Nat → Nat → Bool → Nat → Nat → Nat × Nat × Option Nat
  | 0, _, _, bars, last => (bars, last, none)
  | fuel + 1, i, escaped, bars, last =>
    match s.char? i with
    | none => (bars, last, none)
    | some c =>
      if isLineEnd c then (bars, last, s.lineEnd? i)
      else if c = '\\' then lineBars s fuel (i + 1) true bars last
      else if c = '|' && !escaped then lineBars s fuel (i + 1) false (bars + 1) i
      else lineBars s fuel (i + 1) false bars last

/-- Whether a line and the one below look like the start of a table. -/
def startsTable (s : Source) (path : List Container) (i : Nat) : Bool :=
  let (bars, last, next) := lineBars s (s.stop - i) i false 0 i
  match next with
  | none => false
  | some next =>
    let (continues, m) := Margin.ofLine s path next
    continues &&
      match delimiterRow? s m.place with
      | none => false
      | some (columns, _) => columns = headColumns s bars i last

/-- Whether a line ends the paragraph above it. -/
def interrupts (s : Source) (path : List Container) (inside : Bool) (i : Nat) : Bool :=
  startsBlock s inside i || (inside && startsTable s path i)

end PublisherConsole.Markdown
