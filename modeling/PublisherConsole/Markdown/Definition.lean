import PublisherConsole.Markdown.Interrupt

/-!
# Definitions of links

`[label]: destination "title"` at the start of a paragraph defines a link. The parts may stand on
lines of their own, as long as those lines would go on a paragraph. A title that is not followed by
the end of its line is no part of the definition; then the destination must end its line.
-/

namespace PublisherConsole.Markdown

/-- The place where a definition goes on in the line at a place, if the line does not begin a block
of its own. -/
def continueDefinition? (s : Source) (path : List Container) (i : Nat) : Option Nat :=
  let (inside, m) := Margin.ofLine s path i
  if interrupts s path inside m.place || (inside && (underline? s m.place).isSome) then none
  else some m.place

/-- Skip the blanks between the parts of a definition, with one line end at most; the answer also
has whether there was a line end. -/
def definitionGap? (s : Source) (path : List Container) : Nat → Nat → Bool → Option (Nat × Bool)
  | 0, i, crossed => some (i, crossed)
  | fuel + 1, i, crossed =>
    let i := s.skipBlanks i
    match s.lineEnd? i with
    | none => some (i, crossed)
    | some behind =>
      if crossed then none
      else
        let (inside, m) := Margin.ofLine s path behind
        let (deep, m) := m.use s 4
        if !deep && (interrupts s path inside m.place || (underline? s m.place).isSome) then none
        else definitionGap? s path fuel m.place true

/-- The place behind the closing sign of the title of a definition. -/
def definitionTitleFrom? (s : Source) (path : List Container) (close : Char) : Nat → Nat → Option Nat
  | 0, _ => none
  | fuel + 1, i =>
    match s.char? i with
    | none => none
    | some c =>
      if c = close then some (i + 1)
      else if c = '(' && close = ')' then none
      else if isLineEnd c then
        match s.lineEnd? i with
        | none => none
        | some behind =>
          (continueDefinition? s path behind).bind fun next =>
            definitionTitleFrom? s path close fuel next
      else if c = '\\' && (s.char? (i + 1)).any (fun d => !isLineEnd d) then
        definitionTitleFrom? s path close fuel (i + 2)
      else definitionTitleFrom? s path close fuel (i + 1)

/-- The place behind the title of a definition. -/
def definitionTitleEnd? (s : Source) (path : List Container) (i : Nat) : Option Nat := do
  let mark ← s.char? i
  let close ← titleMark? mark
  definitionTitleFrom? s path close (s.stop - i) (i + 1)

/-- The place behind the destination and the title of a definition, read from behind the colon. -/
def definitionEnd? (s : Source) (path : List Container) (i : Nat) : Option Nat := do
  let (start, _) ← definitionGap? s path 2 i false
  let stop ← destinationEnd? s start
  if stop = start then none
  else
    match definitionGap? s path 2 stop false with
    | none => some stop
    | some (next, crossed) =>
      if next = stop && !crossed then none
      else
        match definitionTitleEnd? s path next with
        | none => if crossed then some stop else none
        | some behind =>
          match s.blankLine? behind with
          | some behind => some behind
          | none => if crossed then some stop else none

/-- Read the definition at a place: the normal form of its label and the place behind it. -/
def definition? (s : Source) (path : List Container) (i : Nat) : Option (List Char × Nat) :=
  if s.isAt i '[' then do
    let (label, behind) ← label? s (continueDefinition? s path) (i + 1)
    if s.isAt behind ':' then
      let stop ← definitionEnd? s path (behind + 1)
      return (label, stop)
    else none
  else none

end PublisherConsole.Markdown
