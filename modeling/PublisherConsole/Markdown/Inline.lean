import PublisherConsole.Markdown.Event
import PublisherConsole.Markdown.Html
import PublisherConsole.Markdown.Piece

/-!
# Inline structure

The pieces of a paragraph are settled in two rounds. The first one goes from left to right over
code, HTML, addresses and links; what a link encloses becomes its content. The second one pairs the
runs of signs of emphasis, in the whole paragraph and in the content of each link on its own.
-/

namespace PublisherConsole.Markdown

/-- An element inside of a paragraph. -/
inductive Inline
  | text (chars : List Char)
  | code (chars : List Char)
  | html (chars : List Char)
  | softBreak
  | hardBreak
  /-- A run of signs of emphasis that has not been paired yet. -/
  | run (sign : Char) (count : Nat) (canOpen canClose : Bool)
  | element (tag : Tag) (content : List Inline)
  deriving Repr, Inhabited

/-! ## Emphasis -/

/-- A run of signs that waits for its counterpart: the signs still to pair stand at the end of what
was put out when there were `place` elements before them. -/
structure Opener where
  place : Nat
  count : Nat
  runLength : Nat
  sign : Char
  /-- Whether the run could have closed emphasis as well. -/
  both : Bool
  deriving Repr, Inhabited

/-- Below which opener a closing run need not look again, by the kind of the run: stars and
underscores that can open as well by their length modulo three, the others on their own, and
tildes. -/
structure Floors where
  underscoreOnly : Nat := 0
  starOnly : Nat := 0
  tilde : Nat := 0
  star : Nat → Nat := fun _ => 0
  underscore : Nat → Nat := fun _ => 0

namespace Floors

/-- The floor for a run. -/
def get (f : Floors) (sign : Char) (count : Nat) (both : Bool) : Nat :=
  if sign = '_' then
    if both then f.underscore (count % 3) else min (f.underscore (count % 3)) f.underscoreOnly
  else if sign = '*' then
    if both then f.star (count % 3) else min (f.star (count % 3)) f.starOnly
  else f.tilde

/-- Change the value of a function at one place. -/
def update (g : Nat → Nat) (k v : Nat) : Nat → Nat := fun n => if n = k then v else g n

/-- Raise the floor for a run. -/
def set (f : Floors) (sign : Char) (count : Nat) (both : Bool) (floor : Nat) : Floors :=
  if sign = '_' then
    if both then { f with underscore := update f.underscore (count % 3) floor }
    else { f with underscoreOnly := floor }
  else if sign = '*' then
    let f := { f with star := update f.star (count % 3) floor }
    if both then f else { f with starOnly := floor }
  else { f with tilde := floor }

/-- Lower every floor to the number of openers that are left. -/
def lower (f : Floors) (n : Nat) : Floors :=
  { underscoreOnly := min f.underscoreOnly n
    starOnly := min f.starOnly n
    tilde := min f.tilde n
    star := fun k => min (f.star k) n
    underscore := fun k => min (f.underscore k) n }

end Floors

/-- Whether an opener fits a closing run: the same sign; for tildes the same length; and if one of
the runs can do both, their lengths may not add up to a multiple of three, unless both are one. -/
def Opener.fits (o : Opener) (sign : Char) (runLength : Nat) (both : Bool) : Bool :=
  o.sign = sign && (sign ≠ '~' || runLength = o.runLength)
    && ((!both && !o.both) || (runLength + o.runLength) % 3 ≠ 0 || runLength % 3 = 0)

/-- The state of pairing: what was put out, in reverse and with its length, and the openers,
innermost first. -/
structure Pairing where
  output : List Inline
  size : Nat
  openers : List Opener
  floors : Floors

namespace Pairing

/-- Nothing put out yet. -/
def start : Pairing := ⟨[], 0, [], {}⟩

/-- Put out an element. -/
def emit (p : Pairing) (e : Inline) : Pairing :=
  { p with output := e :: p.output, size := p.size + 1 }

/-- Put out signs as text. -/
def emitSigns (p : Pairing) (sign : Char) : Nat → Pairing
  | 0 => p
  | n + 1 => emitSigns (p.emit (.text [sign])) sign n

/-- Find the innermost opener that fits a closing run, above the floor; the answer also has the
openers outside of it. -/
def find? (p : Pairing) (sign : Char) (runLength : Nat) (both : Bool) :
    Option (Opener × List Opener) :=
  let floor := min p.openers.length (p.floors.get sign runLength both)
  let candidates := p.openers.take (p.openers.length - floor)
  match candidates.dropWhile fun o => !o.fits sign runLength both with
  | [] => none
  | o :: others => some (o, others ++ p.openers.drop (p.openers.length - floor))

/-- The tag of a pair of signs. -/
def tag (sign : Char) (double : Bool) : Tag :=
  if sign = '~' then .strikethrough else if double then .strong else .emphasis

/-- Wrap content in the tags of `n` paired signs, two at a time from the inside out. -/
def wrap (sign : Char) : Nat → List Inline → List Inline
  | 0, content => content
  | 1, content => [.element (tag sign false) content]
  | n + 2, content => wrap sign n [.element (tag sign true) content]

/-- Pair a closing run of `count` signs with an opener. -/
def pair (p : Pairing) (o : Opener) (outer : List Opener) (sign : Char) (count : Nat) : Pairing :=
  let matched := min count o.count
  let inside := p.size - (o.place + o.count)
  let content := (p.output.take inside).reverse
  let rest := p.output.drop (inside + matched)
  let wrapped := wrap sign matched content
  let openers := if o.count > matched then { o with count := o.count - matched } :: outer else outer
  { output := wrapped.reverse ++ rest
    size := o.place + o.count - matched + wrapped.length
    openers
    floors := p.floors.lower outer.length }

/-- Pair a closing run as often as it goes; the answer has the signs that are left. -/
def closeRun (sign : Char) (runLength : Nat) (both : Bool) : Nat → Nat → Pairing → Nat × Pairing
  | 0, count, p => (count, p)
  | fuel + 1, count, p =>
    if count = 0 then (0, p)
    else
      match p.find? sign runLength both with
      | none =>
        (count, { p with floors := p.floors.set sign runLength both p.openers.length })
      | some (o, outer) =>
        closeRun sign runLength both fuel (count - min count o.count) (p.pair o outer sign count)

/-- Settle one element. -/
def step (p : Pairing) : Inline → Pairing
  | .run sign count opens closes =>
    let both := opens && closes
    let (rest, p) := if closes then closeRun sign count both count count p else (count, p)
    let place := p.size
    let p := p.emitSigns sign rest
    if opens && rest > 0 then
      { p with openers := ⟨place, rest, count, sign, both⟩ :: p.openers }
    else p
  | e => p.emit e

end Pairing

/-- Pair the signs of emphasis in a row of elements. -/
def pairSigns (es : List Inline) : List Inline := (es.foldl Pairing.step Pairing.start).output.reverse

/-! ## Code -/

/-- The characters of code between two places: a line end with the margin behind it is one blank,
and in a table an escaped bar is a bar. -/
def codeChars (s : Source) (path : List Container) (inTable : Bool) (stop : Nat) :
    Nat → Nat → List Char
  | 0, _ => []
  | fuel + 1, i =>
    if i ≥ stop then []
    else
      match s.char? i with
      | none => []
      | some c =>
        if isLineEnd c then
          ' ' :: codeChars s path inTable stop fuel
            (skipMargin (s.upTo stop) path ((s.lineEnd? i).getD (i + 1)))
        else if inTable && c = '\\' && s.isAt (i + 1) '|' then
          '|' :: codeChars s path inTable stop fuel (i + 2)
        else c :: codeChars s path inTable stop fuel (i + 1)

/-- Code without one blank at either end, if there is one at both and something else between. -/
def stripCode (cs : List Char) : List Char :=
  if cs.all (· = ' ') then cs
  else if cs.head? = some ' ' && cs.getLast? = some ' ' then cs.tail.dropLast
  else cs

/-! ## Links -/

/-- A bracket that may open a link. -/
structure Bracket where
  /-- How many elements were put out before it. -/
  place : Nat
  /-- The place of the bracket in the text. -/
  start : Nat
  image : Bool
  /-- Whether it can open nothing any more, as a link was found inside. -/
  dead : Bool
  deriving Repr, Inhabited

/-- What the first round needs to know of a paragraph. -/
structure InlineContext where
  /-- The text up to the end of the paragraph. -/
  source : Source
  path : List Container
  inTable : Bool
  labels : List (List Char)
  deriving Inhabited

/-- The state of the first round: what was put out, in reverse and with its length, and the open
brackets, innermost first. -/
structure Linking where
  output : List Inline
  size : Nat
  brackets : List Bracket
  deriving Inhabited

namespace Linking

/-- Put out an element. -/
def emit (l : Linking) (e : Inline) : Linking :=
  { l with output := e :: l.output, size := l.size + 1 }

/-- Make an element of what was put out behind a bracket. A link kills the brackets around it. -/
def enclose (l : Linking) (b : Bracket) : Linking :=
  let inside := l.size - (b.place + 1)
  let content := pairSigns (l.output.take inside).reverse
  let tag : Tag := if b.image then .image else .link
  { output := .element tag content :: l.output.drop (inside + 1)
    size := b.place + 1
    brackets :=
      if b.image then l.brackets
      else l.brackets.map fun o => if o.image then o else { o with dead := true } }

end Linking

/-- Drop the pieces that end before a place, and cut off what stands before it from the next. -/
def dropTo (pieces : List Piece) (i : Nat) : List Piece :=
  match pieces.dropWhile fun p => p.stop ≤ i with
  | [] => []
  | p :: rest => { p with start := max p.start i } :: rest

/-- The reference that follows a closing bracket. -/
inductive Reference
  /-- There is none. -/
  | missing
  /-- It is a pair of brackets without a label. -/
  | collapsed (rest : List Piece)
  /-- It has a label of its own: its normal form, the place behind it, and the pieces behind it. -/
  | full (label : List Char) (stop : Nat)
  deriving Repr, Inhabited

/-- Look for a reference in the pieces behind a closing bracket. -/
def reference (c : InlineContext) (rest : List Piece) : Reference :=
  match rest with
  | [] => .missing
  | p :: more =>
    if c.source.startsWith p.start ['[', ']'] then .collapsed (more.drop 1)
    else
      match referenceLabel? c.source c.path p.start with
      | some (label, stop) => .full label stop
      | none => .missing

/-- The label between an opening bracket and the closing one that ends at a place. -/
def ownLabel? (c : InlineContext) (b : Bracket) (stop : Nat) : Option (List Char) :=
  match referenceLabel? (c.source.upTo stop) c.path b.start with
  | some (label, behind) => if behind = stop then some label else none
  | none => none

/-- A closing bracket behind which no reference needs to be looked for again. -/
def stale : Piece → Piece
  | ⟨start, stop, .linkClose _⟩ => ⟨start, stop, .linkClose false⟩
  | p => p

/-- Settle a closing bracket behind which `rest` follows. -/
def closeBracket (c : InlineContext) (l : Linking) (p : Piece) (fresh : Bool) (rest : List Piece) :
    Linking × List Piece :=
  let plain := l.emit (.text [']'])
  match l.brackets with
  | [] => (plain, rest)
  | b :: brackets =>
    let l := { l with brackets }
    let plain := { plain with brackets }
    if b.dead then (plain, rest)
    else
      match inlineLinkEnd? c.source c.path p.stop with
      | some stop => (l.enclose b, dropTo rest stop)
      | none =>
        let resolve (label : Option (List Char)) (behind rest : List Piece) :
            Linking × List Piece :=
          match label with
          | none => (plain, rest)
          | some label =>
            if c.labels.contains label then (l.enclose b, behind) else (plain, rest)
        match reference c rest with
        | .full label stop =>
          let before := rest.takeWhile fun q => q.stop ≤ stop - 1
          match rest.dropWhile fun q => q.stop ≤ stop - 1 with
          | [] => (plain, rest)
          | q :: behind => resolve (some label) behind (before ++ stale q :: behind)
        | .collapsed behind =>
          if fresh then resolve (ownLabel? c b p.stop) behind rest else (plain, rest)
        | .missing =>
          if fresh then resolve (ownLabel? c b p.stop) rest rest else (plain, rest)

/-- Settle a run of backticks: code up to the next run of its length, or text. -/
def closeTicks (c : InlineContext) (l : Linking) (p : Piece) (escaped : Bool) (rest : List Piece) :
    Linking × List Piece :=
  let count := (p.stop - p.start) - if escaped then 1 else 0
  let isClose (q : Piece) : Bool :=
    match q.kind with
    | .ticks _ => q.stop - q.start = count
    | _ => false
  let plain := (l.emit (.text (c.source.slice p.start p.stop)), rest)
  if count = 0 then plain
  else
    match rest.dropWhile fun q => !isClose q with
    | [] => plain
    | q :: behind =>
      let code := codeChars c.source c.path c.inTable q.start (q.start - p.stop) p.stop
      let l := if escaped then l.emit (.text ['`']) else l
      (l.emit (.code (stripCode code)), behind)

/-- Settle a `<`: an address, HTML, or text. -/
def closeAngle (c : InlineContext) (l : Linking) (p : Piece) (rest : List Piece) :
    Linking × List Piece :=
  let plain := (l.emit (.text ['<']), rest)
  match rest with
  | [] => plain
  | q :: _ =>
    match autolinkEnd? c.source q.start with
    | some stop =>
      (l.emit (.element .link [.text (c.source.slice (p.start + 1) (stop - 1))]), dropTo rest stop)
    | none =>
      match inlineHtml? c.source (skipMargin c.source c.path) q.start with
      | some t => (l.emit (.html (t.text c.source p.start)), dropTo rest t.place)
      | none => plain

/-- Settle the first of the pieces. -/
def linkStep (c : InlineContext) (l : Linking) (p : Piece) (rest : List Piece) :
    Linking × List Piece :=
  let chars := c.source.slice p.start p.stop
  match p.kind with
  | .text => (l.emit (.text chars), rest)
  | .entity cs => (l.emit (.text cs), rest)
  | .softBreak => (l.emit .softBreak, rest)
  | .hardBreak => (l.emit .hardBreak, rest)
  | .run opens closes =>
    (l.emit (.run (chars.headD '*') (p.stop - p.start) opens closes), rest)
  | .ticks escaped => closeTicks c l p escaped rest
  | .angle => closeAngle c l p rest
  | .linkOpen =>
    ({ l.emit (.text chars) with brackets := ⟨l.size, p.start, false, false⟩ :: l.brackets }, rest)
  | .imageOpen =>
    ({ l.emit (.text chars) with brackets := ⟨l.size, p.start + 1, true, false⟩ :: l.brackets },
      rest)
  | .linkClose fresh => closeBracket c l p fresh rest

/-- Settle pieces from left to right. -/
def linkPieces (c : InlineContext) : Nat → Linking → List Piece → Linking
  | 0, l, _ => l
  | _, l, [] => l
  | fuel + 1, l, p :: rest =>
    let (l, rest) := linkStep c l p rest
    linkPieces c fuel l rest

/-- The elements of a row of pieces. -/
def settle (c : InlineContext) (pieces : List Piece) : List Inline :=
  pairSigns (linkPieces c (pieces.length + 1) ⟨[], 0, []⟩ pieces).output.reverse

end PublisherConsole.Markdown
