import PublisherConsole.Markdown.Block
import PublisherConsole.Markdown.Definition

/-!
# The blocks of a document

A document is read block by block. Each round starts at the beginning of a line: the containers
that the line does not belong to are closed, new ones are opened, and what is left begins a leaf
block, which is read to its end. `Reader` has the open containers from the innermost out.

Whether a list is tight is known when it is closed: blank lines between its items, or between the
blocks of an item, make it loose.
-/

namespace PublisherConsole.Markdown

/-- An open container: a list is one too. -/
inductive Frame
  | quote
  | list (tight : Bool) (sign : Char) (number : Nat)
  | item (indent : Nat)
  deriving Repr, Inhabited

/-- What was read of a document. -/
structure Reader where
  /-- The open containers with their blocks so far in reverse, innermost first. -/
  frames : List (Frame × List Block)
  /-- The closed blocks outside of all containers, in reverse. -/
  done : List Block
  /-- Whether the last item has started with a blank line. -/
  emptyItem : Bool
  /-- Whether the last line was blank. -/
  blank : Bool
  /-- The labels that have definitions. -/
  labels : List (List Char)
  deriving Repr, Inhabited

namespace Reader

/-- Nothing read yet. -/
def start : Reader := ⟨[], [], false, false, []⟩

/-- The containers that take part in margins, from the outermost in. -/
def path (r : Reader) : List Container :=
  (r.frames.filterMap fun (f, _) =>
    match f with
    | .quote => some .quote
    | .item indent => some (.item indent)
    | .list .. => none).reverse

/-- Add a block to the innermost container. -/
def add (r : Reader) (b : Block) : Reader :=
  match r.frames with
  | [] => { r with done := b :: r.done }
  | (f, blocks) :: rest => { r with frames := (f, b :: blocks) :: rest }

/-- Open a container. -/
def push (r : Reader) (f : Frame) : Reader := { r with frames := (f, []) :: r.frames }

/-- Close the innermost container. -/
def pop (r : Reader) : Reader :=
  match r.frames with
  | [] => r
  | (f, blocks) :: rest =>
    let r := { r with frames := rest }
    let blocks := blocks.reverse
    match f with
    | .quote => r.add (.quote blocks)
    | .item indent => r.add (.item indent blocks)
    | .list tight sign number =>
      { r.add (.list tight sign number blocks) with emptyItem := r.emptyItem && !tight }

/-- Close containers until `n` are left. -/
def popTo (n : Nat) : Nat → Reader → Reader
  | 0, r => r
  | fuel + 1, r => if r.frames.length > n then popTo n fuel r.pop else r

/-- Change the kind of a frame. -/
def mapFrame (f : Frame → Frame) : Frame × List Block → Frame × List Block
  | (frame, blocks) => (f frame, blocks)

/-- A list that is not tight. -/
def Frame.loosen : Frame → Frame
  | .list _ sign number => .list false sign number
  | f => f

/-- Close the last item if it has started with more than one blank line. -/
def finishEmptyItem (r : Reader) : Reader :=
  let r :=
    if r.emptyItem && r.blank then
      match r.frames with
      | (.item _, _) :: _ => r.pop
      | _ => r
    else r
  { r with emptyItem := false }

/-- Close a list that stands innermost; a blank line before makes the list around loose. -/
def finishList (r : Reader) : Reader :=
  let r := r.finishEmptyItem
  let r :=
    match r.frames with
    | (.list .., _) :: _ => r.pop
    | _ => r
  if r.blank then
    match r.frames with
    | top :: parent :: rest =>
      { r with frames := top :: mapFrame Frame.loosen parent :: rest, blank := false }
    | _ => { r with blank := false }
  else r

/-- Open a list for an item, unless a list of its kind is open. -/
def openList (r : Reader) (m : ListMarker) : Reader :=
  let fresh (r : Reader) : Reader := { r.push (.list true m.sign m.number) with blank := false }
  let r := r.finishEmptyItem
  match r.frames with
  | (.list tight sign number, blocks) :: rest =>
    if sign = m.sign then
      if r.blank then
        { r with frames := (.list false sign number, blocks) :: rest, blank := false }
      else { r with frames := (.list tight sign number, blocks) :: rest }
    else fresh r.finishList
  | _ => fresh r.finishList

/-- What the containers of a line leave: a reader and a margin, and the place to go on from when
nothing else is on the line. -/
structure Opened where
  reader : Reader
  margin : Margin
  next : Option Nat

/-- Open the containers that a line begins. -/
def openContainers (s : Source) : Nat → Reader → Margin → Opened
  | 0, r, m => ⟨r, m, none⟩
  | fuel + 1, r, m =>
    match m.listMarker? s with
    | some (marker, m) =>
      let r := (r.openList marker).push (.item marker.indent)
      match s.blankLine? m.place with
      | some behind => ⟨{ r with emptyItem := true }, m, some behind⟩
      | none =>
        match m.taskMarker? s with
        | some (checked, m) => openContainers s fuel (r.add (.task checked)) m
        | none => openContainers s fuel r m
    | none =>
      match m.quote? s with
      | some m => openContainers s fuel (r.finishList.push .quote) m
      | none => ⟨r, m, none⟩

/-- How many frames go on in a line: the lists count with the items in them. -/
def continuing (s : Source) : List Frame → Margin → Nat × Margin
  | [], m => (0, m)
  | f :: fs, m =>
    let next : Option Margin :=
      match f with
      | .quote => m.quote? s
      | .item indent => m.container? s (.item indent)
      | .list .. => some m
    match next with
    | none => (0, m)
    | some m =>
      let (n, m) := continuing s fs m
      (n + 1, m)

/-- Note a blank line. An item that has nothing but blank lines takes no content any more. -/
def noteBlank (r : Reader) : Reader :=
  match r.frames with
  | [] => r
  | (.quote, _) :: _ => r
  | (.item indent, blocks) :: rest =>
    if r.emptyItem then { r with frames := (.item 0, blocks) :: rest, blank := true }
    else { r with frames := (.item indent, blocks) :: rest, blank := true }
  | _ => { r with blank := true }

end Reader

/-! ## Code -/

/-- Code that was read: finished stretches in reverse, and the last one as a span of places. -/
structure CodeScan where
  texts : List (List Char)
  span : Option (Nat × Nat)
  deriving Repr, Inhabited

namespace CodeScan

/-- Put the last stretch to the finished ones. -/
def closeSpan (s : Source) (c : CodeScan) : CodeScan :=
  match c.span with
  | none => c
  | some (start, stop) => ⟨s.slice start stop :: c.texts, none⟩

/-- Add a stretch; one that goes on without a gap is no new one. -/
def addSpan (s : Source) (c : CodeScan) (start stop : Nat) : CodeScan :=
  if stop ≤ start then c
  else
    match c.span with
    | none => { c with span := some (start, stop) }
    | some (first, last) =>
      if last = start then { c with span := some (first, stop) }
      else { c.closeSpan s with span := some (start, stop) }

/-- Add a line with columns left over from its margin; a carriage return before the line feed is
left out. -/
def addLine (s : Source) (c : CodeScan) (columns start stop : Nat) : CodeScan :=
  let c :=
    if columns > 0 then
      let c := c.closeSpan s
      { c with texts := List.replicate columns ' ' :: c.texts }
    else c
  if s.isAt (stop - 2) '\r' && stop ≥ 2 then (c.addSpan s start (stop - 2)).addSpan s (stop - 1) stop
  else c.addSpan s start stop

/-- The stretches of code in order. -/
def finish (s : Source) (c : CodeScan) : List (List Char) := (c.closeSpan s).texts.reverse

end CodeScan

/-- Read the lines of fenced code up to the closing fence or the end of the containers. -/
def fencedFrom (s : Source) (path : List Container) (f : Fence) (indent : Nat) :
    Nat → CodeScan → Nat → CodeScan × Nat
  | 0, c, i => (c, i)
  | fuel + 1, c, i =>
    let (inside, m) := Margin.ofLine s path i
    if !inside then (c, i)
    else
      let (_, m) := m.use s indent
      let (deep, close) := m.use s 4
      let closing := if deep then none else closingFence? s f close.place
      match closing with
      | some behind => (c, behind)
      | none =>
        let next := s.nextLine m.place
        fencedFrom s path f indent fuel (c.addLine s m.left m.place next) next

/-- Read a fenced block of code. -/
def readFenced (s : Source) (r : Reader) (f : Fence) (indent i : Nat) : Reader × Nat :=
  let first := s.nextLine (s.skipBlanks (i + f.length))
  let (c, stop) := fencedFrom s r.path f indent (s.stop + 1 - i) ⟨[], none⟩ first
  (r.add (.code (c.finish s)), (s.blankLine? stop).getD stop)

/-- Read the lines of indented code: the code up to the last line that is not blank, the place
behind all lines, and whether the last one was blank. -/
def indentedFrom (s : Source) (path : List Container) :
    Nat → CodeScan → CodeScan → Bool → Nat → Nat → CodeScan × Nat × Bool
  | 0, _, kept, blank, _, i => (kept, i, blank)
  | fuel + 1, c, kept, blank, columns, i =>
    let behind := s.nextLine i
    let c := c.addLine s columns i behind
    let kept := if blank then kept else c
    let (inside, m) := Margin.ofLine s path behind
    let (deep, m) := m.use s 4
    if !inside || !(deep || m.isAtEnd s) || s.isEnd m.place then (kept, behind, blank)
    else
      indentedFrom s path fuel c kept (s.blankLine? m.place).isSome m.left m.place

/-- Read an indented block of code. -/
def readIndented (s : Source) (r : Reader) (m : Margin) : Reader × Nat :=
  let (c, stop, blank) :=
    indentedFrom s r.path (s.stop + 1 - m.place) ⟨[], none⟩ ⟨[], none⟩ false m.left m.place
  ({ r.add (.code (c.finish s)) with blank }, stop)

/-! ## HTML -/

/-- The parts of one line of an HTML block. -/
def htmlLine (s : Source) (columns start stop : Nat) : List HtmlPart :=
  let indent := if columns > 0 then [HtmlPart.indent (List.replicate columns ' ')] else []
  if s.isAt (stop - 2) '\r' && stop ≥ 2 then
    indent ++ [HtmlPart.html (s.slice start (stop - 2)), HtmlPart.html (s.slice (stop - 1) stop)]
  else indent ++ [HtmlPart.html (s.slice start stop)]

/-- Whether a text is in a line. -/
def lineHas (s : Source) (start stop : Nat) (text : List Char) : Bool :=
  (findBehind? (s.upTo stop) text start).isSome

/-- Read the lines of an HTML block that ends with a text, or else at a blank line. -/
def htmlFrom (s : Source) (path : List Container) (ending : Option (List Char)) :
    Nat → List HtmlPart → Nat → Nat → List HtmlPart × Nat
  | 0, parts, _, i => (parts, i)
  | fuel + 1, parts, columns, i =>
    let behind := s.nextLine i
    let parts := parts ++ htmlLine s columns i behind
    let (inside, m) := Margin.ofLine s path behind
    if !inside then (parts, behind)
    else
      match ending with
      | some text =>
        if lineHas s i behind text || s.isEnd m.place then (parts, behind)
        else htmlFrom s path ending fuel parts m.left m.place
      | none =>
        if m.isAtEnd s || s.isEnd m.place || (s.blankLine? m.place).isSome then (parts, behind)
        else htmlFrom s path ending fuel parts m.left m.place

/-- Read an HTML block. -/
def readHtml (s : Source) (r : Reader) (ending : Option (List Char)) (columns i : Nat) :
    Reader × Nat :=
  let (parts, stop) := htmlFrom s r.path ending (s.stop + 1 - i) [] columns i
  (r.add (.html parts), stop)

/-- The kind of HTML block that starts at a place: none if there is none, otherwise how it ends. -/
def htmlStart? (s : Source) (i : Nat) : Option (Option (List Char)) :=
  if s.isAt i '<' then
    match htmlBlockEnd? s (i + 1) with
    | some ending => some (some ending)
    | none => if isBlockElement s (i + 1) || isLoneTag s i then some none else none
  else none

/-! ## Headings, tables and paragraphs -/

/-- Where the text of a heading ends, without number signs at its end. -/
def headingEnd (s : Source) (start stop : Nat) : Nat :=
  let limit := s.skipBack (fun c => c = ' ' || isLineEnd c) start stop
  let closer := s.skipBack (· = '#') start limit
  if closer = start then start
  else
    let text := s.skipBack (· = ' ') start closer
    if text < closer then text else limit

/-- Move the end of the last piece. -/
def trimPieces (pieces : List Piece) (stop : Nat) : List Piece :=
  match pieces with
  | [] => []
  | p :: rest => { p with stop } :: rest

/-- Read a heading that starts with number signs. -/
def readHeading (s : Source) (r : Reader) (level i : Nat) : Reader × Nat :=
  match s.lineEnd? (i + level) with
  | some behind => (r.add (.heading level ⟨[], behind⟩), behind)
  | none =>
    let start := s.skipBlanks (i + level)
    let (pieces, stop, _) := scanLine s r.path .plain [] start
    let limit := headingEnd s start stop
    let pieces := if limit = start then pieces.tail else trimPieces pieces limit
    (r.add (.heading level ⟨pieces.reverse, stop⟩), stop)

/-- Read the cells of a row of a table; `cells` has those so far in reverse. -/
def cellsFrom (s : Source) (path : List Container) :
    Nat → List Leaf → Nat → List Leaf × Nat
  | 0, cells, i => (cells.reverse, i)
  | fuel + 1, cells, i =>
    let start := s.skipBlanks (if s.isAt i '|' then i + 1 else i)
    match s.lineEnd? start with
    | some behind => (cells.reverse, behind)
    | none =>
      let (pieces, stop, _) := scanLine s path .cell [] start
      cellsFrom s path fuel (⟨pieces.reverse, stop⟩ :: cells) stop

/-- Read a row of a table: exactly as many cells as there are columns. -/
def readRow (s : Source) (path : List Container) (columns i : Nat) : List Leaf × Nat :=
  let (cells, stop) := cellsFrom s path (s.stop + 1 - i) [] i
  ((cells ++ List.replicate (columns - cells.length) (⟨[], stop⟩ : Leaf)).take columns, stop)

/-- Read the rows of a table below its head. -/
def rowsFrom (s : Source) (path : List Container) (columns : Nat) :
    Nat → Nat → List (List Leaf) × Nat
  | 0, i => ([], i)
  | fuel + 1, i =>
    let (inside, m) := Margin.ofLine s path i
    let m := m.useAll s
    if !inside || startsBlock s inside m.place then ([], i)
    else
      let (row, next) := readRow s path columns m.place
      let (rows, stop) := rowsFrom s path columns fuel next
      (row :: rows, stop)

/-- Read a table whose head starts at a place and whose rows start at another. -/
def readTable (s : Source) (r : Reader) (columns head body : Nat) : Reader × Nat :=
  let (row, _) := readRow s r.path columns head
  let (rows, stop) := rowsFrom s r.path columns (s.stop + 1 - body) body
  (r.add (.table row rows), stop)

/-- The backslash of a hard break belongs to the text when the text ends there. -/
def keepBackslash (s : Source) (pieces : List Piece) (ending : LineBreak) : List Piece :=
  match ending with
  | .hard p => if s.isAt p.start '\\' then addText pieces p.start (p.start + 1) else pieces
  | _ => pieces

/-- Put the break between two lines behind the pieces of the first one. -/
def addBreak (pieces : List Piece) : LineBreak → List Piece
  | .soft p => p :: pieces
  | .hard p => p :: pieces
  | _ => pieces

/-- Take blanks off the end of the last piece. -/
def trimHeading (s : Source) (start : Nat) : List Piece → List Piece
  | [] => []
  | p :: rest => { p with stop := s.skipBack isInlineBlank start p.stop } :: rest

/-- The pieces of an underlined heading: the backslash of a hard break stays, blanks do not. -/
def headingPieces (s : Source) (start : Nat) (pieces : List Piece) (ending : LineBreak) :
    List Piece :=
  match ending with
  | .hard p =>
    if s.isAt p.start '\\' then keepBackslash s pieces ending else trimHeading s start pieces
  | _ => trimHeading s start pieces

/-- Read the lines of a paragraph, a heading that is underlined, or a table. -/
def paragraphFrom (s : Source) (r : Reader) (start : Nat) :
    Nat → List Piece → Nat → Reader × Nat
  | 0, pieces, i => (r.add (.paragraph ⟨pieces.reverse, i⟩), i)
  | fuel + 1, pieces, i =>
    let mode : LineMode := if i = start then .mayBeTable else .plain
    let (pieces, next, ending) := scanLine s r.path mode pieces i
    match ending with
    | .table columns => readTable s r columns i next
    | _ =>
      let (inside, m) := Margin.ofLine s r.path next
      let (deep, m) := m.use s 4
      let finish : Reader × Nat :=
        (r.add (.paragraph ⟨(keepBackslash s pieces ending).reverse, next⟩), next)
      let heading : Option (Nat × Nat) :=
        if !deep && inside then underline? s m.place else none
      match heading with
      | some (level, behind) =>
        (r.add (.heading level ⟨(headingPieces s start pieces ending).reverse, behind⟩), behind)
      | none =>
        if !deep && interrupts s r.path inside m.place then finish
        else
          let m := m.useAll s
          if m.isAtEnd s then finish
          else paragraphFrom s r start fuel (addBreak pieces ending) m.place

/-- Read what a line holds behind its margin. -/
def readLeaf (s : Source) (r : Reader) (m : Margin) : Reader × Nat :=
  let columns := m.left
  let (indent, m) := m.useUpTo s 4
  if indent ≥ 4 then readIndented s r m
  else
    let i := m.place
    match htmlStart? s i with
    | some ending => readHtml s r ending (max columns indent) i
    | none =>
      match rule? s i with
      | some behind => (r.add .rule, behind)
      | none =>
        match headingLevel? s i with
        | some level => readHeading s r level i
        | none =>
          match definition? s r.path i with
          | some (label, behind) =>
            ({ r with labels := label :: r.labels }, (s.blankLine? behind).getD behind)
          | none =>
            match fence? s i with
            | some f => readFenced s r f indent i
            | none => paragraphFrom s r i (s.stop + 1 - i) [] i

/-- Read the block that starts in the line at a place. -/
def readBlock (s : Source) (r : Reader) (i : Nat) : Reader × Nat :=
  let (n, m) := Reader.continuing s (r.frames.reverse.map (·.1)) (Margin.start i)
  let r := Reader.popTo n r.frames.length r
  let opened := Reader.openContainers s (s.stop + 1 - i) r m
  match opened.next with
  | some next => (opened.reader, next)
  | none =>
    match s.blankLine? opened.margin.place with
    | some next => (opened.reader.noteBlank, next)
    | none => readLeaf s opened.reader.finishList opened.margin

/-- Read blocks to the end of the source. -/
def readBlocks (s : Source) : Nat → Reader → Nat → Reader
  | 0, r, _ => r
  | fuel + 1, r, i =>
    if s.isEnd i then r
    else
      let (r, next) := readBlock s r i
      readBlocks s fuel r next

/-- The blocks of a source, and the labels that have definitions. -/
def readDocument (s : Source) : List Block × List (List Char) :=
  let r := readBlocks s (s.stop + 1) Reader.start 0
  let r := Reader.popTo 0 r.frames.length r
  (r.done.reverse, r.labels)

end PublisherConsole.Markdown
