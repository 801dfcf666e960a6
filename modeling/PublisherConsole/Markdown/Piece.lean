import PublisherConsole.Markdown.Link
import PublisherConsole.Unicode.Punctuation

/-!
# The pieces of a line

A line of a paragraph is first cut into pieces: stretches of text, and signs that may turn out to
have a meaning once the whole paragraph is known. `scanLine` cuts one line, or one cell of a row of
a table.
-/

namespace PublisherConsole.Markdown

/-- What a piece may be. -/
inductive PieceKind
  | text
  /-- A run of signs of emphasis, which may open or close a stretch of emphasis. -/
  | run (canOpen canClose : Bool)
  /-- A run of backticks; `escaped` says that a backslash stands in front of it. -/
  | ticks (escaped : Bool)
  /-- The `<` of HTML or of an address. -/
  | angle
  | linkOpen
  | imageOpen
  /-- A closing bracket; `fresh` says that it may still end a reference. -/
  | linkClose (fresh : Bool)
  | entity (chars : List Char)
  | softBreak
  | hardBreak
  deriving DecidableEq, Repr, Inhabited

/-- A piece of a line. -/
structure Piece where
  start : Nat
  stop : Nat
  kind : PieceKind
  deriving DecidableEq, Repr, Inhabited

/-- Whether a piece is text. -/
def Piece.isText (p : Piece) : Bool := p.kind = .text

/-- Add text behind pieces in reverse; text that goes on without a gap is one piece. -/
def addText (pieces : List Piece) (start stop : Nat) : List Piece :=
  if stop > start then
    match pieces with
    | p :: rest =>
      if p.isText && p.stop = start then { p with stop } :: rest
      else ⟨start, stop, .text⟩ :: pieces
    | [] => [⟨start, stop, .text⟩]
  else pieces

/-- What a line is read for. -/
inductive LineMode
  /-- A line of text that may be the head of a table. -/
  | mayBeTable
  | plain
  /-- A cell of a table, which ends at a bar. -/
  | cell
  deriving DecidableEq, Repr, Inhabited

/-- Whether a bar that is not escaped stands in front of a place. -/
def isBehindBar (s : Source) (i : Nat) : Bool :=
  i > 0 && s.isAt (i - 1) '|' && !(i > 1 && s.isAt (i - 2) '\\')

/-- Whether a run of `count` signs of emphasis at a place may open emphasis. -/
def canOpen (s : Source) (mode : LineMode) (sign : Char) (count i : Nat) : Bool :=
  match s.char? (i + count) with
  | none => false
  | some next =>
    if Unicode.isBlank next then false
    else
      match if i = 0 then none else s.char? (i - 1) with
      | none => true
      | some before =>
        if mode = .cell && isBehindBar s i then true
        else if mode = .cell && next = '|' then false
        else if sign = '*' && !Unicode.isPunctuation next then true
        else if sign = '~' && count > 1 then true
        else if sign = '~' && before = '~' && !Unicode.isPunctuation next then true
        else Unicode.isBlank before || Unicode.isPunctuation before

/-- Whether a run of `count` signs of emphasis at a place may close emphasis. -/
def canClose (s : Source) (mode : LineMode) (sign : Char) (count i : Nat) : Bool :=
  match if i = 0 then none else s.char? (i - 1) with
  | none => false
  | some before =>
    if Unicode.isBlank before then false
    else
      match s.char? (i + count) with
      | none => true
      | some next =>
        if mode = .cell && isBehindBar s i then false
        else if mode = .cell && next = '|' then true
        else if (sign = '*' || (sign = '~' && count > 1)) && !Unicode.isPunctuation before then true
        else if sign = '~' && before = '~' then true
        else Unicode.isBlank next || Unicode.isPunctuation next

/-- The alignments in the row below the head of a table are not shown; only their number counts.
`sawDash` and `sawBar` tell what was seen of the row, `dashed` what was seen of the column. -/
def delimiterColumns (s : Source) : Nat → Nat → Nat → Bool → Bool → Bool → Bool → Option (Nat × Nat)
  | 0, _, _, _, _, _, _ => none
  | fuel + 1, i, columns, fresh, dashed, sawDash, sawBar =>
    match s.lineEnd? i with
    | some behind =>
      if sawBar && sawDash then some (if fresh then columns else columns + 1, behind) else none
    | none =>
      match s.char? i with
      | some ' ' => delimiterColumns s fuel (i + 1) columns fresh dashed sawDash sawBar
      | some ':' => delimiterColumns s fuel (i + 1) columns false dashed sawDash sawBar
      | some '-' => delimiterColumns s fuel (i + 1) columns false true true sawBar
      | some '|' =>
        if dashed then delimiterColumns s fuel (i + 1) (columns + 1) true false sawDash true
        else none
      | _ => none

/-- The number of columns that the row below the head of a table has, and the place behind it. -/
def delimiterRow? (s : Source) (i : Nat) : Option (Nat × Nat) :=
  let (columns, m) := (Margin.start i).useUpTo s 4
  if columns ≥ 4 || s.isEnd m.place then none
  else
    let bar := s.isAt m.place '|'
    delimiterColumns s (s.stop + 1 - m.place) (if bar then m.place + 1 else m.place) 0 true false
      false bar

/-- The number of columns of the head of a table that starts at a place, has `bars` bars that are
not escaped and the last one of them at `lastBar`. -/
def headColumns (s : Source) (bars start lastBar : Nat) : Nat :=
  let inner := if s.isAt (s.skipBlanks start) '|' then bars - 1 else bars
  if (s.blankLine? (lastBar + 1)).isSome then inner else inner + 1

/-- How a line ends. -/
inductive LineBreak
  | none
  | soft (p : Piece)
  | hard (p : Piece)
  /-- The line is the head of a table with so many columns. -/
  | table (columns : Nat)
  deriving Repr, Inhabited

/-- What was read of a line: the pieces in reverse, the place where the next text starts, and the
bars. -/
structure LineScan where
  pieces : List Piece
  textStart : Nat
  bars : Nat
  lastBar : Nat
  deriving Repr, Inhabited

namespace LineScan

/-- Put a sign behind the text in front of it. -/
def sign (l : LineScan) (i stop : Nat) (kind : PieceKind) : LineScan :=
  { l with pieces := ⟨i, stop, kind⟩ :: addText l.pieces l.textStart i, textStart := stop }

/-- End the line at a place without a break. -/
def close (s : Source) (l : LineScan) (i : Nat) : List Piece :=
  addText l.pieces l.textStart (s.skipBack isInlineBlank l.textStart i)

/-- The columns of the table whose head is the line, if it is one. -/
def table? (s : Source) (path : List Container) (l : LineScan) (start behind : Nat) :
    Option (Nat × Nat) :=
  let (continues, m) := Margin.ofLine s path behind
  if l.bars > 0 && continues then
    match delimiterRow? s m.place with
    | none => none
    | some (columns, stop) =>
      if columns = headColumns s l.bars start l.lastBar then some (columns, stop) else none
  else none

/-- End the line at its line end: with a hard break behind a backslash or two blanks, as the head
of a table, or with a soft break. -/
def finish (s : Source) (path : List Container) (mode : LineMode) (l : LineScan)
    (start i behind : Nat) : List Piece × Nat × LineBreak :=
  let slashes := i - s.skipBack (· = '\\') 0 i
  if slashes % 2 = 1 && !s.isEnd behind then
    (addText l.pieces l.textStart (i - 1), behind, .hard ⟨i - 1, behind, .hardBreak⟩)
  else
    let table := if mode = .mayBeTable then l.table? s path start behind else none
    match table with
    | some (columns, stop) => (l.pieces, stop, .table columns)
    | none =>
      let textStop := s.skipBack isInlineBlank 0 i
      if i - textStop ≥ 2 then
        (addText l.pieces l.textStart textStop, behind, .hard ⟨textStop, behind, .hardBreak⟩)
      else (addText l.pieces l.textStart textStop, behind, .soft ⟨i, behind, .softBreak⟩)

/-- Read a backslash. In front of punctuation it is dropped; in front of backticks it is kept in
mind, since it may stand in code. -/
def backslash (s : Source) (mode : LineMode) (l : LineScan) (i : Nat) : LineScan × Nat :=
  match s.char? (i + 1) with
  | none => (l, i + 1)
  | some c =>
    if isBasicPunctuation c then
      if c = '`' then
        let stop := s.skipRun '`' (i + 1)
        ({ l with
            pieces := ⟨i + 1, stop, .ticks true⟩ :: addText l.pieces l.textStart i
            textStart := stop }, stop)
      else
        let next :=
          if mode = .cell && c = '\\' && s.isAt (i + 2) '|' then i + 2 else i + 1
        ({ l with pieces := addText l.pieces l.textStart i, textStart := next }, next + 1)
    else (l, i + 1)

end LineScan

/-- Read a line from a place on; `start` is where it starts. -/
def scanFrom (s : Source) (path : List Container) (mode : LineMode) (start : Nat) :
    Nat → LineScan → Nat → List Piece × Nat × LineBreak
  | 0, l, i => (l.close s i, i, .none)
  | fuel + 1, l, i =>
    match s.char? i with
    | none => (l.close s i, i, .none)
    | some c =>
      if isLineEnd c then
        if mode = .cell then (l.close s i, i, .none)
        else l.finish s path mode start i ((s.lineEnd? i).getD (i + 1))
      else if c = '\\' then
        let (l, next) := l.backslash s mode i
        scanFrom s path mode start fuel l next
      else if c = '*' || c = '_' || c = '~' then
        let stop := s.skipRun c i
        let count := stop - i
        let opens := canOpen s mode c count i
        let closes := canClose s mode c count i
        if (opens || closes) && (c ≠ '~' || count ≤ 2) then
          scanFrom s path mode start fuel (l.sign i stop (.run opens closes)) stop
        else scanFrom s path mode start fuel l stop
      else if c = '`' then
        let stop := s.skipRun '`' i
        scanFrom s path mode start fuel (l.sign i stop (.ticks false)) stop
      else if c = '<' && !s.isAt (i + 1) '\\' then
        scanFrom s path mode start fuel (l.sign i (i + 1) .angle) (i + 1)
      else if c = '!' && s.isAt (i + 1) '[' then
        scanFrom s path mode start fuel (l.sign i (i + 2) .imageOpen) (i + 2)
      else if c = '[' then
        scanFrom s path mode start fuel (l.sign i (i + 1) .linkOpen) (i + 1)
      else if c = ']' then
        scanFrom s path mode start fuel (l.sign i (i + 1) (.linkClose true)) (i + 1)
      else if c = '&' then
        match entity? s i with
        | some (cs, stop) => scanFrom s path mode start fuel (l.sign i stop (.entity cs)) stop
        | none => scanFrom s path mode start fuel l (i + 1)
      else if c = '|' then
        if mode = .cell then (l.close s i, i, .none)
        else scanFrom s path mode start fuel { l with bars := l.bars + 1, lastBar := i } (i + 1)
      else scanFrom s path mode start fuel l (i + 1)

/-- Read the line that starts at a place, behind the pieces of earlier lines in reverse: all pieces
in reverse, the place behind the line, and how it ends. -/
def scanLine (s : Source) (path : List Container) (mode : LineMode) (pieces : List Piece)
    (start : Nat) : List Piece × Nat × LineBreak :=
  scanFrom s path mode start (s.stop + 1 - start) ⟨pieces, start, 0, start⟩ start

end PublisherConsole.Markdown
