import PublisherConsole.Markdown.Source

/-!
# HTML in Markdown

A line that starts with certain HTML begins an HTML block. Some kinds end with a line that has a
closing text, the others at a blank line. Inside of a paragraph, tags, comments, declarations and
instructions are taken over as they are. A tag in a paragraph may go on over several lines; the
margins of its later lines do not belong to it and are cut out.
-/

namespace PublisherConsole.Markdown

/-- A character of the basic alphabet in lower case. -/
def lowerBasic (c : Char) : Char :=
  if 'A' ≤ c && c ≤ 'Z' then Char.ofNat (c.toNat + 32) else c

/-- Whether a name stands at a place, in any case. -/
def hasNameAt (s : Source) (i : Nat) (name : List Char) : Bool :=
  (s.slice i (i + name.length)).map lowerBasic = name

/-- The elements that begin an HTML block which goes on over blank lines. -/
def rawElements : List (List Char) :=
  ["pre".toList, "style".toList, "script".toList, "textarea".toList]

/-- The elements that begin an HTML block up to a blank line, wherever they stand. -/
def blockElements : List (List Char) :=
  [ "address".toList, "article".toList, "aside".toList, "base".toList, "basefont".toList
  , "blockquote".toList, "body".toList, "caption".toList, "center".toList, "col".toList
  , "colgroup".toList, "dd".toList, "details".toList, "dialog".toList, "dir".toList
  , "div".toList, "dl".toList, "dt".toList, "fieldset".toList, "figcaption".toList
  , "figure".toList, "footer".toList, "form".toList, "frame".toList, "frameset".toList
  , "h1".toList, "h2".toList, "h3".toList, "h4".toList, "h5".toList, "h6".toList, "head".toList
  , "header".toList, "hr".toList, "html".toList, "iframe".toList, "legend".toList, "li".toList
  , "link".toList, "main".toList, "menu".toList, "menuitem".toList, "nav".toList
  , "noframes".toList, "ol".toList, "optgroup".toList, "option".toList, "p".toList
  , "param".toList, "search".toList, "section".toList, "summary".toList, "table".toList
  , "tbody".toList, "td".toList, "tfoot".toList, "th".toList, "thead".toList, "title".toList
  , "tr".toList, "track".toList, "ul".toList ]

/-- The text that ends the HTML block which begins in front of a place, if it ends with a text. -/
def htmlBlockEnd? (s : Source) (i : Nat) : Option (List Char) :=
  let raw := rawElements.find? fun name =>
    hasNameAt s i name &&
      match s.char? (i + name.length) with
      | none => true
      | some c => isAnyBlank c || c = '>'
  match raw with
  | some name => some ('<' :: '/' :: name ++ ['>'])
  | none =>
    if s.startsWith i ['!', '-', '-'] then some ['-', '-', '>']
    else if s.isAt i '?' then some ['?', '>']
    else if s.startsWith i "![CDATA[".toList then some [']', ']', '>']
    else if s.isAt i '!' && (s.char? (i + 1)).any Char.isAlpha then some ['>']
    else none

/-- Whether one of the block elements begins or ends in front of a place. -/
def isBlockElement (s : Source) (i : Nat) : Bool :=
  let start := if s.isAt i '/' then i + 1 else i
  let stop := s.skip isBasicAlphanumeric start
  let name := (s.slice start stop).map lowerBasic
  blockElements.contains name &&
    match s.char? stop with
    | none => true
    | some c =>
      c = ' ' || c = '\t' || isLineEnd c || c = '>' || (c = '/' && s.isAt (stop + 1) '>')

/-- How far a tag was read, and what was cut out of it: the margins of its later lines. -/
structure TagScan where
  place : Nat
  cuts : List (Nat × Nat)
  deriving Repr, Inhabited

namespace TagScan

/-- Go on behind a line end; `margin` gives the place behind the margin of a line, and none stands
for a tag that has to end on its line. -/
def nextLine? (margin : Option (Nat → Nat)) (t : TagScan) (behind : Nat) : Option TagScan :=
  margin.map fun skip =>
    let place := skip behind
    if place > behind then ⟨place, t.cuts ++ [(behind, place)]⟩ else ⟨place, t.cuts⟩

/-- Skip blanks and line ends. -/
def blanks? (s : Source) (margin : Option (Nat → Nat)) : Nat → TagScan → Option TagScan
  | 0, t => some t
  | fuel + 1, t =>
    match s.char? t.place with
    | none => some t
    | some c =>
      if isLineEnd c then
        match s.lineEnd? t.place with
        | none => some t
        | some behind => (t.nextLine? margin behind).bind (blanks? s margin fuel)
      else if isInlineBlank c then blanks? s margin fuel { t with place := t.place + 1 }
      else some t

/-- Read a quoted value up to its quotation mark. -/
def quoted? (s : Source) (margin : Option (Nat → Nat)) (mark : Char) : Nat → TagScan → Option TagScan
  | 0, _ => none
  | fuel + 1, t =>
    match s.char? t.place with
    | none => none
    | some c =>
      if c = mark then some { t with place := t.place + 1 }
      else if isLineEnd c then
        match s.lineEnd? t.place with
        | none => none
        | some behind => (t.nextLine? margin behind).bind (quoted? s margin mark fuel)
      else quoted? s margin mark fuel { t with place := t.place + 1 }

/-- Whether a value without quotation marks ends at a character. -/
def endsValue (c : Char) : Bool :=
  isAnyBlank c || c = '"' || c = '\'' || c = '=' || c = '<' || c = '>' || c = '`'

/-- Read the value of an attribute. -/
def value? (s : Source) (margin : Option (Nat → Nat)) (t : TagScan) : Option TagScan :=
  match s.char? t.place with
  | none => none
  | some c =>
    if c = '"' || c = '\'' then
      quoted? s margin c (s.stop - t.place) { t with place := t.place + 1 }
    else if c = ' ' || c = '=' || c = '>' || c = '<' || c = '`' || isLineEnd c then none
    else some { t with place := s.skip (fun c => !endsValue c) t.place }

/-- Whether an attribute may have the character in its name, at the start or behind it. -/
def isNameChar (first : Bool) (c : Char) : Bool :=
  c.isAlpha || c = '_' || c = ':' || (!first && (c.isDigit || c = '.' || c = '-'))

/-- Read an attribute: a name, and perhaps `=` and a value. -/
def attribute? (s : Source) (margin : Option (Nat → Nat)) (t : TagScan) : Option TagScan :=
  if (s.char? t.place).any (isNameChar true) then do
    let name : TagScan := { t with place := s.skip (isNameChar false) t.place }
    let sign ← name.blanks? s margin (s.stop - name.place)
    if s.isAt sign.place '=' then
      let sign : TagScan := { sign with place := sign.place + 1 }
      let start ← sign.blanks? s margin (s.stop - sign.place)
      start.value? s margin
    else some name
  else none

/-- Skip blanks and line ends between attributes; the end of the source is a fault. -/
def gap? (s : Source) (margin : Option (Nat → Nat)) : Nat → TagScan → Option TagScan
  | 0, t => some t
  | fuel + 1, t =>
    let place := s.skipBlanks t.place
    match s.char? place with
    | none => none
    | some c =>
      if isLineEnd c then
        match s.lineEnd? place with
        | none => none
        | some behind => ({ t with place }.nextLine? margin behind).bind (gap? s margin fuel)
      else some { t with place }

/-- Read the attributes of a tag, each with a gap in front of it. -/
def attributes? (s : Source) (margin : Option (Nat → Nat)) : Nat → TagScan → Option TagScan
  | 0, _ => none
  | fuel + 1, t => do
    let next ← t.gap? s margin (s.stop + 1 - t.place)
    if s.isAt next.place '/' || s.isAt next.place '>' then some next
    else if next.place = t.place then none
    else
      let behind ← next.attribute? s margin
      attributes? s margin fuel behind

end TagScan

/-- Read the tag whose `<` is at a place. -/
def tag? (s : Source) (margin : Option (Nat → Nat)) (i : Nat) : Option TagScan :=
  let closing := s.isAt (i + 1) '/'
  let start := if closing then i + 2 else i + 1
  if (s.char? start).any Char.isAlpha then do
    let behind := s.skip (fun c => isBasicAlphanumeric c || c = '-') start
    let t : TagScan := ⟨behind, []⟩
    let t ← if closing then some t else t.attributes? s margin (s.stop + 1 - behind)
    let place := s.skipBlanks t.place
    let place := if !closing && s.isAt place '/' then place + 1 else place
    if s.isAt place '>' then some { t with place := place + 1 } else none
  else none

/-- Whether a line has a complete tag at a place and nothing behind it. -/
def isLoneTag (s : Source) (i : Nat) : Bool :=
  match tag? s none i with
  | none => false
  | some t => (s.blankLine? t.place).isSome

/-- The place behind a text, at the first occurrence from a place on. -/
def behindText? (s : Source) (text : List Char) : Nat → Nat → Option Nat
  | 0, _ => none
  | fuel + 1, i =>
    if s.isEnd i then none
    else if s.startsWith i text then some (i + text.length)
    else behindText? s text fuel (i + 1)

/-- Find the place behind a text. -/
def findBehind? (s : Source) (text : List Char) (i : Nat) : Option Nat :=
  behindText? s text (s.stop - i) i

/-- The place behind a comment, a declaration or a stretch of character data, read from behind its
`<!`. -/
def markupDeclaration? (s : Source) (i : Nat) : Option Nat :=
  match s.char? i with
  | none => none
  | some c =>
    if c = '-' then if s.isAt (i + 1) '-' then findBehind? s ['-', '-', '>'] i else none
    else if c = '[' then
      if s.startsWith (i + 1) "CDATA[".toList then
        let start := s.find ']' (i + 7)
        let stop := s.skipRun ']' start
        if stop > start && s.isAt stop '>' then some (stop + 1) else none
      else none
    else if c.isAlpha then
      let name := s.skip Char.isAlpha (i + 1)
      let behind := s.skip isAnyBlank name
      if behind = name then none
      else
        let stop := s.find '>' behind
        if s.isAt stop '>' then some (stop + 1) else none
    else none

/-- Read the HTML whose `<` stands in front of a place. -/
def inlineHtml? (s : Source) (margin : Nat → Nat) (i : Nat) : Option TagScan :=
  match s.char? i with
  | none => none
  | some c =>
    if c = '!' then (markupDeclaration? s (i + 1)).map fun place => ⟨place, []⟩
    else if c = '?' then (findBehind? s ['?', '>'] (i + 1)).map fun place => ⟨place, []⟩
    else tag? s (some margin) (i - 1)

/-- The characters from a place to the end of what was read, without the cuts. -/
def TagScan.text (s : Source) (start : Nat) (t : TagScan) : List Char :=
  let step (acc : List Char × Nat) (cut : Nat × Nat) : List Char × Nat :=
    (acc.1 ++ s.slice acc.2 cut.1, cut.2)
  let (done, place) := t.cuts.foldl step ([], start)
  done ++ s.slice place t.place

/-- The place behind an address in angle brackets, read from behind its `<`: a scheme of two to
32 characters, a colon, and anything without blanks and brackets. -/
def uriEnd? (s : Source) (i : Nat) : Option Nat :=
  if (s.char? i).any Char.isAlpha then
    let colon := s.skip (fun c => isBasicAlphanumeric c || c = '.' || c = '-' || c = '+') i
    if s.isAt colon ':' && colon - i ≥ 2 && colon - i ≤ 32 then
      let stop := s.skip (fun c => ' ' < c && c ≠ '<' && c ≠ '>') (colon + 1)
      if s.isAt stop '>' then some (stop + 1) else none
    else none
  else none

/-- Whether the part of a mail address in front of the `@` may have a character. -/
def isMailChar (c : Char) : Bool :=
  isBasicAlphanumeric c || ".!#$%&'*+/=?^_`\x7b|\x7d~-".toList.contains c

/-- The place behind the parts of a host name. -/
def hostEnd? (s : Source) : Nat → Nat → Option Nat
  | 0, _ => none
  | fuel + 1, i =>
    let stop := s.skip (fun c => isBasicAlphanumeric c || c = '-') i
    if stop = i || s.isAt i '-' || s.isAt (stop - 1) '-' || stop - i > 63 then none
    else if s.isAt stop '.' then hostEnd? s fuel (stop + 1)
    else some stop

/-- The place behind a mail address in angle brackets, read from behind its `<`. -/
def mailEnd? (s : Source) (i : Nat) : Option Nat :=
  let sign := s.skip isMailChar i
  if sign > i && s.isAt sign '@' then
    match hostEnd? s (s.stop - sign) (sign + 1) with
    | none => none
    | some stop => if s.isAt stop '>' then some (stop + 1) else none
  else none

/-- The place behind an address in angle brackets. -/
def autolinkEnd? (s : Source) (i : Nat) : Option Nat := (uriEnd? s i).or (mailEnd? s i)

end PublisherConsole.Markdown
