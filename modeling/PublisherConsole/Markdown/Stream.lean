import PublisherConsole.Markdown.Document
import PublisherConsole.Markdown.Inline

/-!
# From blocks to events

The blocks of a document are put in a row as events. Inline structure is settled on the way, since
it needs the labels of all definitions and the containers around each paragraph. In a tight list
the paragraphs of the items have no events of their own.
-/

namespace PublisherConsole.Markdown

mutual

/-- The events of an element. -/
def inlineEvents : Inline → List Event
  | .text cs => [.text (String.ofList cs)]
  | .code cs => [.code (String.ofList cs)]
  | .html cs => [.inlineHtml (String.ofList cs)]
  | .softBreak => [.softBreak]
  | .hardBreak => [.hardBreak]
  | .run sign count _ _ => List.replicate count (.text (String.ofList [sign]))
  | .element tag content => .start tag :: inlinesEvents content ++ [.stop tag]

/-- The events of a row of elements. -/
def inlinesEvents : List Inline → List Event
  | [] => []
  | e :: es => inlineEvents e ++ inlinesEvents es

end

/-- What the events of a block depend on. -/
structure StreamContext where
  source : Source
  labels : List (List Char)
  /-- The containers around the block, from the outermost in. -/
  path : List Container
  /-- Whether the block is in an item of a tight list. -/
  tight : Bool

namespace StreamContext

/-- The events of the text of a leaf. -/
def leaf (c : StreamContext) (inTable : Bool) (l : Leaf) : List Event :=
  inlinesEvents (settle ⟨c.source.upTo l.stop, c.path, inTable, c.labels⟩ l.pieces)

/-- The events of a row of a table. -/
def row (c : StreamContext) (cells : List Leaf) : List Event :=
  cells.flatMap fun l => .start .tableCell :: c.leaf true l ++ [.stop .tableCell]

/-- The events of a table. -/
def table (c : StreamContext) (head : List Leaf) (rows : List (List Leaf)) : List Event :=
  .start .table :: .start .tableHead :: c.row head ++ [.stop .tableHead]
    ++ rows.flatMap (fun r => .start .tableRow :: c.row r ++ [.stop .tableRow])
    ++ [.stop .table]

end StreamContext

/-- The event of a part of an HTML line. -/
def HtmlPart.event : HtmlPart → Event
  | .html cs => .html (String.ofList cs)
  | .indent cs => .text (String.ofList cs)

mutual

/-- The events of a block. -/
def blockEvents (c : StreamContext) : Block → List Event
  | .paragraph l =>
    if c.tight then c.leaf false l
    else .start .paragraph :: c.leaf false l ++ [.stop .paragraph]
  | .heading level l => .start (.heading level) :: c.leaf false l ++ [.stop (.heading level)]
  | .rule => [.rule]
  | .code texts =>
    .start .codeBlock :: texts.map (fun cs => .text (String.ofList cs)) ++ [.stop .codeBlock]
  | .html parts => .start .htmlBlock :: parts.map HtmlPart.event ++ [.stop .htmlBlock]
  | .quote blocks =>
    .start .quote :: blocksEvents { c with path := c.path ++ [.quote], tight := false } blocks
      ++ [.stop .quote]
  | .list tight sign number items =>
    let tag : Tag := .list (if isOrderedSign sign then some number else none)
    .start tag :: blocksEvents { c with tight } items ++ [.stop tag]
  | .item indent blocks =>
    .start .item :: blocksEvents { c with path := c.path ++ [.item indent] } blocks
      ++ [.stop .item]
  | .task checked => [.task checked]
  | .table head rows => c.table head rows

/-- The events of a row of blocks. -/
def blocksEvents (c : StreamContext) : List Block → List Event
  | [] => []
  | b :: bs => blockEvents c b ++ blocksEvents c bs

end

/-- The events of a text. -/
def events (text : String) : List Event :=
  let source := Source.ofText text
  let (blocks, labels) := readDocument source
  blocksEvents ⟨source, labels, [], false⟩ blocks

end PublisherConsole.Markdown
