import PublisherConsole.Markdown.Piece

/-!
# Blocks

A document is a list of blocks. Paragraphs, headings and cells keep their text as pieces; the
meaning of the pieces is settled later, when all definitions of links are known.
-/

namespace PublisherConsole.Markdown

/-- The text of a paragraph, a heading or a cell: its pieces, and the place behind the text. -/
structure Leaf where
  pieces : List Piece
  stop : Nat
  deriving Repr, Inhabited

/-- A part of a line of an HTML block. -/
inductive HtmlPart
  | html (chars : List Char)
  /-- Columns that are left over from a tab or from the indentation. -/
  | indent (chars : List Char)
  deriving Repr, Inhabited

/-- A block of a document. -/
inductive Block
  | paragraph (leaf : Leaf)
  | heading (level : Nat) (leaf : Leaf)
  | rule
  /-- A block of code, in the stretches in which it was read. -/
  | code (texts : List (List Char))
  | html (parts : List HtmlPart)
  | quote (blocks : List Block)
  /-- A list; if it is tight, the paragraphs of its items are not set apart. -/
  | list (tight : Bool) (sign : Char) (number : Nat) (items : List Block)
  | item (indent : Nat) (blocks : List Block)
  /-- The box of a task at the start of an item. -/
  | task (checked : Bool)
  | table (head : List Leaf) (rows : List (List Leaf))
  deriving Repr, Inhabited

end PublisherConsole.Markdown
