/-!
# Events of a document

A document is handed on as a row of events in the order of the text. Every element has an event at
its start and one at its end, and what lies between them is its content.
-/

namespace PublisherConsole.Markdown

/-- An element of a document. -/
inductive Tag
  | paragraph
  | heading (level : Nat)
  | quote
  | codeBlock
  | htmlBlock
  /-- A list, with the number of its first item if its items have numbers. -/
  | list (number : Option Nat)
  | item
  | table
  | tableHead
  | tableRow
  | tableCell
  | emphasis
  | strong
  | strikethrough
  | link
  | image
  deriving DecidableEq, Repr, Inhabited

/-- An event of a document. -/
inductive Event
  | start (tag : Tag)
  | stop (tag : Tag)
  | text (text : String)
  | code (text : String)
  | html (text : String)
  | inlineHtml (text : String)
  | softBreak
  | hardBreak
  | rule
  | task (checked : Bool)
  | footnote (name : String)
  deriving DecidableEq, Repr, Inhabited

end PublisherConsole.Markdown
