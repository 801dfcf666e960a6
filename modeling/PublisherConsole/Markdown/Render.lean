import PublisherConsole.Markdown.Event
import PublisherConsole.Markdown.Styles
import PublisherConsole.Screen.Line

/-!
# Rendering Markdown

`renderEvents` folds the events of a document into styled lines. The renderer has the line at hand
and the lines behind it; `flush` ends the line at hand and `blank` sets blocks apart, never by more
than one blank line. What starts a line owes it a prefix: the bars of the quotes around it, and the
marker of an item that has none yet.

Lines are not wrapped here; the width counts for rules only. HTML is shown as it stands.
-/

namespace PublisherConsole.Markdown

open Screen (Style Span Line)

/-- The state of rendering. -/
structure Renderer where
  styles : Styles
  width : Nat
  lines : List Line := []
  /-- The line at hand. -/
  spans : List Span := []
  /-- The styles of the open elements, innermost last. -/
  styleStack : List Style := []
  /-- The open lists, innermost last, with the number of the next item if items have numbers. -/
  lists : List (Option Nat) := []
  /-- The marker of an item that no line has shown yet. -/
  marker : Option String := none
  inCode : Bool := false
  quotes : Nat := 0
  deriving Repr, Inhabited

namespace Renderer

/-- A text repeated. -/
def repeatText (n : Nat) (text : String) : String := String.join (List.replicate n text)

/-- Put a span on the line at hand. -/
def push (r : Renderer) (text : String) (style : Style) : Renderer :=
  { r with spans := r.spans ++ [⟨text, style⟩] }

/-- End the line at hand. -/
def flush (r : Renderer) : Renderer :=
  if r.spans.isEmpty then r else { r with lines := r.lines ++ [⟨r.spans⟩], spans := [] }

/-- Set what follows apart by a blank line. -/
def blank (r : Renderer) : Renderer :=
  match r.lines.getLast? with
  | some l => if l.isBlank then r else { r with lines := r.lines ++ [Line.blank] }
  | none => r

/-- Pay what the start of a line is owed. -/
def prepare (r : Renderer) : Renderer :=
  if r.spans.isEmpty then
    let r := if r.quotes > 0 then r.push (repeatText r.quotes "│ ") r.styles.quote else r
    match r.marker with
    | some marker => { r.push marker r.styles.listMarker with marker := none }
    | none => r
  else r

/-- The style of text inside of the open elements. -/
def style (r : Renderer) : Style :=
  r.styleStack.foldl Style.patch
    (if r.quotes > 0 then r.styles.text.patch r.styles.quote else r.styles.text)

/-- Open an element that has a style. -/
def enter (r : Renderer) (s : Style) : Renderer := { r with styleStack := r.styleStack ++ [s] }

/-- Close an element that has a style. -/
def leave (r : Renderer) : Renderer := { r with styleStack := r.styleStack.dropLast }

/-- Show a line of code. -/
def codeLine (r : Renderer) (line : String) : Renderer :=
  (r.prepare.push ("  " ++ line) r.styles.codeBlock).flush

/-- Show text. -/
def text (r : Renderer) (s : String) : Renderer :=
  if r.inCode then (Text.splitLines s).foldl codeLine r
  else
    let r := r.prepare
    r.push s r.style

/-- Show HTML; every line but the first starts a new line. -/
def html (r : Renderer) (s : String) : Renderer :=
  match Text.splitLines s with
  | [] => r
  | first :: rest =>
    rest.foldl (fun r part => r.flush.prepare.push part r.styles.html)
      (r.prepare.push first r.styles.html)

/-- The marker of the next item, and the lists with its number counted on. -/
def nextMarker (lists : List (Option Nat)) : String × List (Option Nat) :=
  let indent := repeatText (lists.length - 1) "  "
  match lists.getLast? with
  | some (some n) => (indent ++ toString n ++ ". ", lists.dropLast ++ [some (n + 1)])
  | _ => (indent ++ "• ", lists)

/-- Take the start of an element. -/
def start (r : Renderer) : Tag → Renderer
  | .heading level => r.flush.enter (r.styles.heading level)
  | .emphasis => r.enter r.styles.emphasis
  | .strong => r.enter r.styles.strong
  | .strikethrough => r.enter r.styles.strikethrough
  | .link => r.enter r.styles.link
  | .codeBlock => { r.flush with inCode := true }
  | .list number =>
    let r := r.flush
    { r with lists := r.lists ++ [number] }
  | .item =>
    let r := r.flush
    let (marker, lists) := nextMarker r.lists
    { r with lists, marker := some marker }
  | .quote =>
    let r := r.flush
    { r with quotes := r.quotes + 1 }
  | .tableCell => if r.spans.isEmpty then r else r.push " │ " r.styles.rule
  | _ => r

/-- Take the end of an element. -/
def stop (r : Renderer) : Tag → Renderer
  | .heading _ => r.flush.leave.blank
  | .emphasis | .strong | .strikethrough | .link => r.leave
  | .codeBlock => { r.flush with inCode := false }.blank
  | .list _ =>
    let r := r.flush
    let r := { r with lists := r.lists.dropLast }
    if r.lists.isEmpty then r.blank else r
  | .item | .tableHead | .tableRow => r.flush
  | .quote =>
    let r := r.flush
    let r := { r with quotes := r.quotes - 1 }
    if r.quotes = 0 then r.blank else r
  | .paragraph =>
    let r := r.flush
    if r.lists.isEmpty && r.quotes = 0 then r.blank else r
  | .table => r.blank
  | _ => r

/-- Draw a rule over the whole width, and three cells at least. -/
def rule (r : Renderer) : Renderer :=
  let r := r.flush
  { r with lines := r.lines ++ [Line.styled (repeatText (max r.width 3) "─") r.styles.rule] }.blank

/-- Take an event. -/
def handle (r : Renderer) : Event → Renderer
  | .start tag => r.start tag
  | .stop tag => r.stop tag
  | .text s => r.text s
  | .code s => r.prepare.push ("`" ++ s ++ "`") r.styles.code
  | .html s | .inlineHtml s => r.html s
  | .softBreak => r.text " "
  | .hardBreak => r.flush
  | .rule => r.rule
  | .task checked =>
    { r with marker := some (r.marker.getD "" ++ if checked then "[x] " else "[ ] ") }
  | .footnote name => r.text ("[^" ++ name ++ "]")

/-- End the last line and take off the blank lines at the end. -/
def finish (r : Renderer) : List Line := (r.flush.lines.reverse.dropWhile Line.isBlank).reverse

end Renderer

/-- The lines of a row of events. -/
def renderEvents (events : List Event) (width : Nat) (styles : Styles) : List Line :=
  (events.foldl Renderer.handle { styles, width }).finish

end PublisherConsole.Markdown
