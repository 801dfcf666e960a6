import Mathlib.Data.List.Induction
import PublisherConsole.Markdown.Render

/-!
# What the renderer puts down

The renderer puts its lines down mark by mark: a span, the end of the line at hand, or a blank line.
`Renderer.marks` are the marks of one event, and `blocks` those of a row of events, one block for
each. `renderEvents_eq_layOut` says that the lines are the marks laid out, and nothing else.

Marks say where a span comes from, which its text and style do not always tell.
-/

namespace PublisherConsole.Markdown

open Screen (Style Span Line)

/-- A step on the page. -/
inductive Mark
  /-- The bars of quotes. -/
  | bars (depth : Nat)
  /-- The marker of an item. -/
  | marker (text : String)
  | text (text : String) (style : Style)
  | code (text : String)
  /-- A line of a block of code. -/
  | codeLine (text : String)
  | html (text : String)
  /-- What separates two cells of a table. -/
  | divider
  | rule (width : Nat)
  /-- The end of the line at hand. -/
  | lineEnd
  /-- A blank line above the line at hand. -/
  | gap
  deriving DecidableEq, Repr

namespace Mark

/-- The text that a mark shows. -/
def shown : Mark → String
  | .bars depth => Renderer.repeatText depth "│ "
  | .marker s | .text s _ | .html s => s
  | .code s => "`" ++ s ++ "`"
  | .codeLine s => "  " ++ s
  | .divider => " │ "
  | .rule width => Renderer.repeatText (max width 3) "─"
  | .lineEnd | .gap => ""

/-- The marker that a mark is, if it is one. -/
def marker? : Mark → Option String
  | .marker s => some s
  | _ => none

/-- The style in which it is shown. -/
def style (styles : Styles) : Mark → Style
  | .bars _ => styles.quote
  | .marker _ => styles.listMarker
  | .text _ s => s
  | .code _ => styles.code
  | .codeLine _ => styles.codeBlock
  | .html _ => styles.html
  | .divider | .rule _ => styles.rule
  | .lineEnd | .gap => .plain

/-- The characters that a mark shows, each with its style. -/
def chars (styles : Styles) (m : Mark) : List (Char × Style) :=
  m.shown.toList.map fun c => (c, m.style styles)

end Mark

/-- The lines so far, and the spans of the line at hand. -/
structure Page where
  lines : List Line
  spans : List Span

namespace Page

/-- Put a mark on a page. -/
def put (styles : Styles) (p : Page) : Mark → Page
  | .lineEnd => ⟨p.lines ++ [⟨p.spans⟩], []⟩
  | .gap => ⟨p.lines ++ [.blank], p.spans⟩
  | m => ⟨p.lines, p.spans ++ [⟨m.shown, m.style styles⟩]⟩

/-- All lines, without the blank ones at the end. -/
def finish (p : Page) : List Line :=
  ((if p.spans.isEmpty then p.lines else p.lines ++ [⟨p.spans⟩]).reverse.dropWhile
    Line.isBlank).reverse

/-- The characters on a page, each with its style. -/
def chars (p : Page) : List (Char × Style) := p.lines.flatMap Line.chars ++ Line.chars ⟨p.spans⟩

end Page

/-- The lines that marks make on an empty page. -/
def layOut (styles : Styles) (ms : List Mark) : List Line :=
  (ms.foldl (Page.put styles) ⟨[], []⟩).finish

namespace Renderer

/-- The lines so far and the line at hand. -/
def page (r : Renderer) : Page := ⟨r.lines, r.spans⟩

/-! ### The marks of an event -/

/-- What the start of a line is owed. -/
def leadMarks (r : Renderer) : List Mark :=
  if r.spans.isEmpty then
    (if r.quotes > 0 then [.bars r.quotes] else []) ++ (r.marker.map Mark.marker).toList
  else []

/-- The end of the line at hand, if there is anything on it. -/
def endMarks (r : Renderer) : List Mark := if r.spans.isEmpty then [] else [.lineEnd]

/-- A blank line, if the last line is not blank. -/
def gapMarks (r : Renderer) : List Mark :=
  match r.lines.getLast? with
  | some l => if l.isBlank then [] else [.gap]
  | none => []

/-- Lines of code. -/
def codeMarks (r : Renderer) : List String → List Mark
  | [] => []
  | line :: rest => r.leadMarks ++ .codeLine line :: .lineEnd :: (r.codeLine line).codeMarks rest

def textMarks (r : Renderer) (s : String) : List Mark :=
  if r.inCode then r.codeMarks (Text.splitLines s) else r.leadMarks ++ [.text s r.style]

/-- A part of HTML on a line of its own. -/
def htmlLine (r : Renderer) (part : String) : Renderer := r.flush.prepare.push part r.styles.html

/-- Parts of HTML, each on a line of its own. -/
def htmlLinesMarks (r : Renderer) : List String → List Mark
  | [] => []
  | part :: rest =>
    r.endMarks ++ r.flush.leadMarks ++ .html part :: (r.htmlLine part).htmlLinesMarks rest

def htmlMarks (r : Renderer) (s : String) : List Mark :=
  match Text.splitLines s with
  | [] => []
  | first :: rest =>
    r.leadMarks ++ .html first :: (r.prepare.push first r.styles.html).htmlLinesMarks rest

def startMarks (r : Renderer) : Tag → List Mark
  | .heading _ | .codeBlock | .list _ | .item | .quote => r.endMarks
  | .tableCell => if r.spans.isEmpty then [] else [.divider]
  | _ => []

def stopMarks (r : Renderer) : Tag → List Mark
  | .heading _ | .codeBlock => r.endMarks ++ r.flush.gapMarks
  | .list _ => r.endMarks ++ if r.flush.lists.dropLast.isEmpty then r.flush.gapMarks else []
  | .item | .tableHead | .tableRow => r.endMarks
  | .quote => r.endMarks ++ if r.flush.quotes - 1 = 0 then r.flush.gapMarks else []
  | .paragraph =>
    r.endMarks ++ if r.flush.lists.isEmpty && r.flush.quotes = 0 then r.flush.gapMarks else []
  | .table => r.gapMarks
  | _ => []

/-- The marks of an event. -/
def marks (r : Renderer) : Event → List Mark
  | .start tag => r.startMarks tag
  | .stop tag => r.stopMarks tag
  | .text s => r.textMarks s
  | .code s => r.leadMarks ++ [.code s]
  | .html s | .inlineHtml s => r.htmlMarks s
  | .softBreak => r.textMarks " "
  | .hardBreak => r.endMarks
  | .rule => r.endMarks ++ [.rule r.width, .lineEnd, .gap]
  | .task _ => []
  | .footnote name => r.textMarks ("[^" ++ name ++ "]")

/-- The marks of the events, one block for each event. -/
def blocks (r : Renderer) : List Event → List (List Mark)
  | [] => []
  | e :: es => r.marks e :: (r.handle e).blocks es

/-! ### They are what is put down -/

/-- A renderer puts down marks: they are on its page then, in its styles, and a marker that was owed
is among them or still owed. -/
structure Puts (r : Renderer) (ms : List Mark) (r' : Renderer) : Prop where
  page : r'.page = ms.foldl (Page.put r.styles) r.page
  styles : r'.styles = r.styles
  marker : ms.filterMap Mark.marker? ++ r'.marker.toList = r.marker.toList

namespace Puts

variable {r r' r'' : Renderer} {ms ms' : List Mark}

theorem refl (r : Renderer) : r.Puts [] r := ⟨rfl, rfl, rfl⟩

theorem trans (h : r.Puts ms r') (h' : r'.Puts ms' r'') : r.Puts (ms ++ ms') r'' where
  page := by rw [h'.page, h.page, h.styles, List.foldl_append]
  styles := h'.styles.trans h.styles
  marker := by rw [List.filterMap_append, List.append_assoc, h'.marker, h.marker]

/-- What is not on the page does not matter. -/
theorem of_eq (h : r.Puts ms r')
    (page : r''.page = r'.page) (styles : r''.styles = r'.styles)
    (marker : r''.marker = r'.marker) : r.Puts ms r'' :=
  ⟨page.trans h.page, styles.trans h.styles, by rw [marker, h.marker]⟩

end Puts

variable (r : Renderer)

/-- The span of a mark that has one. -/
def spanOf (m : Mark) : Span := ⟨m.shown, m.style r.styles⟩

/-- The start of a line takes what it is owed, and nothing else changes. -/
theorem prepare_eq : r.prepare = { r with
    spans := r.spans ++ r.leadMarks.map r.spanOf
    marker := if r.spans.isEmpty then none else r.marker } := by
  rcases r with ⟨styles, width, lines, spans, stack, lists, marker, inCode, quotes⟩
  by_cases empty : spans.isEmpty
  · by_cases some : quotes > 0 <;> cases marker <;>
      simp [prepare, leadMarks, spanOf, push, Mark.shown, Mark.style, empty, some]
  · simp [prepare, leadMarks, empty]

theorem puts_lead : r.Puts r.leadMarks r.prepare := by
  rw [prepare_eq]
  by_cases empty : r.spans.isEmpty
  · by_cases quotes : r.quotes > 0 <;> cases hmarker : r.marker <;> constructor <;>
      simp [leadMarks, spanOf, page, Page.put, Mark.marker?, List.filterMap_cons, empty, quotes,
        hmarker]
  · constructor <;> simp [leadMarks, empty]

/-- A span that is no marker is pushed as it is shown. -/
theorem puts_span {m : Mark} (span : ∀ p : Page, p.put r.styles m = ⟨p.lines, p.spans ++
    [⟨m.shown, m.style r.styles⟩]⟩) (marker : m.marker? = none) :
    r.Puts [m] (r.push m.shown (m.style r.styles)) :=
  ⟨(span r.page).symm, rfl, by simp [marker, push]⟩

/-- No span is left on the line at hand once it is ended, and nothing else changes. -/
theorem flush_eq : r.flush = { r with
    lines := if r.spans.isEmpty then r.lines else r.lines ++ [⟨r.spans⟩]
    spans := [] } := by
  rcases r with ⟨styles, width, lines, spans, stack, lists, marker, inCode, quotes⟩
  cases spans <;> simp [flush]

theorem puts_flush : r.Puts r.endMarks r.flush := by
  by_cases empty : r.spans.isEmpty <;> constructor <;>
    simp [flush, endMarks, page, Page.put, Mark.marker?, empty]

/-- A blank line changes nothing else. -/
theorem blank_eq : r.blank = { r with lines := r.blank.lines } := by
  unfold blank
  cases r.lines.getLast? with
  | none => rfl
  | some l => by_cases blank : l.isBlank <;> simp [blank]

theorem puts_blank : r.Puts r.gapMarks r.blank := by
  unfold blank gapMarks
  cases last : r.lines.getLast? with
  | none => exact .refl r
  | some l =>
    by_cases blank : l.isBlank
    · simpa [blank] using Puts.refl r
    · constructor <;> simp [page, Page.put, Mark.marker?, blank]

theorem puts_codeLines (lines : List String) :
    r.Puts (r.codeMarks lines) (lines.foldl codeLine r) := by
  induction lines generalizing r with
  | nil => exact .refl r
  | cons line rest ih =>
    have here : r.Puts (r.leadMarks ++ [.codeLine line] ++ [.lineEnd]) (r.codeLine line) := by
      refine (r.puts_lead.trans (r.prepare.puts_span (fun _ => rfl) rfl)).trans ?_
      have shown := (r.prepare.push ("  " ++ line) r.prepare.styles.codeBlock).puts_flush
      simpa [endMarks, push, codeLine, Mark.shown, Mark.style, r.puts_lead.styles] using shown
    simpa [codeMarks] using here.trans (ih (r.codeLine line))

/-- A span after what the start of its line is owed. -/
theorem puts_prepared {m : Mark} (span : ∀ p : Page, p.put r.styles m = ⟨p.lines, p.spans ++
    [⟨m.shown, m.style r.styles⟩]⟩) (marker : m.marker? = none) :
    r.Puts (r.leadMarks ++ [m]) (r.prepare.push m.shown (m.style r.styles)) := by
  have same := r.puts_lead.styles
  rw [← same] at span ⊢
  exact r.puts_lead.trans (r.prepare.puts_span span marker)

theorem puts_text (s : String) : r.Puts (r.textMarks s) (r.text s) := by
  unfold textMarks text
  split
  · exact r.puts_codeLines _
  · have same : r.prepare.style = r.style := by rw [prepare_eq]; rfl
    have here := r.puts_prepared (m := .text s r.style) (fun _ => rfl) rfl
    rwa [← same] at here ⊢

theorem puts_htmlLines (parts : List String) :
    r.Puts (r.htmlLinesMarks parts) (parts.foldl htmlLine r) := by
  induction parts generalizing r with
  | nil => exact .refl r
  | cons part rest ih =>
    have here : r.Puts (r.endMarks ++ (r.flush.leadMarks ++ [.html part])) (r.htmlLine part) := by
      have shown := r.flush.puts_prepared (m := .html part) (fun _ => rfl) rfl
      rw [r.puts_flush.styles] at shown
      exact r.puts_flush.trans shown
    simpa [htmlLinesMarks] using here.trans (ih (r.htmlLine part))

theorem puts_html (s : String) : r.Puts (r.htmlMarks s) (r.html s) := by
  unfold htmlMarks html
  cases Text.splitLines s with
  | nil => exact .refl r
  | cons first rest =>
    have here := r.puts_prepared (m := .html first) (fun _ => rfl) rfl
    have all := here.trans (puts_htmlLines _ rest)
    rw [List.append_assoc, List.singleton_append] at all
    exact all

theorem puts_start {tag : Tag} (h : tag ≠ .item) : r.Puts (r.startMarks tag) (r.start tag) := by
  have flushed := r.puts_flush
  cases tag with
  | item => exact absurd rfl h
  | heading level => exact flushed.of_eq rfl rfl rfl
  | codeBlock | list number | quote => exact flushed.of_eq rfl rfl rfl
  | tableCell =>
    unfold start startMarks
    by_cases empty : r.spans.isEmpty
    · simpa [empty] using Puts.refl r
    · rw [if_neg empty, if_neg empty]
      exact r.puts_span (m := .divider) (fun _ => rfl) rfl
  | _ => exact (Puts.refl r).of_eq rfl rfl rfl

theorem puts_stop (tag : Tag) : r.Puts (r.stopMarks tag) (r.stop tag) := by
  have flushed := r.puts_flush
  -- A blank line may follow once the line at hand is ended.
  have apart {r' : Renderer} (h : r.Puts r.endMarks r') (lines : r'.lines = r.flush.lines) {p : Prop}
      [Decidable p] :
      r.Puts (r.endMarks ++ if p then r.flush.gapMarks else []) (if p then r'.blank else r') := by
    have gap : r'.gapMarks = r.flush.gapMarks := by rw [gapMarks, gapMarks, lines]
    split
    · rw [← gap]
      exact h.trans r'.puts_blank
    · rwa [List.append_nil]
  cases tag with
  | heading level =>
    have closed : r.Puts r.endMarks r.flush.leave := flushed.of_eq rfl rfl rfl
    exact closed.trans (puts_blank _)
  | codeBlock =>
    have closed : r.Puts r.endMarks { r.flush with inCode := false } := flushed.of_eq rfl rfl rfl
    exact closed.trans (puts_blank _)
  | list number =>
    have closed : r.Puts r.endMarks { r.flush with lists := r.flush.lists.dropLast } :=
      flushed.of_eq rfl rfl rfl
    exact apart closed rfl
  | quote =>
    have closed : r.Puts r.endMarks { r.flush with quotes := r.flush.quotes - 1 } :=
      flushed.of_eq rfl rfl rfl
    exact apart closed rfl
  | paragraph => exact apart flushed rfl
  | item | tableHead | tableRow => exact flushed
  | table => exact r.puts_blank
  | _ => exact (Puts.refl r).of_eq rfl rfl rfl

theorem puts_rule : r.Puts (r.endMarks ++ [.rule r.width, .lineEnd, .gap]) r.rule := by
  have flushed := r.puts_flush
  have empty : r.flush.spans = [] := by rw [flush_eq]
  have width : r.flush.width = r.width := by rw [flush_eq]
  have drawn : r.flush.Puts [.rule r.width, .lineEnd, .gap] r.rule := by
    constructor <;>
      simp [rule, blank, page, Page.put, Mark.shown, Mark.style, Mark.marker?, empty, width,
        Line.styled, Line.isBlank]
  exact flushed.trans drawn

/-- **The marks of an event are what is put down for it.** The start of an item and a task are apart,
as they set a marker. -/
theorem puts_handle {e : Event} (item : e ≠ .start .item) (task : ∀ checked, e ≠ .task checked) :
    r.Puts (r.marks e) (r.handle e) := by
  cases e with
  | start tag => exact r.puts_start fun h => item (by rw [h])
  | stop tag => exact r.puts_stop tag
  | text s => exact r.puts_text s
  | code s => exact r.puts_prepared (m := .code s) (fun _ => rfl) rfl
  | html s => exact r.puts_html s
  | inlineHtml s => exact r.puts_html s
  | softBreak => exact r.puts_text " "
  | hardBreak => exact r.puts_flush
  | rule => exact r.puts_rule
  | task checked => exact absurd rfl (task checked)
  | footnote name => exact r.puts_text _

/-- The line at hand ends where an item starts, and the marker of the item is owed. -/
theorem handle_item : r.handle (.start .item) =
    { r.flush with
      lists := (nextMarker r.flush.lists).2
      marker := some (nextMarker r.flush.lists).1 } :=
  rfl

theorem page_handle (e : Event) :
    (r.handle e).page = (r.marks e).foldl (Page.put r.styles) r.page ∧
      (r.handle e).styles = r.styles := by
  by_cases item : e = .start .item
  · subst item
    exact ⟨r.puts_flush.page, r.puts_flush.styles⟩
  by_cases task : ∃ checked, e = .task checked
  · obtain ⟨checked, rfl⟩ := task
    exact ⟨rfl, rfl⟩
  · have put := r.puts_handle item (not_exists.1 task)
    exact ⟨put.page, put.styles⟩

/-! ### Open elements -/

/-- Whether a block of code is open, and the open lists. -/
def context : Bool × List (Option Nat) := (r.inCode, r.lists)

/-- What an event makes of them. -/
def contextAfter (c : Bool × List (Option Nat)) : Event → Bool × List (Option Nat)
  | .start .codeBlock => (true, c.2)
  | .stop .codeBlock => (false, c.2)
  | .start (.list number) => (c.1, c.2 ++ [number])
  | .stop (.list _) => (c.1, c.2.dropLast)
  | .start .item => (c.1, (nextMarker c.2).2)
  | _ => c

@[simp] theorem context_prepare : r.prepare.context = r.context := by rw [prepare_eq]; rfl

@[simp] theorem context_flush : r.flush.context = r.context := by rw [flush_eq]; rfl

@[simp] theorem context_push (text : String) (style : Style) :
    (r.push text style).context = r.context := rfl

@[simp] theorem inCode_blank : r.blank.inCode = r.inCode := by rw [blank_eq]

@[simp] theorem lists_blank : r.blank.lists = r.lists := by rw [blank_eq]

theorem context_foldl {f : Renderer → String → Renderer} (h : ∀ r s, (f r s).context = r.context)
    (lines : List String) : (lines.foldl f r).context = r.context := by
  induction lines generalizing r with
  | nil => rfl
  | cons line rest ih => rw [List.foldl_cons, ih, h]

theorem context_text (s : String) : (r.text s).context = r.context := by
  unfold text
  split
  · exact r.context_foldl (fun r s => by simp [codeLine]) _
  · simp

theorem context_html (s : String) : (r.html s).context = r.context := by
  unfold html
  split
  · rfl
  · rw [context_foldl _ fun r s => by simp]
    simp

/-- Only the starts and stops of blocks of code, lists and items change what is open. -/
theorem context_handle (e : Event) : (r.handle e).context = contextAfter r.context e := by
  cases e with
  | start tag =>
    cases tag <;>
      simp [handle, start, contextAfter, context, enter, push, flush_eq, apply_ite inCode,
        apply_ite lists]
  | stop tag =>
    cases tag <;>
      simp [handle, stop, contextAfter, context, leave, flush_eq, apply_ite inCode, apply_ite lists]
  | text s => exact r.context_text s
  | html s => exact r.context_html s
  | inlineHtml s => exact r.context_html s
  | softBreak => exact r.context_text " "
  | footnote name => exact r.context_text _
  | rule => simp [handle, rule, contextAfter, context, flush_eq]
  | code s => simp [handle, contextAfter]
  | hardBreak => exact r.context_flush
  | task checked => rfl

theorem blocks_append (es es' : List Event) :
    r.blocks (es ++ es') = r.blocks es ++ (es.foldl handle r).blocks es' := by
  induction es generalizing r with
  | nil => rfl
  | cons e es ih => rw [List.cons_append, blocks, ih, blocks, List.cons_append, List.foldl_cons]

theorem length_blocks (es : List Event) : (r.blocks es).length = es.length := by
  induction es generalizing r with
  | nil => rfl
  | cons e es ih => rw [blocks, List.length_cons, ih, List.length_cons]

/-- The block of an event is made of its marks. -/
theorem getElem?_blocks (before : List Event) (e : Event) (after : List Event) :
    (r.blocks (before ++ e :: after))[before.length]? = some ((before.foldl handle r).marks e) := by
  rw [blocks_append, List.getElem?_append_right (Nat.le_of_eq (r.length_blocks before)), length_blocks,
    Nat.sub_self]
  rfl

theorem styles_foldl (events : List Event) : (events.foldl handle r).styles = r.styles := by
  induction events generalizing r with
  | nil => rfl
  | cons e es ih => rw [List.foldl_cons, ih, (r.page_handle e).2]

theorem page_foldl (events : List Event) :
    (events.foldl handle r).page = (r.blocks events).flatten.foldl (Page.put r.styles) r.page := by
  induction events generalizing r with
  | nil => rfl
  | cons e es ih =>
    obtain ⟨page, styles⟩ := r.page_handle e
    rw [List.foldl_cons, ih, blocks, List.flatten_cons, List.foldl_append, page, styles]

theorem finish_page : r.finish = r.page.finish := by
  rw [finish, flush_eq]
  rfl

end Renderer

/-- **The lines of a row of events are its marks laid out.** -/
theorem renderEvents_eq_layOut (events : List Event) (width : Nat) (styles : Styles) :
    renderEvents events width styles =
      layOut styles (Renderer.blocks { styles, width } events).flatten := by
  rw [renderEvents, Renderer.finish_page, Renderer.page_foldl]
  rfl

/-! ### The characters on a page -/

theorem Page.chars_put (styles : Styles) (p : Page) (m : Mark) :
    (p.put styles m).chars = p.chars ++ m.chars styles := by
  cases m with
  | lineEnd => simp [put, chars, Mark.chars, Mark.shown, Line.chars]
  | gap => simp [put, chars, Mark.chars, Mark.shown, Line.chars, Line.blank]
  | _ => simp only [put, chars, Mark.chars, Line.chars, List.flatMap_append, List.flatMap_singleton,
      List.append_assoc]

/-- Blank lines have no characters. -/
theorem flatMap_chars_dropBlank (lines : List Line) :
    (lines.reverse.dropWhile Line.isBlank).reverse.flatMap Line.chars = lines.flatMap Line.chars := by
  induction lines using List.reverseRecOn with
  | nil => rfl
  | append_singleton lines l ih =>
    rw [List.reverse_append, List.reverse_singleton, List.singleton_append]
    by_cases blank : l.isBlank
    · have none : l.chars = [] := by simp [Line.chars, List.isEmpty_iff.1 blank]
      rw [List.dropWhile_cons_of_pos blank, ih, List.flatMap_append, List.flatMap_singleton, none,
        List.append_nil]
    · rw [List.dropWhile_cons_of_neg blank, List.reverse_cons, List.reverse_reverse]

theorem Page.chars_finish (p : Page) : p.finish.flatMap Line.chars = p.chars := by
  rw [finish, flatMap_chars_dropBlank, chars]
  split
  next empty => rw [List.isEmpty_iff.1 empty]; simp [Line.chars]
  next => rw [List.flatMap_append, List.flatMap_singleton]

/-- Laying out marks shows the characters of each of them, in their order. -/
theorem chars_layOut (styles : Styles) (ms : List Mark) :
    (layOut styles ms).flatMap Line.chars = ms.flatMap (Mark.chars styles) := by
  have fold (p : Page) : (ms.foldl (Page.put styles) p).chars =
      p.chars ++ ms.flatMap (Mark.chars styles) := by
    induction ms generalizing p with
    | nil => simp
    | cons m ms ih => rw [List.foldl_cons, ih, Page.chars_put, List.flatMap_cons, List.append_assoc]
  rw [layOut, Page.chars_finish, fold]
  rfl

end PublisherConsole.Markdown
