import PublisherConsole.Proofs.Markdown.LineEnds.Rows
import PublisherConsole.Proofs.Markdown.Segments

/-!
# Pages with more lines

`Segment.recut` is what becomes of a segment when the lines of its text end with carriage returns as well:
code is cut anew, and so are the parts of HTML. `Renderer.IsAhead` relates the page with so many more lines
to the page without; every event keeps it (`IsAhead.handle`), and recut segments add to it
(`IsAhead.segments`). What is shown in the end is `renderEvents_recut`.
-/

namespace PublisherConsole.Markdown

open Screen (Span Line)
open Text (splitRows splitLines)

/-! ### Pages that are ahead -/

/-- Two lines that show the same. -/
structure IsAlike (l l' : Line) : Prop where
  chars : l.chars = l'.chars
  blank : l.isBlank = l'.isBlank

/-- How many blank lines are at the end. -/
def blanksBehind (lines : List Line) : Nat := (lines.reverse.takeWhile Line.isBlank).length

/-- Lines that are `n` more than others, and show the same if there are no more. -/
structure IsLonger (n : Nat) (lines lines' : List Line) : Prop where
  length : lines'.length = lines.length + n
  blanks : blanksBehind lines = blanksBehind lines'
  none : lines = [] ↔ lines' = []
  alike : n = 0 → List.Forall₂ IsAlike lines lines'

variable {l l' : Line} {lines lines' : List Line} {n k : Nat} {r r' : Renderer}

theorem IsAlike.refl (l : Line) : IsAlike l l := ⟨rfl, rfl⟩

theorem IsAlike.append {spans spans' : List Span} (h : IsAlike ⟨spans⟩ ⟨spans'⟩) (more : List Span) :
    IsAlike ⟨spans ++ more⟩ ⟨spans' ++ more⟩ where
  chars := by
    have chars := h.chars
    simp only [Line.chars, List.flatMap_append] at chars ⊢
    rw [chars]
  blank := by
    have blank := h.blank
    cases spans <;> cases spans' <;> simp_all [Line.isBlank]

theorem forall₂_isAlike_refl (lines : List Line) : List.Forall₂ IsAlike lines lines :=
  List.forall₂_same.2 fun l _ => .refl l

theorem IsAlike.map_chars (h : List.Forall₂ IsAlike lines lines') :
    lines.map Line.chars = lines'.map Line.chars := by
  induction h with
  | nil => rfl
  | cons same rest ih => rw [List.map_cons, List.map_cons, same.chars, ih]

theorem blanksBehind_concat (lines : List Line) (l : Line) :
    blanksBehind (lines ++ [l]) = if l.isBlank then blanksBehind lines + 1 else 0 := by
  rw [blanksBehind, List.reverse_append, List.reverse_singleton, List.singleton_append,
    List.takeWhile_cons]
  split <;> rfl

namespace IsLonger

theorem concat (h : IsLonger n lines lines') (same : IsAlike l l') :
    IsLonger n (lines ++ [l]) (lines' ++ [l']) where
  length := by simp [h.length]; omega
  blanks := by rw [blanksBehind_concat, blanksBehind_concat, same.blank, h.blanks]
  none := by simp
  alike zero := List.rel_append (h.alike zero) (.cons same .nil)

/-- Lines that are not blank may be put behind, and more of them behind the lines that are more. -/
theorem append (h : IsLonger n lines lines') {more more' : List Line}
    (ink : ∀ l ∈ more, l.isBlank = false) (ink' : ∀ l ∈ more', l.isBlank = false)
    (length : more'.length = more.length + k) (none : more = [] ↔ more' = [])
    (alike : k = 0 → List.Forall₂ IsAlike more more') :
    IsLonger (n + k) (lines ++ more) (lines' ++ more') where
  length := by simp [h.length, length]; omega
  blanks := by
    rcases List.eq_nil_or_concat' more with rfl | ⟨front, l, rfl⟩
    · rw [none.1 rfl, List.append_nil, List.append_nil, h.blanks]
    · rcases List.eq_nil_or_concat' more' with rfl | ⟨front', l', rfl⟩
      · simp at none
      · rw [← List.append_assoc, ← List.append_assoc, blanksBehind_concat, blanksBehind_concat,
          ink l (by simp), ink' l' (by simp)]
        rfl
  none := by simp [h.none, none]
  alike zero := List.rel_append (h.alike (by omega)) (alike (by omega))

/-- The last lines are both blank, or neither is. -/
theorem getLast? (h : IsLonger n lines lines') :
    lines.getLast?.map Line.isBlank = lines'.getLast?.map Line.isBlank := by
  rcases List.eq_nil_or_concat' lines with rfl | ⟨front, l, rfl⟩
  · rw [h.none.1 rfl]
  · rcases List.eq_nil_or_concat' lines' with rfl | ⟨front', l', rfl⟩
    · simpa using h.none
    · have blanks := h.blanks
      rw [blanksBehind_concat, blanksBehind_concat] at blanks
      cases blank : l.isBlank <;> cases blank' : l'.isBlank <;> simp_all

end IsLonger

/-- A page on which `n` more lines are than on another one, and which shows the same if there are no
more. -/
inductive Renderer.IsAhead (n : Nat) (r : Renderer) : Renderer → Prop
  | intro {lines spans} (line : IsAlike ⟨r.spans⟩ ⟨spans⟩) (longer : IsLonger n r.lines lines) :
    IsAhead n r { r with lines, spans }

namespace Renderer.IsAhead

/-- Something is on the line at hand of both, or of neither. -/
theorem isEmpty_spans (h : r.IsAhead n r') : r'.spans.isEmpty = r.spans.isEmpty := by
  cases h with | intro line longer => exact line.blank.symm

theorem push (h : r.IsAhead n r') (text : String) (style : Screen.Style) :
    (r.push text style).IsAhead n (r'.push text style) := by
  cases h with
  | intro line longer =>
    exact .intro (r := r.push text style) (line.append _) longer

theorem flush (h : r.IsAhead n r') : r.flush.IsAhead n r'.flush := by
  have empty := h.isEmpty_spans
  rw [flush_eq, flush_eq]
  cases h with
  | intro line longer =>
    refine .intro (r := { r with lines := _, spans := [] }) (.refl _) ?_
    dsimp only at empty ⊢
    rw [empty]
    split
    · exact longer
    · exact longer.concat line

theorem blank (h : r.IsAhead n r') : r.blank.IsAhead n r'.blank := by
  cases h with
  | @intro lines spans line longer =>
    have last := longer.getLast?
    unfold Renderer.blank
    dsimp only
    cases end' : r.lines.getLast? with
    | none =>
      rw [end', Option.map_none, eq_comm, Option.map_eq_none_iff] at last
      rw [last]
      exact .intro line longer
    | some l =>
      rw [end', Option.map_some, eq_comm, Option.map_eq_some_iff] at last
      obtain ⟨l', here, blank⟩ := last
      rw [here]
      dsimp only
      rw [blank]
      split
      · exact .intro line longer
      · exact .intro (r := { r with lines := _ }) line (longer.concat (.refl _))

theorem prepare (h : r.IsAhead n r') : r.prepare.IsAhead n r'.prepare := by
  have empty := h.isEmpty_spans
  cases h with
  | @intro lines spans line longer =>
    have lead : ({ r with lines, spans } : Renderer).leadMarks = r.leadMarks := by
      rw [leadMarks, leadMarks]
      dsimp only at empty ⊢
      rw [empty]
    rw [prepare_eq, prepare_eq, lead]
    dsimp only at empty ⊢
    rw [empty]
    exact .intro (r := { r with spans := _, marker := _ }) (line.append _) longer

theorem styles (h : r.IsAhead n r') : r'.styles = r.styles := by
  cases h with | intro line longer => rfl

theorem style (h : r.IsAhead n r') : r'.style = r.style := by
  cases h with | intro line longer => rfl

theorem inCode (h : r.IsAhead n r') : r'.inCode = r.inCode := by
  cases h with | intro line longer => rfl

theorem codeLine (h : r.IsAhead n r') (line : String) : (r.codeLine line).IsAhead n (r'.codeLine line) := by
  rw [Renderer.codeLine, Renderer.codeLine, h.styles]
  exact (h.prepare.push _ _).flush

theorem foldl {α : Type} {f : Renderer → α → Renderer}
    (step : ∀ {r r'}, r.IsAhead n r' → ∀ a, (f r a).IsAhead n (f r' a)) (h : r.IsAhead n r')
    (as : List α) : (as.foldl f r).IsAhead n (as.foldl f r') := by
  induction as generalizing r r' with
  | nil => exact h
  | cons a as ih => exact ih (step h a)

theorem text (h : r.IsAhead n r') (s : String) : (r.text s).IsAhead n (r'.text s) := by
  unfold Renderer.text
  rw [h.inCode]
  split
  · exact h.foldl codeLine _
  · dsimp only
    rw [h.prepare.style]
    exact h.prepare.push _ _

theorem htmlLine (h : r.IsAhead n r') (part : String) : (r.htmlLine part).IsAhead n (r'.htmlLine part) := by
  rw [Renderer.htmlLine, Renderer.htmlLine, h.styles]
  exact h.flush.prepare.push _ _

theorem html (h : r.IsAhead n r') (s : String) : (r.html s).IsAhead n (r'.html s) := by
  unfold Renderer.html
  split
  · exact h
  · rw [h.styles]
    exact (h.prepare.push _ _).foldl htmlLine _

/-- What becomes of the open elements does not depend on the page. -/
theorem start (h : r.IsAhead n r') (tag : Tag) : (r.start tag).IsAhead n (r'.start tag) := by
  have flushed := h.flush
  have empty := h.isEmpty_spans
  unfold Renderer.start
  rw [h.styles]
  generalize r.flush = q at flushed ⊢
  generalize r'.flush = q' at flushed ⊢
  cases tag with
  | heading level =>
    cases flushed with | intro line longer => exact .intro (r := { q with styleStack := _ }) line longer
  | list number =>
    cases flushed with | intro line longer => exact .intro (r := { q with lists := _ }) line longer
  | item =>
    cases flushed with
    | intro line longer => exact .intro (r := { q with lists := _, marker := _ }) line longer
  | codeBlock =>
    cases flushed with | intro line longer => exact .intro (r := { q with inCode := _ }) line longer
  | quote =>
    cases flushed with | intro line longer => exact .intro (r := { q with quotes := _ }) line longer
  | emphasis | strong | strikethrough | link =>
    cases h with | intro line longer => exact .intro (r := { r with styleStack := _ }) line longer
  | tableCell =>
    dsimp only
    rw [empty]
    split
    · exact h
    · exact h.push _ _
  | paragraph | htmlBlock | table | tableHead | tableRow | image => exact h

theorem stop (h : r.IsAhead n r') (tag : Tag) : (r.stop tag).IsAhead n (r'.stop tag) := by
  have flushed := h.flush
  unfold Renderer.stop
  generalize r.flush = q at flushed ⊢
  generalize r'.flush = q' at flushed ⊢
  cases tag with
  | heading level =>
    have left : q.leave.IsAhead n q'.leave := by
      cases flushed with | intro line longer => exact .intro (r := { q with styleStack := _ }) line longer
    exact left.blank
  | emphasis | strong | strikethrough | link =>
    cases h with | intro line longer => exact .intro (r := { r with styleStack := _ }) line longer
  | codeBlock =>
    have left : ({ q with inCode := false } : Renderer).IsAhead n { q' with inCode := false } := by
      cases flushed with | intro line longer => exact .intro (r := { q with inCode := _ }) line longer
    exact left.blank
  | list number =>
    have left : ({ q with lists := q.lists.dropLast } : Renderer).IsAhead n
        { q' with lists := q'.lists.dropLast } := by
      cases flushed with | intro line longer => exact .intro (r := { q with lists := _ }) line longer
    have same : q'.lists = q.lists := by cases flushed with | intro => rfl
    dsimp only
    rw [same] at left ⊢
    split
    · exact left.blank
    · exact left
  | item | tableHead | tableRow => exact flushed
  | quote =>
    have left : ({ q with quotes := q.quotes - 1 } : Renderer).IsAhead n
        { q' with quotes := q'.quotes - 1 } := by
      cases flushed with | intro line longer => exact .intro (r := { q with quotes := _ }) line longer
    have same : q'.quotes = q.quotes := by cases flushed with | intro => rfl
    dsimp only
    rw [same] at left ⊢
    split
    · exact left.blank
    · exact left
  | paragraph =>
    have lists : q'.lists = q.lists := by cases flushed with | intro => rfl
    have quotes : q'.quotes = q.quotes := by cases flushed with | intro => rfl
    dsimp only
    rw [lists, quotes]
    split
    · exact flushed.blank
    · exact flushed
  | table => exact h.blank
  | htmlBlock | tableCell | image => exact h

theorem rule (h : r.IsAhead n r') : r.rule.IsAhead n r'.rule := by
  have flushed := h.flush
  unfold Renderer.rule
  generalize r.flush = q at flushed ⊢
  generalize r'.flush = q' at flushed ⊢
  refine IsAhead.blank ?_
  cases flushed with
  | intro line longer => exact .intro (r := { q with lines := _ }) line (longer.concat (.refl _))

/-- The same event keeps one page ahead of another. -/
theorem handle (h : r.IsAhead n r') (e : Event) : (r.handle e).IsAhead n (r'.handle e) := by
  cases e with
  | start tag => exact h.start tag
  | stop tag => exact h.stop tag
  | text s => exact h.text s
  | code s =>
    rw [Renderer.handle, Renderer.handle, h.styles]
    exact h.prepare.push _ _
  | html s | inlineHtml s => exact h.html s
  | softBreak => exact h.text " "
  | hardBreak => exact h.flush
  | rule => exact h.rule
  | task checked =>
    cases h with | intro line longer => exact .intro (r := { r with marker := _ }) line longer
  | footnote name => exact h.text _

end Renderer.IsAhead

/-! ### Code -/

/-- The events of a block of code that was read in stretches. -/
def codeEvents (texts : List (List Char)) : List Event :=
  .start .codeBlock :: texts.map (fun cs => .text (String.ofList cs)) ++ [.stop .codeBlock]

namespace Renderer

/-- The lines that rows of code are shown as on an empty line. -/
def codeLines (r : Renderer) : List String → List Line
  | [] => []
  | row :: rows =>
    ⟨r.leadMarks.map r.spanOf ++ [⟨"  " ++ row, r.styles.codeBlock⟩]⟩ :: (r.codeLine row).codeLines rows

theorem length_codeLines (r : Renderer) (rows : List String) : (r.codeLines rows).length = rows.length := by
  induction rows generalizing r with
  | nil => rfl
  | cons row rows ih => rw [codeLines, List.length_cons, ih, List.length_cons]

theorem isBlank_of_mem_codeLines (r : Renderer) (rows : List String) :
    ∀ l ∈ r.codeLines rows, l.isBlank = false := by
  induction rows generalizing r with
  | nil => simp [codeLines]
  | cons row rows ih =>
    rw [codeLines, List.forall_mem_cons]
    exact ⟨by simp [Line.isBlank], ih _⟩

theorem codeLine_eq (row : String) (empty : r.spans = []) : r.codeLine row =
    { r with
      lines := r.lines ++ [⟨r.leadMarks.map r.spanOf ++ [⟨"  " ++ row, r.styles.codeBlock⟩]⟩]
      marker := none } := by
  rw [codeLine, flush_eq, prepare_eq]
  simp [push, empty]

/-- Rows of code are shown line by line. -/
theorem foldl_codeLine (rows : List String) (empty : r.spans = []) : rows.foldl codeLine r =
    { r with
      lines := r.lines ++ r.codeLines rows
      marker := if rows.isEmpty then r.marker else none } := by
  induction rows generalizing r with
  | nil => simp [codeLines]
  | cons row rows ih =>
    have still : (r.codeLine row).spans = [] := by rw [codeLine_eq row empty, empty]
    rw [List.foldl_cons, ih still, codeLines, codeLine_eq row empty]
    simp

/-- Texts inside of a block of code are lines of code. -/
theorem foldl_text (code : r.inCode = true) (texts : List (List Char)) :
    (texts.map fun cs => Event.text (String.ofList cs)).foldl handle r =
      (texts.flatMap fun cs => splitLines (String.ofList cs)).foldl codeLine r := by
  induction texts generalizing r with
  | nil => rfl
  | cons cs texts ih =>
    have still : (r.handle (.text (String.ofList cs))).inCode = true := by
      rw [inCode_handle, code]
      rfl
    rw [List.map_cons, List.foldl_cons, ih still, List.flatMap_cons, List.foldl_append, handle, text,
      if_pos code]

namespace IsAhead

theorem codeLines (h : r.IsAhead n r') (empty : r.spans = []) (rows : List String) :
    r'.codeLines rows = r.codeLines rows := by
  induction rows generalizing r r' with
  | nil => rfl
  | cons row rows ih =>
    have still : (r.codeLine row).spans = [] := by rw [codeLine_eq row empty, empty]
    rw [Renderer.codeLines, Renderer.codeLines, ih (h.codeLine row) still]
    cases h with
    | @intro lines spans line longer =>
      obtain rfl : spans = [] := by
        have blank := line.blank
        simpa [Line.isBlank, empty] using blank
      rw [leadMarks, leadMarks, empty]
      rfl

/-- More rows of code are more lines. -/
theorem foldl_codeLine (h : r.IsAhead n r') (empty : r.spans = []) {rows rows' : List String}
    (length : rows'.length = rows.length + k) (none : rows = [] ↔ rows' = [])
    (same : k = 0 → rows' = rows) :
    (rows.foldl Renderer.codeLine r).IsAhead (n + k) (rows'.foldl Renderer.codeLine r') := by
  have lines := fun rows => h.codeLines empty rows
  have isEmpty : rows'.isEmpty = rows.isEmpty := by
    rw [Bool.eq_iff_iff, List.isEmpty_iff, List.isEmpty_iff, none]
  cases h with
  | @intro left spans line longer =>
    obtain rfl : spans = [] := by
      have blank := line.blank
      simpa [Line.isBlank, empty] using blank
    rw [Renderer.foldl_codeLine rows empty, Renderer.foldl_codeLine rows' rfl, lines, isEmpty]
    refine .intro (r := { r with lines := _, marker := _ }) (by rw [empty]; exact .refl _) ?_
    refine longer.append (r.isBlank_of_mem_codeLines rows) (r.isBlank_of_mem_codeLines rows') ?_ ?_ ?_
    · rw [length_codeLines, length_codeLines, length]
    · rw [← List.length_eq_zero_iff, ← List.length_eq_zero_iff, length_codeLines, length_codeLines,
        List.length_eq_zero_iff, List.length_eq_zero_iff, none]
    · intro zero
      rw [same zero]
      exact forall₂_isAlike_refl _

/-- A block of code is recut: there is a line more for every row with anything on it that is ended. -/
theorem code (h : r.IsAhead n r') (texts : List (List Char)) :
    ((codeEvents texts).foldl Renderer.handle r).IsAhead (n + (texts.map endedRows).sum)
      ((codeEvents (texts.flatMap recut)).foldl Renderer.handle r') := by
  have start := h.handle (.start .codeBlock)
  have inCode (r : Renderer) : (r.handle (.start .codeBlock)).inCode = true := rfl
  have empty : (r.handle (.start .codeBlock)).spans = [] := by
    rw [Renderer.handle, Renderer.start, flush_eq]
  have length : ((texts.flatMap recut).flatMap fun cs => splitLines (String.ofList cs)).length =
      (texts.flatMap fun cs => splitLines (String.ofList cs)).length + (texts.map endedRows).sum := by
    induction texts with
    | nil => rfl
    | cons cs texts ih =>
      have here := length_splitLines_recut cs
      simp only [List.flatMap_cons, List.flatMap_append, List.length_append, List.map_cons,
        List.sum_cons] at ih ⊢
      omega
  have most : (texts.map endedRows).sum ≤
      (texts.flatMap fun cs => splitLines (String.ofList cs)).length := by
    rw [List.length_flatMap]
    exact List.sum_le_sum fun cs _ => endedRows_le cs
  rw [codeEvents, codeEvents, List.cons_append, List.cons_append, List.foldl_cons, List.foldl_cons,
    List.foldl_append, List.foldl_append, foldl_text (inCode r), foldl_text (inCode r')]
  refine IsAhead.handle ?_ (.stop .codeBlock)
  refine start.foldl_codeLine empty length ?_ ?_
  · rw [← List.length_eq_zero_iff, ← List.length_eq_zero_iff]
    omega
  · intro zero
    rw [List.flatMap_assoc]
    refine List.flatMap_congr fun cs h => splitLines_recut cs ?_
    exact List.sum_eq_zero_iff.1 zero _ (List.mem_map_of_mem h)

end IsAhead

end Renderer

/-! ### HTML -/

namespace Renderer.IsAhead

/-- A span without characters makes no difference on a line that has been started. -/
theorem push_empty (h : r.IsAhead n r') (started : r.spans ≠ []) (style : Screen.Style) :
    r.IsAhead n (r'.prepare.push "" style) := by
  have empty := h.isEmpty_spans
  rw [List.isEmpty_eq_false_iff.2 started] at empty
  cases h with
  | @intro lines spans line longer =>
    rw [Renderer.prepare, if_neg (by rw [empty]; exact Bool.false_ne_true)]
    refine .intro ⟨?_, ?_⟩ longer
    · rw [line.chars]
      simp [Line.chars]
    · rw [line.blank]
      dsimp only [Line.isBlank] at empty ⊢
      rw [empty, eq_comm, List.isEmpty_eq_false_iff]
      simp

/-- A line of HTML may be handed on in two parts. -/
theorem htmlLine_recut (h : r.IsAhead n r') {row : List Char} (line : '\n' ∉ row)
    (plain : row.getLast? ≠ some '\r') : (r.html (String.ofList (row ++ ['\n']))).IsAhead n
      ((r'.html (String.ofList row)).html "\n") := by
  have feed (r : Renderer) : r.html "\n" = r.prepare.push "" r.styles.html := rfl
  have whole (r : Renderer) : r.html (String.ofList (row ++ ['\n'])) =
      r.prepare.push (String.ofList row) r.styles.html := by
    rw [Renderer.html, Text.splitLines_row line plain]
    rfl
  rw [whole, feed]
  by_cases none : row = []
  · subst none
    have none : r'.html (String.ofList []) = r' := rfl
    rw [none, h.styles]
    exact h.prepare.push _ _
  · have first : r'.html (String.ofList row) = r'.prepare.push (String.ofList row) r'.styles.html := by
      rw [Renderer.html, Text.splitLines_of_notMem (by simpa using line), if_neg (by simpa using none)]
      rfl
    rw [first, h.styles]
    exact (h.prepare.push _ _).push_empty (by simp [Renderer.push]) _

end Renderer.IsAhead

/-! ### Segments -/

/-- An event of a text whose lines end with carriage returns as well, outside of code. -/
def Event.recut : Event → List Event
  | .html s =>
    if s.toList.getLast? = some '\n' then [.html (String.ofList s.toList.dropLast), .html "\n"] else [.html s]
  | .inlineHtml s => [.inlineHtml (String.ofList (withReturns s.toList))]
  | e => [e]

/-- Events inside of a block of code. -/
def Event.recutCode : Event → List Event
  | .text s => (Markdown.recut s.toList).map fun cs => .text (String.ofList cs)
  | e => [e]

/-- A segment of a text whose lines end with carriage returns as well. -/
def Segment.recut : Segment → Segment
  | .edge e => .edge e
  | .leaf .codeBlock es => .leaf .codeBlock (es.flatMap Event.recutCode)
  | .leaf tag es => .leaf tag (es.flatMap Event.recut)

/-- The rows of code of a segment that have anything on them and are ended. -/
def Segment.endedRows : Segment → Nat
  | .leaf .codeBlock es => ((es.filterMap Event.text?).map fun s => Markdown.endedRows s.toList).sum
  | _ => 0

/-- An event of a text without carriage returns. -/
inductive Event.IsPlain : Event → Prop
  | html {cs : List Char} (h : '\n' ∉ cs) : IsPlain (.html (String.ofList cs))
  | htmlLine {cs : List Char} (h : '\n' ∉ cs) (plain : '\r' ∉ cs) :
    IsPlain (.html (String.ofList (cs ++ ['\n'])))
  | inlineHtml {cs : List Char} (plain : '\r' ∉ cs) : IsPlain (.inlineHtml (String.ofList cs))
  | other {e : Event} (h : ∀ s, e ≠ .html s ∧ e ≠ .inlineHtml s) : IsPlain e

/-- A segment of a text without carriage returns. -/
inductive Segment.IsPlain : Segment → Prop
  | edge (e : Event) : IsPlain (.edge e)
  | code (texts : List (List Char)) : IsPlain (.leaf .codeBlock (codeEvents texts))
  | leaf {tag : Tag} {es : List Event} (other : tag ≠ .codeBlock) (h : ∀ e ∈ es, e.IsPlain) :
    IsPlain (.leaf tag es)

theorem recut_codeEvents (texts : List (List Char)) :
    (codeEvents texts).flatMap Event.recutCode = codeEvents (texts.flatMap recut) := by
  simp [codeEvents, Event.recutCode, List.flatMap_map, List.map_flatMap]

theorem endedRows_codeEvents (texts : List (List Char)) :
    Segment.endedRows (.leaf .codeBlock (codeEvents texts)) = (texts.map endedRows).sum := by
  have text : (codeEvents texts).filterMap Event.text? = texts.map String.ofList := by
    simp [codeEvents, Event.text?, List.filterMap_cons, List.filterMap_map, Function.comp_def]
  rw [Segment.endedRows, text, List.map_map]
  simp [Function.comp_def]

theorem Segment.recut_leaf {tag : Tag} (other : tag ≠ .codeBlock) (es : List Event) :
    recut (.leaf tag es) = .leaf tag (es.flatMap Event.recut) ∧ endedRows (.leaf tag es) = 0 := by
  cases tag <;> first | exact absurd rfl other | exact ⟨rfl, rfl⟩

namespace Renderer.IsAhead

/-- Outside of code nothing changes what is shown. -/
theorem recut (h : r.IsAhead n r') {e : Event} (plain : e.IsPlain) :
    (r.handle e).IsAhead n (e.recut.foldl Renderer.handle r') := by
  cases plain with
  | @html cs line =>
    have last : (String.ofList cs).toList.getLast? ≠ some '\n' := fun last =>
      line (by simpa using List.mem_of_getLast? last)
    rw [Event.recut, if_neg last]
    exact h.handle _
  | @htmlLine cs line plain =>
    rw [Event.recut, if_pos (by simp)]
    simpa [Renderer.handle] using h.htmlLine_recut line fun last => plain (List.mem_of_getLast? last)
  | @inlineHtml cs plain =>
    have same (r : Renderer) : r.html (String.ofList (withReturns cs)) = r.html (String.ofList cs) := by
      rw [Renderer.html, splitLines_withReturns plain]
      rfl
    rw [Event.recut, String.toList_ofList, List.foldl_cons, List.foldl_nil, Renderer.handle, Renderer.handle,
      same]
    exact h.html _
  | other other =>
    have same : e.recut = [e] := by
      cases e with
      | html s => exact absurd rfl (other s).1
      | inlineHtml s => exact absurd rfl (other s).2
      | _ => rfl
    rw [same]
    exact h.handle e

/-- A page is ahead by one line more for every row of code that is ended, and shows the same otherwise. -/
theorem segments (h : r.IsAhead n r') {segs : List Segment} (plain : ∀ seg ∈ segs, seg.IsPlain) :
    ((segs.flatMap Segment.events).foldl Renderer.handle r).IsAhead (n + (segs.map Segment.endedRows).sum)
      (((segs.map Segment.recut).flatMap Segment.events).foldl Renderer.handle r') := by
  induction segs generalizing n r r' with
  | nil => exact h
  | cons seg segs ih =>
    obtain ⟨here, rest⟩ := List.forall_mem_cons.1 plain
    rw [List.map_cons, List.map_cons, List.flatMap_cons, List.flatMap_cons, List.foldl_append,
      List.foldl_append, List.sum_cons, ← Nat.add_assoc]
    refine ih ?_ rest
    cases here with
    | edge e => exact h.handle e
    | code texts =>
      rw [endedRows_codeEvents, Segment.recut, recut_codeEvents]
      exact h.code texts
    | @leaf tag es other all =>
      obtain ⟨same, none⟩ := Segment.recut_leaf other es
      rw [same, none]
      clear same none plain rest ih
      dsimp only [Segment.events]
      induction es generalizing r r' with
      | nil => exact h
      | cons e es ih =>
        obtain ⟨here, rest⟩ := List.forall_mem_cons.1 all
        rw [List.foldl_cons, List.flatMap_cons, List.foldl_append]
        exact ih (h.recut here) rest

end Renderer.IsAhead

theorem length_dropBlank (lines : List Line) :
    ((lines.reverse.dropWhile Line.isBlank).reverse).length + blanksBehind lines = lines.length := by
  have all := congrArg List.length (List.takeWhile_append_dropWhile (p := Line.isBlank) (l := lines.reverse))
  rw [List.length_append, List.length_reverse] at all
  rw [List.length_reverse, blanksBehind]
  omega

theorem IsAlike.dropBlank (h : List.Forall₂ IsAlike lines lines') :
    List.Forall₂ IsAlike (lines.reverse.dropWhile Line.isBlank).reverse
      (lines'.reverse.dropWhile Line.isBlank).reverse := by
  have back := List.forall₂_reverse_iff.2 h
  generalize lines.reverse = back at *
  generalize lines'.reverse = back' at *
  refine List.forall₂_reverse_iff.2 ?_
  induction back with
  | nil => exact .nil
  | cons same rest ih =>
    rw [List.dropWhile_cons, List.dropWhile_cons, same.blank]
    split
    · exact ih
    · exact .cons same rest

/-- What is shown at the end is longer by as many lines. -/
theorem Renderer.IsAhead.finish (h : r.IsAhead n r') : r'.finish.length = r.finish.length + n ∧
    (n = 0 → List.Forall₂ IsAlike r.finish r'.finish) := by
  have flushed := h.flush
  unfold Renderer.finish
  generalize r.flush = q at flushed ⊢
  generalize r'.flush = q' at flushed ⊢
  cases flushed with
  | @intro lines spans line longer =>
    refine ⟨?_, fun zero => IsAlike.dropBlank (longer.alike zero)⟩
    have left := length_dropBlank q.lines
    have right := length_dropBlank lines
    rw [← longer.blanks, longer.length] at right
    dsimp only
    omega

/-- What carriage returns in front of the line ends change, once a text has been read: a line more for each
row of code with anything on it that is ended, and nothing else. -/
theorem renderEvents_recut {segs : List Segment} (plain : ∀ seg ∈ segs, seg.IsPlain) (width : Nat)
    (styles : Styles) :
    (renderEvents ((segs.map Segment.recut).flatMap Segment.events) width styles).length =
        (renderEvents (segs.flatMap Segment.events) width styles).length +
          (segs.map Segment.endedRows).sum ∧
      ((renderEvents ((segs.map Segment.recut).flatMap Segment.events) width styles).map Line.chars =
          (renderEvents (segs.flatMap Segment.events) width styles).map Line.chars ↔
        (segs.map Segment.endedRows).sum = 0) := by
  have start : ({ styles, width } : Renderer).IsAhead 0 { styles, width } :=
    .intro (.refl _) ⟨rfl, rfl, Iff.rfl, fun _ => .nil⟩
  have run := start.segments plain
  rw [Nat.zero_add] at run
  obtain ⟨length, alike⟩ := run.finish
  refine ⟨length, fun same => ?_, fun zero => ?_⟩
  · have lengths := congrArg List.length same
    rw [List.length_map, List.length_map] at lengths
    exact Nat.add_left_cancel (length.symm.trans (lengths.trans (Nat.add_zero _).symm))
  · exact (IsAlike.map_chars (alike zero)).symm

end PublisherConsole.Markdown
