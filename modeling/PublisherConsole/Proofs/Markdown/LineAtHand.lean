import PublisherConsole.Proofs.Markdown.Inlines
import PublisherConsole.Proofs.Markdown.Markers
import PublisherConsole.Proofs.Markdown.Nesting

/-!
# The line at hand

Whether a line has been started when an event is taken settles what the event puts in front of its
text, and whether its text goes on a line that has text already. `Event.leavesStarted` says so from the
events alone (`Renderer.isEmpty_spans_foldl`).
-/

namespace PublisherConsole.Markdown

/-- Whether the line at hand ends where an element starts. -/
def Tag.breaksBefore : Tag → Bool
  | .heading _ | .codeBlock | .list _ | .item | .quote => true
  | _ => false

/-- Whether the line at hand ends where an element stops. -/
def Tag.breaksBehind : Tag → Bool
  | .paragraph | .heading _ | .codeBlock | .list _ | .item | .tableHead | .tableRow | .quote => true
  | _ => false

/-- Whether a line has been started behind an event. What is written in a block of code ends its
lines. -/
def Event.leavesStarted (inCode started : Bool) : Event → Bool
  | .start tag => started && !tag.breaksBefore
  | .stop tag => started && !tag.breaksBehind
  | .hardBreak | .rule => false
  | e => if inCode && e.written?.isSome then started && !e.isInk inCode else started || e.isInk inCode

/-- Whether a block of code is open, and whether a line has been started, behind events. -/
def stateAfter (state : Bool × Bool) (events : List Event) : Bool × Bool :=
  events.foldl (fun (inCode, started) e => (e.leavesCode inCode, e.leavesStarted inCode started)) state

/-- Whether a line has been started behind events. -/
def hasStarted (events : List Event) : Bool := (stateAfter (false, false) events).2

namespace Renderer

variable (r : Renderer)

theorem spans_prepare_push (s : String) (style : Screen.Style) : (r.prepare.push s style).spans ≠ [] := by
  simp [push]

/-- Lines of code end. -/
theorem spans_foldl_codeLine {lines : List String} (h : lines ≠ []) :
    (lines.foldl codeLine r).spans = [] := by
  obtain ⟨before, last, rfl⟩ := List.eq_nil_or_concat lines |>.resolve_left h
  simp [codeLine, flush_eq]

theorem spans_foldl_htmlLine (parts : List String) (h : r.spans ≠ []) :
    (parts.foldl htmlLine r).spans ≠ [] := by
  induction parts generalizing r with
  | nil => exact h
  | cons part rest ih => exact ih _ (r.flush.spans_prepare_push _ _)

theorem isEmpty_spans_text (s : String) : (r.text s).spans.isEmpty =
    !(if r.inCode then !r.spans.isEmpty && s = "" else true) := by
  unfold text
  cases code : r.inCode with
  | false => simpa using r.spans_prepare_push _ _
  | true =>
    by_cases none : s = ""
    · simp [none, splitLines_eq_nil_iff.2]
    · simp [none, spans_foldl_codeLine _ (mt splitLines_eq_nil_iff.1 none)]

theorem isEmpty_spans_html (s : String) :
    (r.html s).spans.isEmpty = !(!r.spans.isEmpty || s ≠ "") := by
  unfold html
  cases lines : Text.splitLines s with
  | nil => simp [splitLines_eq_nil_iff.1 lines]
  | cons first rest =>
    have some : s ≠ "" := fun none => by simp [splitLines_eq_nil_iff.2 none] at lines
    have ne := spans_foldl_htmlLine _ rest (r.spans_prepare_push first r.styles.html)
    simp only [some, ne_eq, not_false_eq_true, decide_true, Bool.or_true, Bool.not_true,
      List.isEmpty_eq_false_iff]
    exact ne

/-- **Whether a line has been started can be told from the events.** -/
theorem isEmpty_spans_handle (e : Event) :
    (r.handle e).spans.isEmpty = !e.leavesStarted r.inCode (!r.spans.isEmpty) := by
  have written (s : String) (verbatim : (Event.text s).isInk r.inCode = (!r.inCode || s ≠ "")) :
      (r.text s).spans.isEmpty = !(Event.text s).leavesStarted r.inCode (!r.spans.isEmpty) := by
    rw [isEmpty_spans_text]
    simp only [Event.leavesStarted, verbatim]
    cases r.inCode <;> simp [Event.written?]
  cases e with
  | start tag =>
    cases tag with
    | tableCell =>
      by_cases empty : r.spans.isEmpty <;>
        simp [handle, start, push, Event.leavesStarted, Tag.breaksBefore, empty]
    | _ => simp [handle, start, enter, flush_eq, Event.leavesStarted, Tag.breaksBefore]
  | stop tag =>
    cases tag <;> simp [handle, stop, leave, flush_eq, Event.leavesStarted, Tag.breaksBehind,
      apply_ite Renderer.spans]
  | text s => exact written s (by simp [Event.isInk, Event.text?, Event.isVerbatim])
  | softBreak =>
    exact written " " (by simp [Event.isInk, Event.text?, Event.isVerbatim])
  | footnote name =>
    exact written ("[^" ++ name ++ "]") (by simp [Event.isInk, Event.text?, Event.isVerbatim])
  | code s => simp [handle, push, Event.leavesStarted, Event.written?, Event.isInk, Event.text?,
      Event.isVerbatim]
  | html s | inlineHtml s =>
    refine (r.isEmpty_spans_html s).trans ?_
    simp [Event.leavesStarted, Event.written?, Event.isInk, Event.text?, Event.isVerbatim]
  | hardBreak => simp [handle, flush_eq, Event.leavesStarted]
  | rule => simp [handle, rule, flush_eq, Event.leavesStarted]
  | task checked => simp [handle, Event.leavesStarted, Event.written?, Event.isInk, Event.text?]

theorem isEmpty_spans_foldl (events : List Event) :
    ((events.foldl handle r).inCode, !(events.foldl handle r).spans.isEmpty) =
      stateAfter (r.inCode, !r.spans.isEmpty) events := by
  induction events generalizing r with
  | nil => rfl
  | cons e es ih =>
    rw [List.foldl_cons, ih, inCode_handle, isEmpty_spans_handle, Bool.not_not]
    rfl

end Renderer

/-! ### Blocks of code -/

/-- Whether a block of code is open behind events. -/
def leavesCode (inCode : Bool) (events : List Event) : Bool :=
  events.foldl (fun inCode e => e.leavesCode inCode) inCode

theorem leavesCode_append (inCode : Bool) (es es' : List Event) :
    leavesCode inCode (es ++ es') = leavesCode (leavesCode inCode es) es' := List.foldl_append

/-- An event that starts no table and neither opens nor closes a block of code. -/
structure Event.IsAside (e : Event) : Prop where
  table : e ≠ .start .table
  code : ∀ inCode, e.leavesCode inCode = inCode

theorem leavesCode_of_forall {es : List Event} (h : ∀ e ∈ es, e.IsAside) (inCode : Bool) :
    leavesCode inCode es = inCode := by
  induction es generalizing inCode with
  | nil => rfl
  | cons e es ih =>
    obtain ⟨here, rest⟩ := List.forall_mem_cons.1 h
    rw [leavesCode, List.foldl_cons, here.code]
    exact ih rest inCode

/-- The text of a leaf starts no table. -/
theorem isAside_of_mem_leaf (c : StreamContext) (inTable : Bool) (l : Leaf) :
    ∀ e ∈ c.leaf inTable l, e.IsAside := by
  have law : HoldsOfEvents ⟨c.source.upTo l.stop, c.path, inTable, c.labels⟩ (fun _ => True)
      Event.IsAside :=
    { start := fun h => by cases h <;> exact ⟨nofun, fun _ => rfl⟩
      stop := fun h => by cases h <;> exact ⟨nofun, fun _ => rfl⟩
      text := fun _ => ⟨nofun, fun _ => rfl⟩
      code := fun _ => ⟨nofun, fun _ => rfl⟩
      softBreak := fun _ _ => ⟨nofun, fun _ => rfl⟩
      hardBreak := fun _ _ => ⟨nofun, fun _ => rfl⟩
      html := fun _ _ _ _ => ⟨nofun, fun _ => rfl⟩
      cut := fun _ _ => trivial
      stale := fun _ => trivial }
  exact law.settle fun _ _ => trivial

namespace Renderer

theorem inCode_foldl (r : Renderer) (events : List Event) :
    (events.foldl handle r).inCode = leavesCode r.inCode events := by
  induction events generalizing r with
  | nil => rfl
  | cons e es ih =>
    rw [List.foldl_cons, ih, inCode_handle]
    rfl

end Renderer

end PublisherConsole.Markdown
