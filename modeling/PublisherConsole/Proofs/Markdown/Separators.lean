import Mathlib.Data.List.Chain
import Mathlib.Data.List.DropRight
import PublisherConsole.Proofs.Markdown.Marks

/-!
# Blank lines stand between other lines

A blank line sets a block of the document apart from what follows. Events put one down at many places,
whatever came before and whether or not the elements are well nested, and yet no blank line comes first
and none comes behind another one: the lines are spaced (`IsSpaced`).

A renderer adds lines in two ways only, a line that has spans and a separator behind such a line, and both
leave the lines spaced. So every event does (`IsSpaced.handle`), and so do all of them. What is behind the
last line with spans is taken off at the end (`IsSpaced.trimmed`).

The main statement is `blank_lines_stand_between`.
-/

namespace PublisherConsole.Markdown

open Screen (Line)

/-- No line without spans is the first one or comes behind another one. -/
structure IsSpaced (lines : List Line) : Prop where
  first : ∀ l ∈ lines.head?, l.spans ≠ []
  apart : lines.IsChain fun a b => a.spans ≠ [] ∨ b.spans ≠ []

namespace IsSpaced

variable {lines : List Line} {l : Line} {r : Renderer}

theorem nil : IsSpaced [] := ⟨nofun, .nil⟩

/-- One more line: it has spans, or there are some in the line before it. -/
theorem concat (h : IsSpaced lines)
    (hl : l.spans ≠ [] ∨ ∃ last, lines.getLast? = some last ∧ last.spans ≠ []) :
    IsSpaced (lines ++ [l]) where
  first := by
    cases lines with
    | nil => simpa using hl
    | cons first others => simpa using h.first
  apart := h.apart.append (.singleton l) fun a ha b hb => by
    obtain rfl : l = b := by simpa using hb
    refine hl.symm.imp_left ?_
    rintro ⟨last, hlast, spans⟩
    rwa [Option.some.inj (ha.symm.trans hlast)]

/-- A part at the front of spaced lines is spaced. -/
theorem front {front : List Line} (h : IsSpaced lines) (hfront : front <+: lines) :
    IsSpaced front where
  first l hl := by
    obtain ⟨behind, rfl⟩ := hfront
    exact h.first l (List.mem_head?_append_of_mem_head? hl)
  apart := h.apart.prefix hfront

/-- Without the blank lines at the end, the last line has spans as well. -/
theorem trimmed (h : IsSpaced lines) :
    IsSpaced (lines.rdropWhile Line.isBlank) ∧
      ∀ l ∈ (lines.rdropWhile Line.isBlank).getLast?, l.spans ≠ [] := by
  refine ⟨h.front (List.rdropWhile_prefix _ _), fun l hl => ?_⟩
  obtain ⟨hne, rfl⟩ := List.mem_getLast?_eq_getLast hl
  simpa [Line.isBlank] using List.rdropWhile_last_not Line.isBlank lines hne

/-! ### What adds a line -/

/-- The line at hand has spans when it is ended. -/
theorem flush (h : IsSpaced r.lines) : IsSpaced r.flush.lines := by
  rw [Renderer.flush_eq]
  dsimp only
  split
  next => exact h
  next some => exact h.concat (.inl fun none => some (List.isEmpty_iff.2 none))

/-- A separator is put behind a line that has spans, and nowhere else. -/
theorem blank (h : IsSpaced r.lines) : IsSpaced r.blank.lines := by
  unfold Renderer.blank
  split
  next last hlast =>
    split
    next => exact h
    next spans =>
      refine h.concat (.inr ⟨last, hlast, fun none => spans ?_⟩)
      exact List.isEmpty_iff.2 none
  next => exact h

/-- A rule is a span, so a separator may come behind it. -/
theorem rule (h : IsSpaced r.lines) : IsSpaced r.rule.lines := by
  unfold Renderer.rule
  exact blank (h.flush.concat (.inl (List.cons_ne_nil _ _)))

end IsSpaced

namespace Renderer

variable (r : Renderer)

/-! ### What does not -/

theorem lines_prepare : r.prepare.lines = r.lines := by rw [prepare_eq]

theorem lines_push (text : String) (style : Screen.Style) : (r.push text style).lines = r.lines := rfl

end Renderer

namespace IsSpaced

variable {r : Renderer}

theorem foldl {f : Renderer → String → Renderer} (step : ∀ r s, IsSpaced r.lines → IsSpaced (f r s).lines)
    (h : IsSpaced r.lines) (parts : List String) : IsSpaced (parts.foldl f r).lines := by
  induction parts generalizing r with
  | nil => exact h
  | cons part parts ih => exact ih (step r part h)

/-- A span on the line at hand, behind what the start of the line is owed. -/
theorem span (h : IsSpaced r.lines) (text : String) (style : Screen.Style) :
    IsSpaced (r.prepare.push text style).lines := by
  rwa [Renderer.lines_push, Renderer.lines_prepare]

theorem text (h : IsSpaced r.lines) (s : String) : IsSpaced (r.text s).lines := by
  unfold Renderer.text
  split
  · exact h.foldl (fun r line h => (h.span _ _).flush) _
  · exact h.span _ _

theorem html (h : IsSpaced r.lines) (s : String) : IsSpaced (r.html s).lines := by
  unfold Renderer.html
  split
  · exact h
  · exact (h.span _ _).foldl (fun r part h => h.flush.span _ _) _

/-- The start of an element ends the line at hand, or leaves all lines alone. -/
theorem start (h : IsSpaced r.lines) (tag : Tag) : IsSpaced (r.start tag).lines := by
  cases tag with
  | heading | codeBlock | list | item | quote => exact h.flush
  | tableCell =>
    rw [Renderer.start]
    split <;> exact h
  | _ => exact h

/-- The end of an element ends the line at hand, and may set it apart from what follows. -/
theorem stop (h : IsSpaced r.lines) (tag : Tag) : IsSpaced (r.stop tag).lines := by
  -- Whether a separator follows depends on what is still open.
  have apart {r : Renderer} (h : IsSpaced r.lines) {p : Prop} [Decidable p] :
      IsSpaced (if p then r.blank else r).lines := by
    split
    · exact h.blank
    · exact h
  cases tag with
  | heading | codeBlock => exact blank h.flush
  | list => exact apart (r := { r.flush with lists := r.flush.lists.dropLast }) h.flush
  | quote => exact apart (r := { r.flush with quotes := r.flush.quotes - 1 }) h.flush
  | paragraph => exact apart h.flush
  | item | tableHead | tableRow => exact h.flush
  | table => exact h.blank
  | _ => exact h

/-- **Every event leaves the lines spaced.** -/
theorem handle (h : IsSpaced r.lines) (e : Event) : IsSpaced (r.handle e).lines := by
  cases e with
  | start tag => exact h.start tag
  | stop tag => exact h.stop tag
  | text s | footnote s => exact h.text _
  | html s | inlineHtml s => exact h.html s
  | code s => exact h.span _ _
  | softBreak => exact h.text " "
  | hardBreak => exact h.flush
  | rule => exact h.rule
  | task checked => exact h

theorem run (h : IsSpaced r.lines) (events : List Event) :
    IsSpaced (events.foldl Renderer.handle r).lines := by
  induction events generalizing r with
  | nil => exact h
  | cons e events ih => exact ih (h.handle e)

end IsSpaced

/-- **Blank lines stand between other lines.** Whatever the events are, well nested or not, and whatever
the width, the first line has spans and so has the last one, and of two lines that follow each other one
has spans. -/
theorem blank_lines_stand_between (events : List Event) (width : Nat) (styles : Styles) :
    let lines := renderEvents events width styles
    (∀ l ∈ lines.head?, l.spans ≠ []) ∧ (∀ l ∈ lines.getLast?, l.spans ≠ []) ∧
      lines.IsChain fun a b => a.spans ≠ [] ∨ b.spans ≠ [] := by
  have done : IsSpaced (events.foldl Renderer.handle { styles, width }).flush.lines :=
    (IsSpaced.nil.run events).flush
  obtain ⟨spaced, last⟩ := done.trimmed
  exact ⟨spaced.first, last, spaced.apart⟩

end PublisherConsole.Markdown
