import PublisherConsole.Proofs.Markdown.Segments

/-!
# Leaves on the page

A `Sheet` is a page on which every mark has the number of the segment that it comes from. `Sheet.IsApart`
says that no line has text of two segments, and `Sheet.linesOf` has what a segment shows, line by line.

What has been started by one leaf is ended by it or by the next one only if one of them ends its line.
`staysApart` follows the line at hand from segment to segment and says whether any leaf goes on with the
line of another one. The main statement is `blocks_stay_apart_iff`; for a block of HTML it says too
that its lines are shown one by one only if there is no more than one.
-/

namespace PublisherConsole.Markdown

open Screen (Line)

/-! ### Sheets -/

/-- What was put down, with the number of the segment that each mark comes from: the lines so far, and
the line at hand. -/
structure Sheet where
  lines : List (List (Nat × Mark))
  line : List (Nat × Mark)
  deriving Repr

namespace Sheet

def blank : Sheet := ⟨[], []⟩

/-- Put a mark of a segment down. -/
def put (n : Nat) (s : Sheet) : Mark → Sheet
  | .lineEnd => ⟨s.lines ++ [s.line], []⟩
  | .gap => ⟨s.lines ++ [[]], s.line⟩
  | m => ⟨s.lines, s.line ++ [(n, m)]⟩

/-- Put marks of a segment down. -/
def putAll (n : Nat) (s : Sheet) (ms : List Mark) : Sheet := ms.foldl (put n) s

/-- Put segments down, and number them. -/
def write (s : Sheet) (n : Nat) (r : Renderer) : List Segment → Sheet
  | [] => s
  | seg :: segs =>
    (s.putAll n (r.blocks seg.events).flatten).write (n + 1) (seg.events.foldl Renderer.handle r) segs

/-- All lines, with the one at hand. -/
def all (s : Sheet) : List (List (Nat × Mark)) := s.lines ++ [s.line]

/-- The page without the numbers. -/
def page (styles : Styles) (s : Sheet) : Page :=
  let spans (l : List (Nat × Mark)) : List Screen.Span := l.map fun (_, m) => ⟨m.shown, m.style styles⟩
  ⟨s.lines.map fun l => ⟨spans l⟩, spans s.line⟩

/-- The numbers of the segments that have text on a line. -/
def holders (l : List (Nat × Mark)) : List Nat :=
  l.filterMap fun (n, m) => m.payload?.map fun _ => n

/-- The texts that a segment has on a line. -/
def textsOf (n : Nat) (l : List (Nat × Mark)) : List String :=
  l.filterMap fun (k, m) => if k = n then m.payload? else none

/-- No line has text of two segments. -/
def IsApart (s : Sheet) : Prop := ∀ l ∈ s.all, ∀ a ∈ holders l, ∀ b ∈ holders l, a = b

/-- What a segment shows on each line where it has text. -/
def linesOf (n : Nat) (s : Sheet) : List String :=
  s.all.filterMap fun l => if textsOf n l = [] then none else some (String.join (textsOf n l))

end Sheet

/-- Whether the first text of events goes on with a line that has been started before. -/
def meets (inCode started : Bool) : List Event → Bool
  | [] => false
  | e :: es =>
    if e.isInk inCode then started
    else meets (e.leavesCode inCode) (e.leavesStarted inCode started) es

/-- Whether no leaf goes on with the line of another one. -/
def staysApart (state : Bool × Bool) : List Segment → Bool
  | [] => true
  | .edge e :: segs => staysApart (stateAfter state [e]) segs
  | .leaf _ es :: segs => !meets state.1 state.2 es && staysApart (stateAfter state es) segs

/-- The lines of a source, without their line feeds. -/
def sourceLines (s : String) : List String :=
  let rows := Text.splitRows s.toList
  (rows.dropLast ++ if (rows.getLastD []).isEmpty then [] else [rows.getLastD []]).map String.ofList

/-- The source of a block of HTML, from its parts. -/
def htmlSource (es : List Event) : String := String.join (es.filterMap Event.text?)

/-! ### Putting marks down -/

namespace Sheet

variable {s : Sheet} {n k : Nat} {m : Mark} {ms : List Mark} {styles : Styles}

theorem page_put (styles : Styles) (s : Sheet) (n : Nat) (m : Mark) :
    (s.put n m).page styles = (s.page styles).put styles m := by
  cases m <;> simp [put, page, Page.put, Line.blank]

theorem page_putAll (styles : Styles) (s : Sheet) (n : Nat) (ms : List Mark) :
    (s.putAll n ms).page styles = ms.foldl (Page.put styles) (s.page styles) := by
  induction ms generalizing s with
  | nil => rfl
  | cons m ms ih => rw [putAll, List.foldl_cons, ← putAll, ih, page_put, List.foldl_cons]

theorem putAll_append (ms ms' : List Mark) :
    s.putAll n (ms ++ ms') = (s.putAll n ms).putAll n ms' := List.foldl_append

theorem holders_append (l l' : List (Nat × Mark)) : holders (l ++ l') = holders l ++ holders l' :=
  List.filterMap_append

/-- All holders of a line are one. -/
def IsOne (l : List (Nat × Mark)) : Prop := ∀ a ∈ holders l, ∀ b ∈ holders l, a = b

theorem isApart_iff : s.IsApart ↔ (∀ l ∈ s.lines, IsOne l) ∧ IsOne s.line := by
  rw [IsApart, all, List.forall_mem_append, List.forall_mem_singleton]
  rfl

/-- All text on the line at hand is of one segment. -/
def IsOf (n : Nat) (s : Sheet) : Prop := ∀ a ∈ holders s.line, a = n

/-- What shows no text changes the holders of the line at hand only by ending it. -/
theorem put_of_payload?_none (h : m.payload? = none) :
    ((s.put n m).IsApart ↔ s.IsApart) ∧ holders (s.put n m).line ⊆ holders s.line := by
  have empty : IsOne [] := by simp [IsOne, holders]
  have same : holders (s.line ++ [(n, m)]) = holders s.line := by
    rw [holders_append]
    simp [holders, h]
  -- Marks other than those for the ends of lines go on the line at hand.
  have onLine (put : s.put n m = ⟨s.lines, s.line ++ [(n, m)]⟩) :
      ((s.put n m).IsApart ↔ s.IsApart) ∧ holders (s.put n m).line ⊆ holders s.line := by
    rw [put, isApart_iff, isApart_iff, IsOne, same]
    exact ⟨.rfl, fun _ => id⟩
  cases m with
  | lineEnd =>
    refine ⟨?_, by simp [put, holders]⟩
    rw [put, isApart_iff, isApart_iff, List.forall_mem_append, List.forall_mem_singleton]
    exact and_iff_left empty
  | gap =>
    refine ⟨?_, fun _ => id⟩
    rw [put, isApart_iff, isApart_iff, List.forall_mem_append, List.forall_mem_singleton,
      and_iff_left empty]
  | bars | marker | divider | rule => exact onLine rfl
  | _ => cases h

/-- Text is put on the line at hand. -/
theorem put_of_payload?_some {text : String} (h : m.payload? = some text) :
    s.put n m = ⟨s.lines, s.line ++ [(n, m)]⟩ := by
  cases m <;> first | rfl | cases h

theorem holders_put_of_payload?_some {text : String} (h : m.payload? = some text) :
    holders (s.put n m).line = holders s.line ++ [n] := by
  rw [put_of_payload?_some h, holders_append]
  simp [holders, h]

/-- Text keeps lines apart exactly if the line at hand has no text of another segment. -/
theorem isApart_put_of_payload?_some {text : String} (h : m.payload? = some text) :
    (s.put n m).IsApart ↔ s.IsApart ∧ s.IsOf n := by
  have held := holders_put_of_payload?_some (s := s) (n := n) h
  have lines : (s.put n m).lines = s.lines := by rw [put_of_payload?_some h]
  rw [isApart_iff, isApart_iff, IsOne, held, lines, and_assoc]
  refine and_congr_right fun _ => ⟨fun one => ⟨fun a ha b hb => ?_, fun a ha => ?_⟩, ?_⟩
  · exact one a (List.mem_append_left _ ha) b (List.mem_append_left _ hb)
  · exact one a (List.mem_append_left _ ha) n (List.mem_append_right _ List.mem_cons_self)
  · rintro ⟨-, own⟩ a ha b hb
    have all : ∀ c ∈ holders s.line ++ [n], c = n :=
      List.forall_mem_append.2 ⟨own, List.forall_mem_singleton.2 rfl⟩
    rw [all a ha, all b hb]

theorem isApart_of_putAll (h : (s.putAll n ms).IsApart) : s.IsApart := by
  induction ms generalizing s with
  | nil => exact h
  | cons m ms ih =>
    have here : (s.put n m).IsApart := ih h
    cases text : m.payload? with
    | none => exact (put_of_payload?_none text).1.1 here
    | some _ => exact ((isApart_put_of_payload?_some text).1 here).1

theorem holders_putAll : holders (s.putAll n ms).line ⊆ n :: holders s.line := by
  induction ms generalizing s with
  | nil => exact List.subset_cons_self ..
  | cons m ms ih =>
    have here : holders (s.put n m).line ⊆ n :: holders s.line := by
      cases text : m.payload? with
      | none => exact List.Subset.trans (put_of_payload?_none text).2 (List.subset_cons_self ..)
      | some _ => simp [holders_put_of_payload?_some text]
    exact List.Subset.trans ih (List.cons_subset.2 ⟨List.mem_cons_self, here⟩)

/-- What shows no text leaves lines apart that are apart. -/
theorem putAll_of_payload?_none (h : ∀ m ∈ ms, m.payload? = none) :
    ((s.putAll n ms).IsApart ↔ s.IsApart) ∧ holders (s.putAll n ms).line ⊆ holders s.line := by
  induction ms generalizing s with
  | nil => exact ⟨.rfl, fun _ => id⟩
  | cons m ms ih =>
    obtain ⟨here, rest⟩ := List.forall_mem_cons.1 h
    obtain ⟨apart, held⟩ := put_of_payload?_none (s := s) (n := n) here
    obtain ⟨apart', held'⟩ := ih (s := s.put n m) rest
    exact ⟨apart'.trans apart, List.Subset.trans held' held⟩

theorem IsOf.put (h : s.IsOf n) (m : Mark) : (s.put n m).IsOf n := by
  have held : holders (s.putAll n [m]).line ⊆ n :: holders s.line := holders_putAll
  exact fun a ha => (List.mem_cons.1 (held ha)).elim id (h a)

/-- A segment may go on with a line that has no text of another one. -/
theorem IsOf.putAll (h : s.IsOf n) : ((s.putAll n ms).IsApart ↔ s.IsApart) ∧ (s.putAll n ms).IsOf n := by
  refine ⟨?_, fun a ha => (List.mem_cons.1 (holders_putAll ha)).elim id (h a)⟩
  induction ms generalizing s with
  | nil => exact .rfl
  | cons m ms ih =>
    refine (ih (h.put m)).trans ?_
    cases text : m.payload? with
    | none => exact (put_of_payload?_none text).1
    | some _ =>
      rw [isApart_put_of_payload?_some text]
      exact and_iff_left h

end Sheet

/-! ### Events on a sheet -/

theorem Mark.IsLead.payload?_none {m : Mark} (h : m.IsLead) : m.payload? = none := by
  cases m <;> first | rfl | exact h.elim

/-- What shows a text at all shows its first piece on the line at hand. -/
theorem Spread.exists_lead {piece : String} {pieces : List String} {ms : List Mark}
    (h : Spread (piece :: pieces) ms) : ∃ lead m rest, ms = lead ++ m :: rest ∧
      (∀ l ∈ lead, l.IsLead) ∧ m.payload? = some piece := by
  cases h with
  | last leads shows => exact ⟨_, _, [], rfl, leads, shows⟩
  | broken leads shows _ => exact ⟨_, _, _, rfl, leads, shows⟩

/-- What the start of a line is owed holds no line. -/
theorem Sheet.holders_putAll_of_isLead {s : Sheet} {n : Nat} {lead : List Mark}
    (leads : ∀ l ∈ lead, l.IsLead) : holders (s.putAll n lead).line = holders s.line := by
  induction lead generalizing s with
  | nil => rfl
  | cons m lead ih =>
    obtain ⟨here, rest⟩ := List.forall_mem_cons.1 leads
    refine (ih (s := s.put n m) rest).trans ?_
    have put : s.put n m = ⟨s.lines, s.line ++ [(n, m)]⟩ := by
      cases m <;> first | rfl | exact here.elim
    rw [put, holders_append]
    simp [holders, here.payload?_none]

namespace Renderer

variable (r : Renderer)

/-- What is written of a text: nothing, or its lines or all of it. -/
theorem textMarks_cases (s : String) : (r.inCode = true ∧ s = "" ∧ r.textMarks s = []) ∨
    ((r.inCode = false ∨ s ≠ "") ∧ ∃ piece pieces, Spread (piece :: pieces) (r.textMarks s)) := by
  unfold textMarks
  cases code : r.inCode with
  | false => exact .inr ⟨.inl rfl, s, [], .last (fun _ => r.isLead_of_mem_leadMarks) rfl⟩
  | true =>
    have spread := r.spread_codeMarks (Text.splitLines s)
    cases lines : Text.splitLines s with
    | nil => exact .inl ⟨rfl, splitLines_eq_nil_iff.1 lines, rfl⟩
    | cons line rest =>
      rw [lines] at spread
      exact .inr ⟨.inr fun none => by simp [splitLines_eq_nil_iff.2 none] at lines, _, _, spread⟩

theorem htmlMarks_cases (s : String) : (s = "" ∧ r.htmlMarks s = []) ∨
    (s ≠ "" ∧ ∃ piece pieces, Spread (piece :: pieces) (r.htmlMarks s)) := by
  unfold htmlMarks
  cases lines : Text.splitLines s with
  | nil => exact .inl ⟨splitLines_eq_nil_iff.1 lines, rfl⟩
  | cons first rest =>
    refine .inr ⟨fun none => by simp [splitLines_eq_nil_iff.2 none] at lines, first, rest, ?_⟩
    exact spread_htmlLinesMarks _ (fun _ => r.isLead_of_mem_leadMarks) rfl (by simp [push]) rest

/-- The marks of an event are nothing that is text, or text behind what the start of a line is owed. -/
theorem marks_cases (e : Event) :
    (e.isInk r.inCode = false ∧ ∀ m ∈ r.marks e, m.payload? = none) ∨
      (e.isInk r.inCode = true ∧ ∃ piece pieces, Spread (piece :: pieces) (r.marks e)) := by
  have text (s : String) : ((!r.inCode || s ≠ "") = false ∧ ∀ m ∈ r.textMarks s, m.payload? = none) ∨
      ((!r.inCode || s ≠ "") = true ∧ ∃ piece pieces, Spread (piece :: pieces) (r.textMarks s)) := by
    rcases r.textMarks_cases s with ⟨code, none, nil⟩ | ⟨ink, spread⟩
    · exact .inl ⟨by simp [code, none], by simp [nil]⟩
    · exact .inr ⟨by simpa using ink, spread⟩
  have html (s : String) : (decide (s ≠ "") = false ∧ ∀ m ∈ r.htmlMarks s, m.payload? = none) ∨
      (decide (s ≠ "") = true ∧ ∃ piece pieces, Spread (piece :: pieces) (r.htmlMarks s)) := by
    rcases r.htmlMarks_cases s with ⟨none, nil⟩ | ⟨ink, spread⟩
    · exact .inl ⟨by simp [none], by simp [nil]⟩
    · exact .inr ⟨by simpa using ink, spread⟩
  cases e with
  | start tag => exact .inl ⟨rfl, r.shows_startMarks tag⟩
  | stop tag => exact .inl ⟨rfl, r.shows_stopMarks tag⟩
  | hardBreak => exact .inl ⟨rfl, r.shows_endMarks⟩
  | rule => exact .inl ⟨rfl, r.shows_marks .rule⟩
  | task checked => exact .inl ⟨rfl, by simp [marks]⟩
  | code s => exact .inr ⟨rfl, s, [], .last (fun _ => r.isLead_of_mem_leadMarks) rfl⟩
  | text s => exact text s
  | softBreak => exact text " "
  | footnote name => exact text _
  | html s | inlineHtml s => exact html s

end Renderer

namespace Sheet

variable {s : Sheet} {r : Renderer} {n : Nat}

/-- A line that has been started has text. -/
def IsHeld (s : Sheet) : Prop := s.line ≠ [] → holders s.line ≠ []

/-- The sheet of a renderer. -/
structure Tracks (s : Sheet) (r : Renderer) : Prop where
  page : s.page r.styles = r.page
  held : s.IsHeld

theorem Tracks.isEmpty_line (h : s.Tracks r) : r.spans.isEmpty = s.line.isEmpty := by
  have spans := congrArg (fun p : Page => p.spans.isEmpty) h.page
  simpa [Sheet.page, Renderer.page] using spans.symm

theorem isHeld_of_line_eq_nil (h : s.line = []) : s.IsHeld := fun some => absurd h some

/-- The ends of lines and blank lines start no line. -/
theorem IsHeld.breaks (h : s.IsHeld) {ms : List Mark} (breaks : ∀ m ∈ ms, m = .lineEnd ∨ m = .gap) :
    (s.putAll n ms).IsHeld := by
  induction ms generalizing s with
  | nil => exact h
  | cons m ms ih =>
    obtain ⟨here, rest⟩ := List.forall_mem_cons.1 breaks
    refine ih (s := s.put n m) ?_ rest
    rcases here with rfl | rfl
    · exact isHeld_of_line_eq_nil rfl
    · exact h

/-- A text that is shown holds its line, or the line has ended behind it. -/
theorem IsHeld.spread (h : s.IsHeld) {pieces : List String} {ms : List Mark} (spread : Spread pieces ms) :
    (s.putAll n ms).IsHeld := by
  induction spread generalizing s with
  | nil => exact h
  | last _ shows =>
    intro _
    rw [putAll_append]
    simp [putAll, holders_put_of_payload?_some shows]
  | broken _ _ _ ih =>
    rw [← List.singleton_append, ← List.append_assoc, ← List.singleton_append, ← List.append_assoc,
      putAll_append]
    exact ih (isHeld_of_line_eq_nil (by simp [putAll, put]))

theorem breaks_endMarks (r : Renderer) : ∀ m ∈ r.endMarks, m = .lineEnd ∨ m = .gap := by
  unfold Renderer.endMarks
  split <;> simp

theorem breaks_gapMarks (r : Renderer) : ∀ m ∈ r.gapMarks, m = .lineEnd ∨ m = .gap := by
  unfold Renderer.gapMarks
  split
  · split <;> simp
  · simp

theorem breaks_stopMarks (r : Renderer) (tag : Tag) :
    ∀ m ∈ r.stopMarks tag, m = .lineEnd ∨ m = .gap := by
  have apart {p : Prop} [Decidable p] :
      ∀ m ∈ if p then r.flush.gapMarks else [], m = .lineEnd ∨ m = .gap := by
    split
    · exact breaks_gapMarks _
    · simp
  cases tag with
  | heading | codeBlock => exact List.forall_mem_append.2 ⟨breaks_endMarks r, breaks_gapMarks _⟩
  | list | quote | paragraph => exact List.forall_mem_append.2 ⟨breaks_endMarks r, apart⟩
  | item | tableHead | tableRow => exact breaks_endMarks r
  | table => exact breaks_gapMarks r
  | _ => simp [Renderer.stopMarks]

theorem Tracks.handle (h : s.Tracks r) (n : Nat) (e : Event) :
    (s.putAll n (r.marks e)).Tracks (r.handle e) where
  page := by
    obtain ⟨page, styles⟩ := r.page_handle e
    rw [styles, page_putAll, h.page, page]
  held := by
    have shown {payload : List Char} {ms : List Mark} (shows : Shows (some payload) ms) :
        (s.putAll n ms).IsHeld := by
      obtain ⟨pieces, spread, -⟩ := shows
      exact h.held.spread spread
    cases e with
    | start tag =>
      cases tag with
      | heading | codeBlock | list | item | quote => exact h.held.breaks (breaks_endMarks r)
      | tableCell =>
        rw [Renderer.marks, Renderer.startMarks]
        split
        · exact h.held
        next some =>
          -- A divider is put down behind what is on the line only.
          have nonempty : s.line ≠ [] := by
            rw [h.isEmpty_line] at some
            exact mt List.isEmpty_iff.2 some
          intro _
          have held := h.held nonempty
          simpa [putAll, put, holders, Mark.payload?] using held
      | _ => exact h.held
    | stop tag => exact h.held.breaks (breaks_stopMarks r tag)
    | hardBreak => exact h.held.breaks (breaks_endMarks r)
    | rule =>
      rw [Renderer.marks, putAll_append]
      exact isHeld_of_line_eq_nil rfl
    | task checked => exact h.held
    | text s => exact shown (r.shows_marks (.text s))
    | code s => exact shown (r.shows_marks (.code s))
    | html s => exact shown (r.shows_marks (.html s))
    | inlineHtml s => exact shown (r.shows_marks (.inlineHtml s))
    | footnote name => exact shown (r.shows_marks (.footnote name))
    | softBreak => exact shown (r.shows_marks .softBreak)

/-- An event keeps lines apart unless its text goes on with a line of another segment. -/
theorem isApart_marks (s : Sheet) (n : Nat) (r : Renderer) (e : Event) :
    (s.putAll n (r.marks e)).IsApart ↔ s.IsApart ∧ (e.isInk r.inCode = true → s.IsOf n) := by
  rcases r.marks_cases e with ⟨dry, none⟩ | ⟨ink, piece, pieces, spread⟩
  · rw [(putAll_of_payload?_none none).1, dry]
    simp
  · obtain ⟨lead, m, rest, heq, leads, shows⟩ := spread.exists_lead
    have plain : ∀ l ∈ lead, l.payload? = none := fun l hl => (leads l hl).payload?_none
    have held : (s.putAll n lead).IsOf n ↔ s.IsOf n := by
      rw [IsOf, IsOf, holders_putAll_of_isLead leads]
    have first : ((s.putAll n lead).put n m).IsApart ↔ s.IsApart ∧ s.IsOf n := by
      rw [isApart_put_of_payload?_some shows, (putAll_of_payload?_none plain).1, held]
    have whole : s.putAll n (r.marks e) = ((s.putAll n lead).put n m).putAll n rest := by
      rw [heq, putAll_append]
      rfl
    rw [whole, ink]
    simp only [forall_const]
    constructor
    · exact fun apart => first.1 (isApart_of_putAll apart)
    · intro apart
      have own : ((s.putAll n lead).put n m).IsOf n := (held.2 apart.2).put m
      exact own.putAll.1.2 (first.2 apart)

/-- **A leaf keeps lines apart exactly if its text does not meet that of another one.** -/
theorem Tracks.isApart_leaf (h : s.Tracks r) (other : ∀ a ∈ holders s.line, a ≠ n) (es : List Event) :
    (s.putAll n (r.blocks es).flatten).IsApart ↔
      s.IsApart ∧ meets r.inCode (!r.spans.isEmpty) es = false := by
  induction es generalizing s r with
  | nil => simp [Renderer.blocks, putAll, meets]
  | cons e es ih =>
    have next := h.handle n e
    rw [Renderer.blocks, List.flatten_cons, putAll_append, meets]
    have here := isApart_marks s n r e
    cases ink : e.isInk r.inCode with
    | true =>
      rw [if_pos rfl]
      simp only [ink, forall_const] at here
      cases empty : r.spans.isEmpty with
      | true =>
        -- The line at hand has no text, so the leaf has it from now on.
        have own : s.IsOf n := by
          rw [h.isEmpty_line, List.isEmpty_iff] at empty
          simp [IsOf, empty, holders]
        rw [own.putAll.2.putAll.1, here]
        simp [own]
      | false =>
        have nonempty : s.line ≠ [] := by
          rw [h.isEmpty_line] at empty
          exact mt List.isEmpty_iff.2 (by simp [empty])
        obtain ⟨a, ha⟩ := List.exists_mem_of_ne_nil _ (h.held nonempty)
        have foreign : ¬ s.IsOf n := fun own => other a ha (own a ha)
        refine iff_of_false (fun apart => ?_) (by simp)
        exact foreign (here.1 (isApart_of_putAll apart)).2
    | false =>
      have dry : ∀ m ∈ r.marks e, m.payload? = none := by
        rcases r.marks_cases e with ⟨-, none⟩ | ⟨wet, -⟩
        · exact none
        · rw [ink] at wet
          cases wet
      have others : ∀ a ∈ holders (s.putAll n (r.marks e)).line, a ≠ n := fun a ha =>
        other a ((putAll_of_payload?_none dry).2 ha)
      rw [ih next others, here, Renderer.inCode_handle, Renderer.isEmpty_spans_handle, Bool.not_not, ink]
      simp

theorem Tracks.foldl (h : s.Tracks r) (n : Nat) (es : List Event) :
    (s.putAll n (r.blocks es).flatten).Tracks (es.foldl Renderer.handle r) := by
  induction es generalizing s r with
  | nil => exact h
  | cons e es ih =>
    rw [Renderer.blocks, List.flatten_cons, putAll_append]
    exact ih (h.handle n e)

theorem Tracks.write (h : s.Tracks r) (n : Nat) (segs : List Segment) :
    (s.write n r segs).Tracks ((segs.flatMap Segment.events).foldl Renderer.handle r) := by
  induction segs generalizing s r n with
  | nil => exact h
  | cons seg segs ih =>
    rw [Sheet.write, List.flatMap_cons, List.foldl_append]
    exact ih (h.foldl n seg.events) (n + 1)

/-- Segments keep lines apart exactly if no leaf meets the text of another one. -/
theorem Tracks.isApart_write {segs : List Segment} (h : s.Tracks r)
    (below : ∀ a ∈ holders s.line, a < n) (sound : ∀ seg ∈ segs, seg.IsSound) :
    (s.write n r segs).IsApart ↔
      s.IsApart ∧ staysApart (r.inCode, !r.spans.isEmpty) segs = true := by
  induction segs generalizing s r n with
  | nil => simp [Sheet.write, staysApart]
  | cons seg segs ih =>
    obtain ⟨here, rest⟩ := List.forall_mem_cons.1 sound
    have next := h.foldl n seg.events
    have belowNext : ∀ a ∈ holders (s.putAll n (r.blocks seg.events).flatten).line, a < n + 1 := by
      intro a ha
      rcases List.mem_cons.1 (holders_putAll ha) with rfl | ha
      · exact Nat.lt_succ_self _
      · exact Nat.lt_succ_of_lt (below a ha)
    rw [Sheet.write, ih next belowNext rest, Renderer.isEmpty_spans_foldl]
    cases seg with
    | edge e =>
      obtain ⟨text, -⟩ : e.text? = none ∧ _ := by
        cases here with
        | edge text code => exact ⟨text, code⟩
      have dry : e.isInk r.inCode = false := by rw [Event.isInk, text]
      have apart := isApart_marks s n r e
      have one : (r.blocks (Segment.edge e).events).flatten = r.marks e := List.append_nil _
      rw [one, apart, dry]
      simp [staysApart, Segment.events]
    | leaf tag es =>
      rw [Segment.events, h.isApart_leaf (fun a ha => Nat.ne_of_lt (below a ha)), staysApart]
      simp [and_assoc]

end Sheet

/-! ### HTML -/

namespace Sheet

variable {s : Sheet} {r : Renderer} {n k : Nat} {ms : List Mark}

/-- All marks are of segments before one. -/
def IsBelow (n : Nat) (s : Sheet) : Prop := ∀ l ∈ s.all, ∀ a ∈ l, a.1 < n

theorem textsOf_append (n : Nat) (l l' : List (Nat × Mark)) :
    textsOf n (l ++ l') = textsOf n l ++ textsOf n l' := List.filterMap_append

theorem linesOf_append (n : Nat) (lines : List (List (Nat × Mark))) (line : List (Nat × Mark)) :
    (⟨lines, line⟩ : Sheet).linesOf n = (⟨lines, []⟩ : Sheet).linesOf n ++
      if textsOf n line = [] then [] else [String.join (textsOf n line)] := by
  have none : textsOf n [] = [] := rfl
  by_cases empty : textsOf n line = [] <;> simp [linesOf, all, none, empty]

/-- What a segment shows does not depend on the marks of others. -/
theorem linesOf_put (other : k ≠ n) (m : Mark) : (s.put k m).linesOf n = s.linesOf n := by
  have empty : textsOf n [] = [] := rfl
  have same : textsOf n (s.line ++ [(k, m)]) = textsOf n s.line := by
    rw [textsOf_append]
    simp [textsOf, other]
  have onLine (put : s.put k m = ⟨s.lines, s.line ++ [(k, m)]⟩) :
      (s.put k m).linesOf n = s.linesOf n := by
    rw [put, linesOf_append, same, ← linesOf_append]
  cases m with
  | lineEnd | gap => simp [put, linesOf, all, List.filterMap_cons, empty]
  | _ => exact onLine rfl

theorem linesOf_putAll (other : k ≠ n) : (s.putAll k ms).linesOf n = s.linesOf n := by
  induction ms generalizing s with
  | nil => rfl
  | cons m ms ih => exact (ih (s := s.put k m)).trans (linesOf_put other m)

theorem textsOf_of_lt {l : List (Nat × Mark)} (h : ∀ a ∈ l, a.1 < n) : textsOf n l = [] := by
  refine List.filterMap_eq_nil_iff.2 fun a ha => ?_
  exact if_neg (Nat.ne_of_lt (h a ha))

theorem linesOf_of_isBelow (h : s.IsBelow n) : s.linesOf n = [] := by
  refine List.filterMap_eq_nil_iff.2 fun l hl => ?_
  rw [if_pos (textsOf_of_lt (h l hl))]

theorem IsBelow.put (h : s.IsBelow (n + 1)) (m : Mark) : (s.put n m).IsBelow (n + 1) := by
  obtain ⟨lines, line⟩ := List.forall_mem_append.1 h
  have line := List.forall_mem_singleton.1 line
  have onLine (put : s.put n m = ⟨s.lines, s.line ++ [(n, m)]⟩) : (s.put n m).IsBelow (n + 1) := by
    rw [put]
    exact List.forall_mem_append.2 ⟨lines, List.forall_mem_singleton.2 <|
      List.forall_mem_append.2 ⟨line, List.forall_mem_singleton.2 (Nat.lt_succ_self n)⟩⟩
  cases m with
  | lineEnd =>
    exact List.forall_mem_append.2 ⟨h, List.forall_mem_singleton.2 (by simp [Sheet.put])⟩
  | gap =>
    refine List.forall_mem_append.2 ⟨List.forall_mem_append.2 ⟨lines, ?_⟩, List.forall_mem_singleton.2 line⟩
    exact List.forall_mem_singleton.2 (by simp)
  | _ => exact onLine rfl

theorem IsBelow.putAll (h : s.IsBelow n) (ms : List Mark) : (s.putAll n ms).IsBelow (n + 1) := by
  have start : s.IsBelow (n + 1) := fun l hl a ha => Nat.lt_succ_of_lt (h l hl a ha)
  clear h
  induction ms generalizing s with
  | nil => exact start
  | cons m ms ih => exact ih (s := s.put n m) (start.put m)

/-- Marks that end no line are shown on the line at hand. -/
theorem linesOf_putAll_of_inLine (h : s.IsBelow n) (inLine : ∀ m ∈ ms, m ≠ .lineEnd ∧ m ≠ .gap) :
    (s.putAll n ms).linesOf n =
      if ms.filterMap Mark.payload? = [] then [] else [String.join (ms.filterMap Mark.payload?)] := by
  have put : s.putAll n ms = ⟨s.lines, s.line ++ ms.map fun m => (n, m)⟩ := by
    clear h
    induction ms generalizing s with
    | nil => simp [putAll]
    | cons m ms ih =>
      obtain ⟨here, rest⟩ := List.forall_mem_cons.1 inLine
      have first : s.put n m = ⟨s.lines, s.line ++ [(n, m)]⟩ := by
        cases m <;> first | rfl | exact absurd rfl here.1 | exact absurd rfl here.2
      refine (ih (s := s.put n m) rest).trans ?_
      rw [first]
      simp
  obtain ⟨lines, line⟩ := List.forall_mem_append.1 h
  have before : (⟨s.lines, []⟩ : Sheet).IsBelow n :=
    List.forall_mem_append.2 ⟨lines, List.forall_mem_singleton.2 (by simp)⟩
  have texts : textsOf n (ms.map fun m => (n, m)) = ms.filterMap Mark.payload? := by
    rw [textsOf, List.filterMap_map]
    simp
  rw [put, linesOf_append, linesOf_of_isBelow before, textsOf_append,
    textsOf_of_lt (List.forall_mem_singleton.1 line), texts, List.nil_append, List.nil_append]

/-- What a segment shows is settled when it has been put down. -/
theorem linesOf_write_of_lt (segs : List Segment) (lt : n < k) :
    (s.write k r segs).linesOf n = s.linesOf n := by
  induction segs generalizing s r k with
  | nil => rfl
  | cons seg segs ih =>
    rw [write, ih (Nat.lt_succ_of_lt lt), linesOf_putAll (Nat.ne_of_gt lt)]

end Sheet

theorem filter_lineFeed {cs : List Char} (h : '\n' ∉ cs) : cs.filter (· ≠ '\n') = cs :=
  List.filter_eq_self.2 fun c hc => by simpa using ne_of_mem_of_not_mem hc h

/-- A part of HTML is shown on the line at hand, without its line feed. -/
theorem marks_of_isHtmlPart {r : Renderer} {e : Event} (code : r.inCode = false) (h : e.IsHtmlPart) :
    (∀ m ∈ r.marks e, m ≠ .lineEnd ∧ m ≠ .gap) ∧ ∃ text, e.text? = some text ∧
      (r.marks e).filterMap Mark.payload? =
        if text = "" then [] else [String.ofList (text.toList.filter (· ≠ '\n'))] := by
  have lead : ∀ m ∈ r.leadMarks, m ≠ .lineEnd ∧ m ≠ .gap := by
    intro m hm
    have lead := r.isLead_of_mem_leadMarks hm
    cases m <;> first | exact lead.elim | exact ⟨by simp, by simp⟩
  have payload : r.leadMarks.filterMap Mark.payload? = [] :=
    List.filterMap_eq_nil_iff.2 fun m hm => (r.isLead_of_mem_leadMarks hm).payload?_none
  have led {m : Mark} {text : String} (inLine : m ≠ .lineEnd ∧ m ≠ .gap)
      (shows : m.payload? = some text) : (∀ m' ∈ r.leadMarks ++ [m], m' ≠ .lineEnd ∧ m' ≠ .gap) ∧
        (r.leadMarks ++ [m]).filterMap Mark.payload? = [text] :=
    ⟨List.forall_mem_append.2 ⟨lead, List.forall_mem_singleton.2 inLine⟩, by simp [payload, shows]⟩
  cases h with
  | @indent s some none =>
    have marks : r.marks (.text s) = r.leadMarks ++ [.text s r.style] := by
      rw [Renderer.marks, Renderer.textMarks, code]
      rfl
    obtain ⟨inLine, shown⟩ := led (m := .text s r.style) ⟨by simp, by simp⟩ rfl
    refine ⟨marks ▸ inLine, s, rfl, ?_⟩
    rw [marks, shown, if_neg some, filter_lineFeed none, String.ofList_toList]
  | @stretch cs none =>
    have lines := Text.splitLines_of_notMem (s := String.ofList cs) (by rwa [String.toList_ofList])
    by_cases empty : String.ofList cs = ""
    · have marks : r.marks (.html (String.ofList cs)) = [] := by
        rw [Renderer.marks, Renderer.htmlMarks, lines, if_pos empty]
      rw [marks]
      exact ⟨by simp, _, rfl, by rw [if_pos empty]; rfl⟩
    · have marks : r.marks (.html (String.ofList cs)) = r.leadMarks ++ [.html (String.ofList cs)] := by
        rw [Renderer.marks, Renderer.htmlMarks, lines, if_neg empty]
        rfl
      obtain ⟨inLine, shown⟩ := led (m := .html (String.ofList cs)) ⟨by simp, by simp⟩ rfl
      refine ⟨marks ▸ inLine, _, rfl, ?_⟩
      rw [marks, shown, if_neg empty, String.toList_ofList, filter_lineFeed none]
  | @line cs none plain =>
    have marks : r.marks (.html (String.ofList (cs ++ ['\n']))) =
        r.leadMarks ++ [.html (String.ofList cs)] := by
      rw [Renderer.marks, Renderer.htmlMarks, Text.splitLines_row none plain]
      rfl
    have some : String.ofList (cs ++ ['\n']) ≠ "" := fun empty => by
      simpa using congrArg String.toList empty
    obtain ⟨inLine, shown⟩ := led (m := .html (String.ofList cs)) ⟨by simp, by simp⟩ rfl
    refine ⟨marks ▸ inLine, _, rfl, ?_⟩
    rw [marks, shown, if_neg some, String.toList_ofList, List.filter_append, filter_lineFeed none]
    simp

/-- The parts of a block of HTML are shown on the line at hand. -/
theorem marks_of_isHtmlParts {r : Renderer} (code : r.inCode = false) {parts : List Event}
    (h : ∀ e ∈ parts, e.IsHtmlPart) :
    (∀ m ∈ (r.blocks parts).flatten, m ≠ .lineEnd ∧ m ≠ .gap) ∧
      ((r.blocks parts).flatten.filterMap Mark.payload? = [] ↔ htmlSource parts = "") ∧
      String.join ((r.blocks parts).flatten.filterMap Mark.payload?) =
        String.ofList ((htmlSource parts).toList.filter (· ≠ '\n')) := by
  induction parts generalizing r with
  | nil => exact ⟨by simp [Renderer.blocks], by simp [Renderer.blocks, htmlSource], rfl⟩
  | cons e parts ih =>
    obtain ⟨here, rest⟩ := List.forall_mem_cons.1 h
    have still : (r.handle e).inCode = false := by
      rw [Renderer.inCode_handle, code]
      cases here <;> rfl
    obtain ⟨inLine, text, heq, shown⟩ := marks_of_isHtmlPart code here
    obtain ⟨inLineRest, none, joined⟩ := ih still rest
    have source : htmlSource (e :: parts) = text ++ htmlSource parts := by
      simp [htmlSource, heq]
    rw [Renderer.blocks, List.flatten_cons, List.filterMap_append, shown, source]
    refine ⟨List.forall_mem_append.2 ⟨inLine, inLineRest⟩, ?_, ?_⟩
    · rw [List.append_eq_nil_iff, none, String.append_eq_empty_iff]
      by_cases empty : text = "" <;> simp [empty]
    · by_cases empty : text = ""
      · rw [if_pos empty, empty, List.nil_append, joined, String.empty_append]
      · rw [if_neg empty, List.singleton_append, String.join_cons, joined, String.toList_append,
          List.filter_append, String.ofList_append]

/-- A source of no more than one line is that line, perhaps with a line feed behind it. -/
theorem sourceLines_of_length_le {s : String} (h : (sourceLines s).length ≤ 1) :
    sourceLines s = if s = "" then [] else [String.ofList (s.toList.filter (· ≠ '\n'))] := by
  have rows := Text.intercalate_splitRows s.toList
  have plain : ∀ row ∈ Text.splitRows s.toList, '\n' ∉ row := fun _ => Text.lineFeed_notMem_row
  have some := Text.splitRows_ne_nil s.toList
  unfold sourceLines at h ⊢
  dsimp only at h ⊢
  generalize Text.splitRows s.toList = split at *
  match split with
  | [] => exact absurd rfl some
  | [row] =>
    obtain rfl : s.toList = row := by simpa using rows.symm
    have none := plain s.toList List.mem_cons_self
    rw [filter_lineFeed none]
    by_cases empty : s = "" <;> simp [empty]
  | row :: next :: more =>
    obtain ⟨rfl, rfl⟩ : more = [] ∧ next = [] := by
      cases more with
      | nil => cases next <;> simp at h ⊢
      | cons => simp at h
    have whole : s.toList = row ++ ['\n'] := by simpa [List.intercalate] using rows.symm
    have none := plain row List.mem_cons_self
    have nonempty : s ≠ "" := fun empty => by simp [empty] at whole
    rw [if_neg nonempty, whole, List.filter_append, filter_lineFeed none]
    simp

/-- A block of HTML is shown line by line exactly if it is no more than one line. -/
theorem Sheet.linesOf_html {s : Sheet} {r : Renderer} {n : Nat} (below : s.IsBelow n)
    (code : r.inCode = false) {parts : List Event} (h : ∀ e ∈ parts, e.IsHtmlPart) :
    (s.putAll n (r.blocks (.start .htmlBlock :: parts ++ [.stop .htmlBlock])).flatten).linesOf n =
        sourceLines (htmlSource (.start .htmlBlock :: parts ++ [.stop .htmlBlock])) ↔
      (sourceLines (htmlSource (.start .htmlBlock :: parts ++ [.stop .htmlBlock]))).length ≤ 1 := by
  have marks : (r.blocks (.start .htmlBlock :: parts ++ [.stop .htmlBlock])).flatten =
      (r.blocks parts).flatten := by
    rw [List.cons_append, Renderer.blocks, Renderer.blocks_append]
    simp [Renderer.blocks, Renderer.marks, Renderer.startMarks, Renderer.stopMarks, Renderer.handle,
      Renderer.start]
  have source : htmlSource (.start .htmlBlock :: parts ++ [.stop .htmlBlock]) = htmlSource parts := by
    simp [htmlSource, List.filterMap_cons, Event.text?]
  obtain ⟨inLine, none, joined⟩ := marks_of_isHtmlParts code h
  have lines := linesOf_putAll_of_inLine below inLine
  rw [marks, source, lines]
  constructor
  · intro heq
    rw [← heq]
    split <;> simp
  · intro one
    rw [sourceLines_of_length_le one, joined]
    exact if_congr none rfl rfl

theorem Segment.IsSound.leavesCode {seg : Segment} (h : seg.IsSound) :
    Markdown.leavesCode false seg.events = false := by
  cases h with
  | edge text code => exact code false
  | leaf html code => exact code
  | @html parts h =>
    have still : Markdown.leavesCode false parts = false := by
      induction parts with
      | nil => rfl
      | cons e parts ih =>
        obtain ⟨here, rest⟩ := List.forall_mem_cons.1 h
        rw [Markdown.leavesCode, List.foldl_cons]
        cases here <;> exact ih rest
    rw [Segment.events, List.cons_append, Markdown.leavesCode, List.foldl_cons, List.foldl_append]
    exact still

/-- Blocks of HTML among segments are shown line by line exactly if they are no more than one line. -/
theorem Sheet.linesOf_write {s : Sheet} {r : Renderer} {n : Nat} {segs : List Segment}
    (below : s.IsBelow n) (code : r.inCode = false) (sound : ∀ seg ∈ segs, seg.IsSound) {k : Nat}
    {es : List Event} (leaf : segs[k]? = some (.leaf .htmlBlock es)) :
    (s.write n r segs).linesOf (n + k) = sourceLines (htmlSource es) ↔
      (sourceLines (htmlSource es)).length ≤ 1 := by
  induction segs generalizing s r n k with
  | nil => simp at leaf
  | cons seg segs ih =>
    obtain ⟨here, rest⟩ := List.forall_mem_cons.1 sound
    rw [write]
    cases k with
    | zero =>
      obtain rfl : seg = .leaf .htmlBlock es := by simpa using leaf
      rw [Nat.add_zero, linesOf_write_of_lt segs (Nat.lt_succ_self n)]
      cases here with
      | leaf html => exact absurd rfl html
      | html h => exact linesOf_html below code h
    | succ k =>
      have still : (seg.events.foldl Renderer.handle r).inCode = false := by
        rw [Renderer.inCode_foldl, code, here.leavesCode]
      rw [show n + (k + 1) = n + 1 + k by omega]
      exact ih (below.putAll _) still rest (by simpa using leaf)

/-! ### The leaves of a text -/

/-- The sheet of a row of segments. -/
def sheetOf (segs : List Segment) (width : Nat) (styles : Styles) : Sheet :=
  Sheet.blank.write 0 { styles, width } segs

/-- The lines are those of the sheet. -/
theorem renderEvents_eq_sheet (segs : List Segment) (width : Nat) (styles : Styles) :
    renderEvents (segs.flatMap Segment.events) width styles =
      ((sheetOf segs width styles).page styles).finish := by
  have start : Sheet.blank.Tracks { styles, width } := ⟨rfl, Sheet.isHeld_of_line_eq_nil rfl⟩
  have page := (start.write 0 segs).page
  rw [Renderer.styles_foldl] at page
  rw [renderEvents, Renderer.finish_page, ← page]
  rfl

/-- **When leaves stay apart.** For every text, at every width and in all styles: no line has text of two
leaves, and every block of HTML is shown line by line, if and only if no leaf goes on with a line that
another one has started and no block of HTML is more than one line. -/
theorem blocks_stay_apart_iff (text : String) (width : Nat) (styles : Styles) :
    (segmentsOf text).flatMap Segment.events = events text ∧
      render text width styles = ((sheetOf (segmentsOf text) width styles).page styles).finish ∧
      (((sheetOf (segmentsOf text) width styles).IsApart ∧
          ∀ (n : Nat) (es : List Event), (segmentsOf text)[n]? = some (.leaf .htmlBlock es) →
            (sheetOf (segmentsOf text) width styles).linesOf n = sourceLines (htmlSource es)) ↔
        staysApart (false, false) (segmentsOf text) = true ∧
          ∀ (n : Nat) (es : List Event), (segmentsOf text)[n]? = some (.leaf .htmlBlock es) →
            (sourceLines (htmlSource es)).length ≤ 1) := by
  have sound := isSound_of_mem_segmentsOf text
  have start : Sheet.blank.Tracks { styles, width } := ⟨rfl, Sheet.isHeld_of_line_eq_nil rfl⟩
  have below : Sheet.blank.IsBelow 0 := by simp [Sheet.IsBelow, Sheet.all, Sheet.blank]
  have apart : (sheetOf (segmentsOf text) width styles).IsApart ↔
      staysApart (false, false) (segmentsOf text) = true := by
    rw [sheetOf, start.isApart_write (by simp [Sheet.blank, Sheet.holders]) sound]
    refine and_iff_right ?_
    simp [Sheet.IsApart, Sheet.all, Sheet.blank, Sheet.holders]
  have lines {n : Nat} {es : List Event}
      (leaf : (segmentsOf text)[n]? = some (.leaf .htmlBlock es)) :
      (sheetOf (segmentsOf text) width styles).linesOf n = sourceLines (htmlSource es) ↔
        (sourceLines (htmlSource es)).length ≤ 1 := by
    have here := Sheet.linesOf_write (r := { styles, width }) below rfl sound leaf
    rwa [Nat.zero_add] at here
  have page : render text width styles =
      ((sheetOf (segmentsOf text) width styles).page styles).finish := by
    rw [render, ← flatMap_segmentsOf, renderEvents_eq_sheet]
  refine ⟨flatMap_segmentsOf text, page, ?_⟩
  rw [apart]
  exact and_congr_right fun _ => forall₂_congr fun n es => imp_congr_right lines

example : staysApart (false, false) (segmentsOf "# a\n\nb\n\n- c\n- d") = true := by decide +kernel

/-- The lines of a block of HTML run together, and with what is behind it. -/
theorem lines_of_html_run_together :
    (preview "<div>\n</div>" 20).map Line.text = ["<div></div>"] ∧
      (preview "<div>\n\ntext" 20).map Line.text = ["<div>text"] ∧
      staysApart (false, false) (segmentsOf "<div>\n\ntext") = false := by
  decide +kernel

end PublisherConsole.Markdown
