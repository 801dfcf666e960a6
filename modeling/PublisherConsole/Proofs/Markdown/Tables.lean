import Mathlib.Data.List.Forall2
import PublisherConsole.Proofs.Markdown.Cells
import PublisherConsole.Proofs.Markdown.LineAtHand

/-!
# Tables
-/

namespace PublisherConsole.Markdown

open Screen (Line)

/-! ### Rows -/

/-- The events of a cell, from its content. -/
def cellEvents (content : List Event) : List Event :=
  .start .tableCell :: content ++ [.stop .tableCell]

/-- The events of cells, from their contents. -/
def cellsEvents (cells : List (List Event)) : List Event := cells.flatMap cellEvents

/-- The events of a row of a table, from the contents of its cells. -/
def rowEvents (tag : Tag) (cells : List (List Event)) : List Event :=
  .start tag :: cellsEvents cells ++ [.stop tag]

/-- A mark that goes on with the line at hand and is no divider. -/
def Mark.IsInCell : Mark → Prop
  | .bars _ | .marker _ | .text _ _ | .code _ | .html _ => True
  | _ => False

/-- Marks show the text of a cell, on the line at hand and without a divider. -/
structure ShowsCell (content : List Event) (ms : List Mark) : Prop where
  inCell : ∀ m ∈ ms, m.IsInCell
  text : (ms.filterMap Mark.payload?).flatMap String.toList =
    (content.filterMap Event.text?).flatMap String.toList

/-- A row of cells stands in the columns of its table: it is a line of its own, on which there is a
divider between any two cells that follow each other. -/
structure Renderer.InColumns (r : Renderer) (tag : Tag) (cells : List (List Event)) : Prop where
  /-- No line has been started. -/
  starts : r.spans = []
  /-- The marks of the cells follow, with the dividers between them, and the line ends; what they show
  is one more line of the page. -/
  shown : ∃ shown : List (List Mark), List.Forall₂ ShowsCell cells shown ∧
    (r.blocks (rowEvents tag cells)).flatten = (shown.intersperse [.divider]).flatten ++ [.lineEnd] ∧
    ((rowEvents tag cells).foldl Renderer.handle r).page =
      ⟨r.lines ++ [⟨(shown.intersperse [.divider]).flatten.map r.spanOf⟩], []⟩

/-- Whether the first cell of a row shows something. -/
def opensRow (cells : List (List Event)) : Bool := (cells.headD []).any (Event.isInk false)

section Cells

variable {e : Event} {content content' : List Event} {ms ms' : List Mark}

theorem ShowsCell.append (h : ShowsCell content ms) (h' : ShowsCell content' ms') :
    ShowsCell (content ++ content') (ms ++ ms') where
  inCell m hm := (List.mem_append.1 hm).elim (h.inCell m) (h'.inCell m)
  text := by simp only [List.filterMap_append, List.flatMap_append, h.text, h'.text]

theorem ShowsCell.count_divider (h : ShowsCell content ms) : ms.count .divider = 0 :=
  List.count_eq_zero.2 fun hm => h.inCell _ hm

theorem showsCell_nil : ShowsCell [] [] := ⟨by simp, rfl⟩

theorem showsCell_of_text?_none (h : e.text? = none) : ShowsCell [e] [] :=
  ⟨by simp, by simp [h]⟩

namespace Event.IsInCell

/-- Only a text that is shown starts a line in a cell. -/
theorem leavesStarted (h : e.IsInCell) (started : Bool) :
    e.leavesStarted false started = (started || e.isInk false) := by
  cases h with
  | start h | stop h => cases h <;> cases started <;> rfl
  | _ => simp [Event.leavesStarted, Event.written?]

theorem leavesCode (h : e.IsInCell) : e.leavesCode false = false := by
  cases h with
  | start h | stop h => cases h <;> rfl
  | _ => rfl

end Event.IsInCell

end Cells

namespace Renderer

variable (r : Renderer) {e : Event} {content : List Event} {cells : List (List Event)}

theorem isInCell_of_mem_leadMarks {m : Mark} (h : m ∈ r.leadMarks) :
    m.IsInCell ∧ m.payload? = none := by
  have lead := r.isLead_of_mem_leadMarks h
  cases m <;> first | exact ⟨trivial, rfl⟩ | exact lead.elim

variable {r}

/-- Nothing is put down for an event in a cell that shows nothing. -/
theorem marks_of_dry (h : e.IsInCell) (dry : e.isInk false = false) : r.marks e = [] := by
  cases h with
  | start h | stop h => cases h <;> rfl
  | text s | code s => simp [Event.isInk, Event.text?, Event.isVerbatim] at dry
  | @inlineHtml s feed =>
    obtain rfl : s = "" := by simpa [Event.isInk, Event.text?, Event.isVerbatim] using dry
    rfl

/-- The marks of an event in a cell are the text of the event, behind what the line is owed. -/
theorem showsCell_marks (code : r.inCode = false) (h : e.IsInCell) : ShowsCell [e] (r.marks e) := by
  have payload : r.leadMarks.filterMap Mark.payload? = [] :=
    List.filterMap_eq_nil_iff.2 fun m hm => (r.isInCell_of_mem_leadMarks hm).2
  -- Something is shown behind what the line is owed.
  have led (m : Mark) (s : String) (inCell : m.IsInCell) (shows : m.payload? = some s)
      (text : e.text? = some s) : ShowsCell [e] (r.leadMarks ++ [m]) := by
    refine ⟨fun m' hm => ?_, by simp [payload, shows, text]⟩
    rcases List.mem_append.1 hm with hm | hm
    · exact (r.isInCell_of_mem_leadMarks hm).1
    · rwa [List.mem_singleton.1 hm]
  cases h with
  | start h =>
    rw [marks_of_dry (.start h) rfl]
    exact showsCell_of_text?_none rfl
  | stop h =>
    rw [marks_of_dry (.stop h) rfl]
    exact showsCell_of_text?_none rfl
  | text s =>
    have here : r.marks (.text s) = r.leadMarks ++ [.text s r.style] := by
      rw [marks, textMarks, code]
      rfl
    rw [here]
    exact led (.text s r.style) s trivial rfl rfl
  | code s => exact led (.code s) s trivial rfl rfl
  | @inlineHtml s feed =>
    rw [marks, htmlMarks, Text.splitLines_of_notMem feed]
    by_cases none : s = ""
    · rw [if_pos none, none]
      exact ⟨by simp, by simp [Event.text?]⟩
    · rw [if_neg none]
      exact led (.html s) s trivial rfl rfl

/-- No block of code is open, and the line at hand has not been started, or has. -/
structure IsAt (r : Renderer) (fresh : Bool) : Prop where
  code : r.inCode = false
  spans : r.spans.isEmpty = fresh

theorem IsAt.endMarks {fresh : Bool} (h : r.IsAt fresh) :
    r.endMarks = if fresh then [] else [.lineEnd] := by
  rw [Renderer.endMarks, h.spans]

theorem IsAt.handle {fresh : Bool} (h : r.IsAt fresh) (here : e.IsInCell) :
    (r.handle e).IsAt (fresh && !e.isInk false) where
  code := by rw [inCode_handle, h.code, here.leavesCode]
  spans := by
    rw [isEmpty_spans_handle, h.code, here.leavesStarted, h.spans]
    simp

/-- The content of a cell is shown on the line at hand. -/
theorem IsAt.cell {fresh : Bool} (h : r.IsAt fresh) (inCell : ∀ e ∈ content, e.IsInCell) :
    ShowsCell content (r.blocks content).flatten ∧
      (content.foldl Renderer.handle r).IsAt (fresh && !content.any (Event.isInk false)) := by
  induction content generalizing r fresh with
  | nil => exact ⟨showsCell_nil, by simpa using h⟩
  | cons e es ih =>
    obtain ⟨here, rest⟩ := List.forall_mem_cons.1 inCell
    obtain ⟨shown, after⟩ := ih (h.handle here) rest
    refine ⟨(showsCell_marks h.code here).append shown, ?_⟩
    rw [List.foldl_cons, List.any_cons, Bool.not_or, ← Bool.and_assoc]
    exact after

/-- Nothing is put down for a cell that shows nothing. -/
theorem blocks_of_dry (inCell : ∀ e ∈ content, e.IsInCell)
    (dry : content.any (Event.isInk false) = false) : (r.blocks content).flatten = [] := by
  induction content generalizing r with
  | nil => rfl
  | cons e es ih =>
    obtain ⟨here, rest⟩ := List.forall_mem_cons.1 inCell
    rw [List.any_cons, Bool.or_eq_false_iff] at dry
    rw [Renderer.blocks, List.flatten_cons, marks_of_dry here dry.1, ih rest dry.2]
    rfl

/-! ### The cells of a row -/

theorem IsAt.startCell {fresh : Bool} (h : r.IsAt fresh) :
    (r.handle (.start .tableCell)).IsAt fresh where
  code := by
    rw [inCode_handle, h.code]
    rfl
  spans := by
    rw [isEmpty_spans_handle, h.code, h.spans]
    cases fresh <;> rfl

theorem marks_startCell {fresh : Bool} (h : r.IsAt fresh) :
    r.marks (.start .tableCell) = if fresh then [] else [.divider] := by
  rw [← h.spans]
  rfl

/-- A cell shows its content behind a divider, unless no line has been started. -/
theorem IsAt.cellEvents {fresh : Bool} (h : r.IsAt fresh) (inCell : ∀ e ∈ content, e.IsInCell) :
    ∃ ms : List Mark, ShowsCell content ms ∧
      (content.any (Event.isInk false) = false → ms = []) ∧
      (r.blocks (cellEvents content)).flatten = (if fresh then [] else [.divider]) ++ ms ∧
      ((cellEvents content).foldl Renderer.handle r).IsAt
        (fresh && !content.any (Event.isInk false)) := by
  obtain ⟨shown, after⟩ := h.startCell.cell inCell
  refine ⟨_, shown, blocks_of_dry inCell, ?_, ?_⟩
  · rw [Markdown.cellEvents, List.cons_append, Renderer.blocks, blocks_append, List.flatten_cons,
      List.flatten_append, marks_startCell h]
    simp [Renderer.blocks, marks, stopMarks]
  · rw [Markdown.cellEvents, List.cons_append, List.foldl_cons, List.foldl_append]
    exact after

/-- Behind a line that has been started, every cell has a divider in front of it. -/
theorem IsAt.cellsEvents (h : r.IsAt false) (inCell : ∀ c ∈ cells, ∀ e ∈ c, e.IsInCell) :
    ∃ shown : List (List Mark), List.Forall₂ ShowsCell cells shown ∧
      (r.blocks (cellsEvents cells)).flatten = shown.flatMap (.divider :: ·) ∧
      ((cellsEvents cells).foldl Renderer.handle r).IsAt false := by
  induction cells generalizing r with
  | nil => exact ⟨[], .nil, rfl, h⟩
  | cons c cells ih =>
    obtain ⟨here, others⟩ := List.forall_mem_cons.1 inCell
    obtain ⟨ms, shows, -, put, after⟩ := h.cellEvents here
    obtain ⟨shown, all, rest, last⟩ := ih after others
    refine ⟨ms :: shown, .cons shows all, ?_, ?_⟩
    · rw [Markdown.cellsEvents, List.flatMap_cons, blocks_append, List.flatten_append, put,
        List.flatMap_cons]
      exact congrArg _ rest
    · rw [Markdown.cellsEvents, List.flatMap_cons, List.foldl_append]
      exact last

theorem flatten_intersperse {α : Type} (a : α) (x : List α) (xs : List (List α)) :
    ((x :: xs).intersperse [a]).flatten = x ++ xs.flatMap (a :: ·) := by
  induction xs generalizing x with
  | nil => simp
  | cons y ys ih => rw [List.intersperse_cons_cons, List.flatten_cons, List.flatten_cons, ih]; simp

/-- There are no more dividers than cells, and fewer if no line has been started. -/
theorem IsAt.count_divider_le {fresh : Bool} (h : r.IsAt fresh)
    (inCell : ∀ c ∈ cells, ∀ e ∈ c, e.IsInCell) :
    (r.blocks (Markdown.cellsEvents cells)).flatten.count .divider ≤
      cells.length - if fresh then 1 else 0 := by
  induction cells generalizing r fresh with
  | nil => simp [Markdown.cellsEvents, Renderer.blocks]
  | cons c cells ih =>
    obtain ⟨here, others⟩ := List.forall_mem_cons.1 inCell
    obtain ⟨ms, shows, -, put, after⟩ := h.cellEvents here
    have rest := ih after others
    rw [Markdown.cellsEvents, List.flatMap_cons, blocks_append, List.flatten_append, put,
      List.count_append, List.count_append, shows.count_divider]
    have bound : (((Markdown.cellEvents c).foldl Renderer.handle r).blocks
        (Markdown.cellsEvents cells)).flatten.count .divider ≤ cells.length :=
      rest.trans (Nat.sub_le _ _)
    simp only [Markdown.cellsEvents] at bound
    cases fresh <;> simp <;> omega

/-- A row has one divider less than cells. -/
theorem count_divider_intersperse {shown : List (List Mark)} (h : List.Forall₂ ShowsCell cells shown) :
    (shown.intersperse [.divider]).flatten.count .divider = cells.length - 1 := by
  cases h with
  | nil => rfl
  | cons first rest =>
    rw [flatten_intersperse, List.count_append, first.count_divider, List.length_cons, Nat.zero_add,
      Nat.add_sub_cancel]
    induction rest with
    | nil => rfl
    | cons here _ ih =>
      rw [List.flatMap_cons, List.count_append, List.count_cons_self, here.count_divider, ih,
        List.length_cons, Nat.zero_add, Nat.add_comm]

/-- The marks of a row are those of its cells, and the end of the line if one has been started. -/
theorem flatten_blocks_rowEvents {tag : Tag} (row : tag = .tableHead ∨ tag = .tableRow) :
    (r.blocks (rowEvents tag cells)).flatten = (r.blocks (cellsEvents cells)).flatten ++
      ((cellsEvents cells).foldl Renderer.handle r).endMarks := by
  rw [rowEvents, List.cons_append, Renderer.blocks, blocks_append]
  obtain rfl | rfl := row <;> simp [marks, startMarks, stopMarks, handle, start, Renderer.blocks]

/-- Marks that end no line go on the line at hand. -/
theorem page_foldl_put {ms : List Mark} (styles : Styles) (p : Page)
    (h : ∀ m ∈ ms, m ≠ .lineEnd ∧ m ≠ .gap) : ms.foldl (Page.put styles) p =
      ⟨p.lines, p.spans ++ ms.map fun m => ⟨m.shown, m.style styles⟩⟩ := by
  induction ms generalizing p with
  | nil => simp
  | cons m ms ih =>
    obtain ⟨here, rest⟩ := List.forall_mem_cons.1 h
    rw [List.foldl_cons, ih _ rest]
    cases m with
    | lineEnd => exact absurd rfl here.1
    | gap => exact absurd rfl here.2
    | _ => simp [Page.put]

/-- The cells of a row end no line. -/
theorem inLine_intersperse {shown : List (List Mark)} (h : List.Forall₂ ShowsCell cells shown) :
    ∀ m ∈ (shown.intersperse [.divider]).flatten, m ≠ .lineEnd ∧ m ≠ .gap := by
  have cell {m : Mark} (h : m.IsInCell) : m ≠ .lineEnd ∧ m ≠ .gap := by
    cases m <;> first | exact h.elim | exact ⟨nofun, nofun⟩
  cases h with
  | nil => simp
  | cons first rest =>
    rw [flatten_intersperse]
    refine List.forall_mem_append.2 ⟨fun m hm => cell (first.inCell m hm), ?_⟩
    induction rest with
    | nil => simp
    | cons here _ ih =>
      refine List.forall_mem_append.2 ⟨?_, ih⟩
      exact List.forall_mem_cons.2 ⟨⟨nofun, nofun⟩, fun m hm => cell (here.inCell m hm)⟩

/-- A row that is put down in its columns is one line of the page. -/
theorem inColumns_of_blocks {tag : Tag} (starts : r.spans = []) {shown : List (List Mark)}
    (shows : List.Forall₂ ShowsCell cells shown)
    (put : (r.blocks (rowEvents tag cells)).flatten =
      (shown.intersperse [.divider]).flatten ++ [.lineEnd]) : r.InColumns tag cells := by
  refine ⟨starts, shown, shows, put, ?_⟩
  have spans : r.spanOf = fun m => ⟨m.shown, m.style r.styles⟩ := rfl
  rw [page_foldl, put, List.foldl_append, page_foldl_put _ _ (inLine_intersperse shows), spans]
  simp [Page.put, page, starts]

/-- **A row stands in its columns exactly if it starts a line and its first cell shows something.** -/
theorem inColumns_iff {tag : Tag} (row : tag = .tableHead ∨ tag = .tableRow)
    (code : r.inCode = false) (inCell : ∀ c ∈ cells, ∀ e ∈ c, e.IsInCell) :
    r.InColumns tag cells ↔ r.spans = [] ∧ opensRow cells = true := by
  constructor
  · rintro ⟨fresh, shown, shows, put, -⟩
    refine ⟨fresh, Bool.eq_true_of_not_eq_false fun dry => ?_⟩
    have here : r.IsAt true := ⟨code, by rw [fresh, List.isEmpty_nil]⟩
    have dividers := congrArg (List.count Mark.divider) put
    rw [flatten_blocks_rowEvents row] at put dividers
    rw [List.count_append, List.count_append, count_divider_intersperse shows] at dividers
    cases cells with
    | nil => simp [cellsEvents, Renderer.blocks, endMarks, fresh] at put
    | cons c cells =>
      obtain ⟨first, others⟩ := List.forall_mem_cons.1 inCell
      have dryCell : c.any (Event.isInk false) = false := dry
      obtain ⟨ms, -, nothing, cellPut, after⟩ := here.cellEvents first
      rw [dryCell] at after
      have few := after.count_divider_le others
      rw [cellsEvents, List.flatMap_cons, blocks_append, List.flatten_append, cellPut,
        nothing dryCell, List.foldl_append] at put dividers
      rw [← cellsEvents, if_pos rfl, List.nil_append, List.nil_append] at put dividers
      -- There is no divider behind the first cell, so there is no other cell.
      have alone : cells = [] := by
        rw [← List.length_eq_zero_iff]
        have none : [Mark.lineEnd].count .divider = 0 := rfl
        rw [none, List.length_cons, Nat.add_sub_cancel] at dividers
        have last : (((cellsEvents cells).foldl Renderer.handle
            ((cellEvents c).foldl Renderer.handle r)).endMarks).count .divider = 0 := by
          unfold endMarks
          split <;> rfl
        simp only [Bool.not_false, Bool.and_true, if_true] at few
        omega
      subst alone
      have noEnd := after.endMarks
      simp only [Bool.not_false, Bool.and_true, if_true] at noEnd
      simp [cellsEvents, Renderer.blocks, noEnd] at put
  · rintro ⟨fresh, inked⟩
    have here : r.IsAt true := ⟨code, by rw [fresh, List.isEmpty_nil]⟩
    cases cells with
    | nil => cases inked
    | cons c cells =>
      obtain ⟨first, others⟩ := List.forall_mem_cons.1 inCell
      have inkedCell : c.any (Event.isInk false) = true := inked
      obtain ⟨ms, shows, -, cellPut, after⟩ := here.cellEvents first
      rw [inkedCell] at after
      obtain ⟨shown, all, rest, last⟩ := after.cellsEvents others
      refine inColumns_of_blocks fresh (.cons shows all) ?_
      rw [flatten_blocks_rowEvents row, cellsEvents, List.flatMap_cons, blocks_append,
        List.flatten_append, List.foldl_append, cellPut, flatten_intersperse]
      exact congrArg₂ (fun others ending => ms ++ others ++ ending) rest last.endMarks

end Renderer

/-! ### Tables in a row of events -/

/-- A table, from the contents of the cells of its head and of its other rows. -/
structure Table where
  columns : Nat
  head : List (List Event)
  rows : List (List (List Event))
  length_row : ∀ row ∈ head :: rows, row.length = columns
  isInCell : ∀ row ∈ head :: rows, ∀ content ∈ row, ∀ e ∈ content, e.IsInCell

namespace Table

/-- The rows with their tags. -/
def tagged (t : Table) : List (Tag × List (List Event)) :=
  (.tableHead, t.head) :: t.rows.map (.tableRow, ·)

def events (t : Table) : List Event :=
  .start .table :: t.tagged.flatMap (fun (tag, cells) => rowEvents tag cells) ++ [.stop .table]

end Table

/-- Events in which every table is whole and in no block of code. -/
inductive HasWholeTables : List Event → Prop
  | nil : HasWholeTables []
  | aside {e : Event} {es : List Event} (h : e.IsAside) (h' : HasWholeTables es) :
    HasWholeTables (e :: es)
  | code (texts : List String) {es : List Event} (h : HasWholeTables es) :
    HasWholeTables (.start .codeBlock :: texts.map .text ++ .stop .codeBlock :: es)
  | table (t : Table) {es : List Event} (h : HasWholeTables es) : HasWholeTables (t.events ++ es)

namespace HasWholeTables

variable {es es' : List Event}

theorem append (h : HasWholeTables es) (h' : HasWholeTables es') : HasWholeTables (es ++ es') := by
  induction h with
  | nil => exact h'
  | aside e _ ih => exact .aside e ih
  | code texts _ ih =>
    rw [List.append_assoc]
    exact .code texts ih
  | table t _ ih =>
    rw [List.append_assoc]
    exact .table t ih

theorem of_forall (h : ∀ e ∈ es, e.IsAside) : HasWholeTables es := by
  induction es with
  | nil => exact .nil
  | cons e es ih =>
    obtain ⟨here, rest⟩ := List.forall_mem_cons.1 h
    exact .aside here (ih rest)

theorem enclosed (h : HasWholeTables es) (tag : Tag) (table : tag ≠ .table) (code : tag ≠ .codeBlock) :
    HasWholeTables (.start tag :: es ++ [.stop tag]) := by
  refine .aside ⟨fun h => table (Event.start.inj h), fun _ => ?_⟩
    (h.append (.aside ⟨nofun, fun _ => ?_⟩ .nil))
  · cases tag <;> first | exact absurd rfl code | rfl
  · cases tag <;> first | exact absurd rfl code | rfl

end HasWholeTables

theorem Event.IsInCell.isAside {e : Event} (h : e.IsInCell) : e.IsAside := by
  cases h with
  | start h | stop h => cases h <;> exact ⟨nofun, fun _ => rfl⟩
  | _ => exact ⟨nofun, fun _ => rfl⟩

/-- What a row of events that does not have an event goes on with stands behind it. -/
theorem exists_of_append_eq {α : Type} {a : α} {seg es before after : List α} (none : a ∉ seg)
    (h : seg ++ es = before ++ a :: after) :
    ∃ before', before = seg ++ before' ∧ es = before' ++ a :: after := by
  rcases List.append_eq_append_iff.1 h with ⟨before', rfl, rfl⟩ | ⟨rest, rfl, rfl'⟩
  · exact ⟨before', rfl, rfl⟩
  · cases rest with
    | nil => exact ⟨[], by simp, by simpa using rfl'.symm⟩
    | cons b rest =>
      obtain ⟨rfl, -⟩ := List.cons.inj rfl'
      exact absurd (List.mem_append_right before List.mem_cons_self) none

/-- No table starts in a row of cells. -/
theorem isAside_of_mem_rowEvents {tag : Tag} {cells : List (List Event)}
    (row : tag = .tableHead ∨ tag = .tableRow) (inCell : ∀ c ∈ cells, ∀ e ∈ c, e.IsInCell) :
    ∀ e ∈ rowEvents tag cells, e.IsAside := by
  have edge : (Event.start tag).IsAside ∧ (Event.stop tag).IsAside := by
    rcases row with rfl | rfl <;> exact ⟨⟨nofun, fun _ => rfl⟩, ⟨nofun, fun _ => rfl⟩⟩
  refine List.forall_mem_append.2 ⟨List.forall_mem_cons.2 ⟨edge.1, fun e he => ?_⟩,
    List.forall_mem_singleton.2 edge.2⟩
  obtain ⟨c, mem, he⟩ := List.mem_flatMap.1 he
  rcases List.mem_append.1 he with he | he
  · rcases List.mem_cons.1 he with rfl | he
    · exact ⟨nofun, fun _ => rfl⟩
    · exact (inCell c mem e he).isAside
  · obtain rfl := List.mem_singleton.1 he
    exact ⟨nofun, fun _ => rfl⟩

namespace Table

theorem of_mem_tagged (t : Table) : ∀ row ∈ t.tagged,
    (row.1 = .tableHead ∨ row.1 = .tableRow) ∧ row.2 ∈ t.head :: t.rows := by
  refine List.forall_mem_cons.2 ⟨⟨.inl rfl, List.mem_cons_self⟩, fun row h => ?_⟩
  obtain ⟨cells, mem, rfl⟩ := List.mem_map.1 h
  exact ⟨.inr rfl, List.mem_cons_of_mem _ mem⟩

/-- Behind its start, no table starts in a table. -/
theorem isAside_of_mem_tail (t : Table) : ∀ e ∈ t.events.tail, e.IsAside := by
  refine List.forall_mem_append.2 ⟨fun e he => ?_, List.forall_mem_singleton.2 ⟨nofun, fun _ => rfl⟩⟩
  obtain ⟨row, mem, he⟩ := List.mem_flatMap.1 he
  obtain ⟨tag, cells⟩ := t.of_mem_tagged row mem
  exact isAside_of_mem_rowEvents tag (t.isInCell _ cells) e he

end Table

theorem HasWholeTables.exists_table {es before after : List Event} (h : HasWholeTables es)
    (split : es = before ++ .start .table :: after) :
    leavesCode false before = false ∧ ∃ (t : Table) (rest : List Event),
      .start .table :: after = t.events ++ rest := by
  induction h generalizing before with
  | nil => simp at split
  | @aside e es here _ ih =>
    cases before with
    | nil => exact absurd (List.cons.inj split).1 here.table
    | cons e' before =>
      obtain ⟨rfl, rest⟩ := List.cons.inj split
      rw [leavesCode, List.foldl_cons, here.code]
      exact ih rest
  | @code texts es _ ih =>
    have none : .start .table ∉ Event.start .codeBlock :: texts.map .text ++ [.stop .codeBlock] := by
      simp
    rw [← List.singleton_append (x := Event.stop .codeBlock), ← List.append_assoc] at split
    obtain ⟨before', rfl, rest⟩ := exists_of_append_eq none split
    obtain ⟨code, found⟩ := ih rest
    refine ⟨?_, found⟩
    rw [leavesCode_append, leavesCode_append]
    exact code
  | @table t es _ ih =>
    have tail : t.events = .start .table :: t.events.tail := rfl
    cases before with
    | nil => exact ⟨rfl, t, es, split.symm⟩
    | cons e before =>
      rw [tail, List.cons_append, List.cons_append] at split
      obtain ⟨rfl, behind⟩ := List.cons.inj split
      have none : .start .table ∉ t.events.tail := fun h => (t.isAside_of_mem_tail _ h).table rfl
      obtain ⟨before', rfl, rest⟩ := exists_of_append_eq none behind
      obtain ⟨code, found⟩ := ih rest
      refine ⟨?_, found⟩
      have same := leavesCode_of_forall t.isAside_of_mem_tail false
      rw [← List.cons_append, leavesCode_append]
      exact (congrArg (leavesCode · before') same).trans code

/-! ### Tables in a text -/

theorem hasWholeTables_blocksEvents {s : Source} {blocks : List Block} {c : StreamContext}
    (h : ∀ b ∈ blocks, ∀ c : StreamContext, c.source = s → HasWholeTables (blockEvents c b))
    (source : c.source = s) : HasWholeTables (blocksEvents c blocks) := by
  induction blocks with
  | nil => exact .nil
  | cons b blocks ih =>
    obtain ⟨here, rest⟩ := List.forall_mem_cons.1 h
    exact (here c source).append (ih rest)

theorem hasWholeTables_code {c : StreamContext} (texts : List (List Char)) :
    HasWholeTables (blockEvents c (.code texts)) := by
  have whole := HasWholeTables.code (texts.map String.ofList) .nil
  rw [List.map_map] at whole
  exact whole

/-- The contents of the cells of a row. -/
def StreamContext.cells (c : StreamContext) (row : List Leaf) : List (List Event) := row.map (c.leaf true)

theorem StreamContext.row_eq (c : StreamContext) (row : List Leaf) : c.row row = cellsEvents (c.cells row) := by
  rw [cells, cellsEvents, List.flatMap_map]
  rfl

/-- The table that is read from a source. -/
def tableOf (c : StreamContext) (path : List Container) (columns head fuel body : Nat) : Table where
  columns
  head := c.cells (readRow c.source path columns head).1
  rows := (rowsFrom c.source path columns fuel body).1.map c.cells
  length_row := by
    refine List.forall_mem_cons.2 ⟨by simp [StreamContext.cells, length_readRow], fun row h => ?_⟩
    obtain ⟨leaves, mem, rfl⟩ := List.mem_map.1 h
    obtain ⟨place, rfl⟩ := readRow_of_mem_rowsFrom mem
    simp [StreamContext.cells, length_readRow]
  isInCell := by
    have inCell (place : Nat) : ∀ content ∈ c.cells (readRow c.source path columns place).1,
        ∀ e ∈ content, e.IsInCell := by
      intro content h
      obtain ⟨l, mem, rfl⟩ := List.mem_map.1 h
      exact (isCell_of_mem_readRow columns place l mem).isInCell
    refine List.forall_mem_cons.2 ⟨inCell head, fun row h => ?_⟩
    obtain ⟨leaves, mem, rfl⟩ := List.mem_map.1 h
    obtain ⟨place, rfl⟩ := readRow_of_mem_rowsFrom mem
    exact inCell place

theorem events_tableOf (c : StreamContext) (path : List Container) (columns head fuel body : Nat) :
    (tableOf c path columns head fuel body).events =
      c.table (readRow c.source path columns head).1 (rowsFrom c.source path columns fuel body).1 := by
  simp [Table.events, Table.tagged, tableOf, StreamContext.table, rowEvents, StreamContext.row_eq,
    List.flatMap_map]

/-- The tables of every block of a document are whole. -/
theorem hasWholeTables_holdsOfBlocks (s : Source) : HoldsOfBlocks s fun b =>
    ∀ c : StreamContext, c.source = s → HasWholeTables (blockEvents c b) where
  paragraph l c _ := by
    have content := HasWholeTables.of_forall (isAside_of_mem_leaf c false l)
    rw [blockEvents]
    split
    · exact content
    · exact content.enclosed .paragraph nofun nofun
  heading level l c _ :=
    (HasWholeTables.of_forall (isAside_of_mem_leaf c false l)).enclosed (.heading level) nofun nofun
  rule _ _ := .aside ⟨nofun, fun _ => rfl⟩ .nil
  fenced _ _ _ _ _ _ _ := hasWholeTables_code _
  indented _ _ _ _ _ _ := hasWholeTables_code _
  html _ _ _ _ _ _ _ := by
    refine HasWholeTables.enclosed (.of_forall fun e he => ?_) .htmlBlock nofun nofun
    obtain ⟨part, -, rfl⟩ := List.mem_map.1 he
    cases part <;> exact ⟨nofun, fun _ => rfl⟩
  table path columns head fuel body c source := by
    subst source
    have whole := HasWholeTables.table (tableOf c path columns head fuel body) .nil
    rw [List.append_nil, events_tableOf] at whole
    exact whole
  quote h c source :=
    (hasWholeTables_blocksEvents (c := { c with path := c.path ++ [.quote], tight := false }) h
      source).enclosed .quote nofun nofun
  list tight _ _ _ h c source :=
    (hasWholeTables_blocksEvents (c := { c with tight }) h source).enclosed (.list _) nofun nofun
  item indent _ h c source :=
    (hasWholeTables_blocksEvents (c := { c with path := c.path ++ [.item indent] }) h source).enclosed
      .item nofun nofun
  task indent checked _ h c source := by
    have content := hasWholeTables_blocksEvents (c := { c with path := c.path ++ [.item indent] }) h
      source
    rw [blockEvents, blocksEvents]
    exact (HasWholeTables.aside (e := .task checked) ⟨nofun, fun _ => rfl⟩ content).enclosed .item nofun
      nofun

/-- **Every table of a text is whole.** -/
theorem hasWholeTables_events (text : String) : HasWholeTables (Markdown.events text) :=
  hasWholeTables_blocksEvents
    (fun _ hb => (hasWholeTables_holdsOfBlocks (Source.ofText text)).of_mem_readDocument hb) rfl

/-! ### Tables on a page -/

namespace Renderer

/-- The rows stand in the columns of their table, one behind the other. -/
def RowsInColumns (r : Renderer) : List (Tag × List (List Event)) → Prop
  | [] => True
  | (tag, cells) :: rows =>
    r.InColumns tag cells ∧ ((rowEvents tag cells).foldl handle r).RowsInColumns rows

variable {r : Renderer}

/-- A row ends its line. -/
theorem IsAt.rowEvents {fresh : Bool} {tag : Tag} {cells : List (List Event)} (h : r.IsAt fresh)
    (row : tag = .tableHead ∨ tag = .tableRow) (inCell : ∀ c ∈ cells, ∀ e ∈ c, e.IsInCell) :
    ((rowEvents tag cells).foldl Renderer.handle r).IsAt true where
  code := by
    rw [inCode_foldl, leavesCode_of_forall (isAside_of_mem_rowEvents row inCell), h.code]
  spans := by
    rw [Markdown.rowEvents, List.foldl_append]
    rcases row with rfl | rfl <;> simp [Renderer.handle, stop, flush_eq]

/-- Behind the end of a line, rows stand in their columns exactly if the first cell of each of them
shows something. -/
theorem rowsInColumns_iff {rows : List (Tag × List (List Event))} (h : r.IsAt true)
    (tagged : ∀ row ∈ rows, row.1 = .tableHead ∨ row.1 = .tableRow)
    (inCell : ∀ row ∈ rows, ∀ c ∈ row.2, ∀ e ∈ c, e.IsInCell) :
    r.RowsInColumns rows ↔ ∀ row ∈ rows, opensRow row.2 = true := by
  induction rows generalizing r with
  | nil => exact iff_of_true trivial (by simp)
  | cons row rows ih =>
    obtain ⟨tag, cells⟩ := row
    obtain ⟨here, others⟩ := List.forall_mem_cons.1 tagged
    obtain ⟨cellsHere, cellsOthers⟩ := List.forall_mem_cons.1 inCell
    have fresh : r.spans = [] := List.isEmpty_iff.1 h.spans
    rw [RowsInColumns, inColumns_iff here h.code cellsHere, ih (h.rowEvents here cellsHere) others
      cellsOthers, List.forall_mem_cons]
    simp [fresh]

/-- A table is shown with each of its rows in its columns. -/
def ShowsTable (r : Renderer) (t : Table) : Prop := (r.handle (.start .table)).RowsInColumns t.tagged

theorem showsTable_iff (code : r.inCode = false) (t : Table) :
    r.ShowsTable t ↔ r.spans = [] ∧ ∀ row ∈ t.head :: t.rows, opensRow row = true := by
  have here : r.IsAt r.spans.isEmpty := ⟨code, rfl⟩
  have headCells := t.isInCell t.head List.mem_cons_self
  have body : ((rowEvents .tableHead t.head).foldl handle r).RowsInColumns
      (t.rows.map (Tag.tableRow, ·)) ↔ ∀ row ∈ t.rows, opensRow row = true := by
    rw [rowsInColumns_iff (here.rowEvents (.inl rfl) headCells)
      (fun row h => (t.of_mem_tagged row (List.mem_cons_of_mem _ h)).1)
      (fun row h => t.isInCell _ (t.of_mem_tagged row (List.mem_cons_of_mem _ h)).2)]
    simp
  rw [List.forall_mem_cons, ← and_assoc, ← inColumns_iff (.inl rfl) code headCells, ← body]
  rfl

end Renderer

/-- **The rows of a table stand in their columns exactly if the table starts a line and the first cell of
each row shows something.** For every table of every text: each of its rows is a line of its own, with
one divider less than columns and the text of each cell between the dividers next to it, if and only if
no line has been started in front of the table and no row has a first cell that shows nothing. -/
theorem rows_stand_in_columns_iff (text : String) (before after : List Event)
    (h : events text = before ++ .start .table :: after) (width : Nat) (styles : Styles) :
    render text width styles =
        layOut styles (Renderer.blocks { styles, width } (events text)).flatten ∧
      ∃ (t : Table) (rest : List Event), .start .table :: after = t.events ++ rest ∧
        ((before.foldl Renderer.handle { styles, width }).ShowsTable t ↔
          hasStarted before = false ∧ ∀ row ∈ t.head :: t.rows, opensRow row = true) := by
  obtain ⟨code, t, rest, whole⟩ := (hasWholeTables_events text).exists_table h
  refine ⟨renderEvents_eq_layOut _ width styles, t, rest, whole, ?_⟩
  have started := Renderer.isEmpty_spans_foldl { styles, width } before
  have open' : (before.foldl Renderer.handle { styles, width }).inCode = false := by
    rw [Renderer.inCode_foldl]
    exact code
  have spans : hasStarted before =
      !(before.foldl Renderer.handle { styles, width }).spans.isEmpty :=
    (congrArg Prod.snd started).symm
  rw [Renderer.showsTable_iff open', ← List.isEmpty_iff, spans, Bool.not_eq_false']

/-- A row whose first cell is empty loses the divider behind that cell. -/
theorem row_without_first_cell_leaves_its_columns :
    (preview "|a|b|\n|-|-|\n||d|" 20).map Line.text = ["a │ b", "d"] ∧
      events "|a|b|\n|-|-|\n||d|" = [] ++ .start .table :: (events "|a|b|\n|-|-|\n||d|").tail ∧
      ∃ (t : Table) (rest : List Event),
        .start .table :: (events "|a|b|\n|-|-|\n||d|").tail = t.events ++ rest ∧
          (({ styles := .console, width := 20 } : Renderer).ShowsTable t ↔
            hasStarted [] = false ∧ ∀ row ∈ t.head :: t.rows, opensRow row = true) := by
  have split : events "|a|b|\n|-|-|\n||d|" =
      [] ++ .start .table :: (events "|a|b|\n|-|-|\n||d|").tail := by decide +kernel
  exact ⟨by decide +kernel, split, (rows_stand_in_columns_iff _ [] _ split 20 .console).2⟩

end PublisherConsole.Markdown
