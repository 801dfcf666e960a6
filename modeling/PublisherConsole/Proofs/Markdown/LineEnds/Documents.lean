import PublisherConsole.Proofs.Markdown.LineEnds.Leaves
import PublisherConsole.Proofs.Markdown.LineEnds.Pages

/-!
# Documents with carriage returns

A document is read block by block, each one from where the one before it ends (`readBlock_crlf`), so that
with carriage returns the same blocks come to stand where they should (`readDocument_crlf`), and the same
labels have definitions. Their segments are those of the text, recut (`segments_crlf`).
-/

namespace PublisherConsole.Markdown

variable {s : Source} {r : Reader} {i n n' : Nat} [s.IsPlain]

/-- **A block is read as before.** -/
theorem readBlock_crlf (h : r.Holds s.HasBlock) (labels : s.HasPlainLabels) (inside : i < s.stop) :
    s.IsRead i (readBlock s r i) (readBlock s.crlf (s.shiftReader r) (s.shift i)) := by
  have frames : (s.shiftReader r).frames.reverse.map (·.1) = r.frames.reverse.map (·.1) := by
    rw [Source.shiftReader, ← List.map_reverse, List.map_map]
    rfl
  have margin := Reader.le_place_continuing (s := s) (r.frames.reverse.map (·.1)) (Margin.start i)
  unfold readBlock
  rw [frames, start_shift, Reader.continuing_crlf, Reader.length_shiftReader]
  generalize Reader.continuing s (r.frames.reverse.map (·.1)) (Margin.start i) = q at margin ⊢
  obtain ⟨count, m⟩ := q
  have kept := (h.popTo s.hasBlock_holdsOfContainers count r.frames.length).openContainers
    s.hasBlock_holdsOfContainers s (s.stop + 1 - i) m
  have low := Reader.le_place_openContainers s (s.stop + 1 - i) (Reader.popTo count r.frames.length r) m
  have opened : Reader.openContainers s.crlf (s.crlf.stop + 1 - s.shift i)
      (s.shiftReader (Reader.popTo count r.frames.length r)) (s.shiftMargin m) =
        (Reader.openContainers s (s.stop + 1 - i) (Reader.popTo count r.frames.length r) m).shift s := by
    have margin' := (Source.shift_le_iff (s := s)).2 margin
    refine Reader.openContainers_crlf ?_ ?_ _
    · dsimp only [Margin.start] at margin
      omega
    · dsimp only [Margin.start] at margin'
      omega
  dsimp only at margin ⊢
  rw [Reader.popTo_shiftReader, opened]
  generalize Reader.openContainers s (s.stop + 1 - i) (Reader.popTo count r.frames.length r) m = o at kept low ⊢
  obtain ⟨r', m', next⟩ := o
  obtain ⟨opens, further⟩ := low
  have low : i ≤ m'.place := Nat.le_trans margin opens
  dsimp only [Reader.Opened.shift] at kept further ⊢
  cases next with
  | some behind => exact ⟨kept, Nat.lt_of_le_of_lt margin (further behind rfl), rfl⟩
  | none =>
    dsimp only [Option.map_none]
    rw [place_shiftMargin, Source.blankLine?_crlf, Reader.noteBlank_shiftReader, Reader.finishList_shiftReader]
    cases blank : s.blankLine? m'.place with
    | some behind =>
      refine ⟨kept.noteBlank, ?_, rfl⟩
      rcases Nat.lt_or_ge m'.place s.stop with lt | end'
      · exact Nat.lt_of_le_of_lt low (Source.lt_of_blankLine? lt blank)
      · exact Nat.lt_of_lt_of_le inside (Nat.le_trans end' (Source.le_of_blankLine? blank))
    | none => exact (readLeaf_crlf (kept.finishList s.hasBlock_holdsOfContainers) labels blank).mono low

omit [s.IsPlain] in
theorem readBlocks_of_le (end' : s.stop ≤ i) (n : Nat) : readBlocks s n r i = r := by
  cases n with
  | zero => rfl
  | succ n => rw [readBlocks, Source.isEnd, if_pos (decide_eq_true end')]

theorem readBlocks_crlf (h : r.Holds s.HasBlock) (labels : s.HasPlainLabels) (enough : s.stop ≤ i + n)
    (enough' : s.crlf.stop ≤ s.shift i + n') : (readBlocks s n r i).Holds s.HasBlock ∧
      readBlocks s.crlf n' (s.shiftReader r) (s.shift i) = s.shiftReader (readBlocks s n r i) := by
  induction n using Nat.strong_induction_on generalizing n' r i with
  | h n ih =>
  by_cases end' : s.stop ≤ i
  · rw [readBlocks_of_le end', readBlocks_of_le (Source.shift_le_iff.2 end')]
    exact ⟨h, rfl⟩
  · have inside := Nat.not_le.1 end'
    have inside' := (Source.shift_lt_iff (s := s)).2 inside
    obtain ⟨n, rfl⟩ : ∃ m, n = m + 1 := ⟨n - 1, by omega⟩
    obtain ⟨n', rfl⟩ : ∃ m, n' = m + 1 := ⟨n' - 1, by rw [Source.stop_crlf] at enough'; omega⟩
    have more : ¬ s.isEnd i = true := by simpa [Source.isEnd] using inside
    obtain ⟨held, lt, same⟩ := readBlock_crlf h labels inside
    rw [readBlocks, readBlocks, Source.isEnd_crlf, if_neg more, if_neg more, same]
    generalize readBlock s r i = q at held lt ⊢
    have lt' := (Source.shift_lt_iff (s := s)).2 lt
    exact ih n (Nat.lt_succ_self n) held (by omega) (by omega)

/-- The labels of a document are in one line. -/
theorem isOneLine_of_mem_labels (labels : s.HasPlainLabels) : ∀ label ∈ (readDocument s).2, IsOneLine label :=
  fun _ h => by
    obtain ⟨path, i, behind, read⟩ := exists_of_mem_labels h
    exact isOneLine_of_definition? labels read

/-- **With carriage returns a document has the same blocks**, at the places where they come to stand, and the
same definitions. -/
theorem readDocument_crlf (labels : s.HasPlainLabels) : (∀ b ∈ (readDocument s).1, s.HasBlock b) ∧
    readDocument s.crlf = ((readDocument s).1.map s.shiftBlock, (readDocument s).2) := by
  have start : Reader.start.Holds s.HasBlock := ⟨nofun, nofun⟩
  obtain ⟨held, same⟩ := readBlocks_crlf start labels (show s.stop ≤ 0 + (s.stop + 1) by omega)
    (show s.crlf.stop ≤ s.shift 0 + (s.crlf.stop + 1) by omega)
  have closed := held.popTo s.hasBlock_holdsOfContainers 0 (readBlocks s (s.stop + 1) Reader.start 0).frames.length
  have empty : s.shiftReader Reader.start = Reader.start := rfl
  rw [Source.shift_zero, empty] at same
  refine ⟨fun b hb => closed.done b (List.mem_reverse.1 hb), ?_⟩
  unfold readDocument
  dsimp only
  rw [same, Reader.length_shiftReader, Reader.popTo_shiftReader]
  exact congrArg (·, _) List.map_reverse.symm

/-! ### Segments -/

theorem flatMap_recut_enclosed (tag : Tag) (es : List Event) :
    (Event.start tag :: es ++ [Event.stop tag]).flatMap Event.recut =
      .start tag :: es.flatMap Event.recut ++ [.stop tag] := by
  simp [Event.recut]

theorem isPlain_enclosed (tag : Tag) {es : List Event} (h : ∀ e ∈ es, e.IsPlain) :
    ∀ e ∈ Event.start tag :: es ++ [Event.stop tag], e.IsPlain :=
  List.forall_mem_append.2 ⟨List.forall_mem_cons.2 ⟨.other fun _ => ⟨nofun, nofun⟩, h⟩,
    List.forall_mem_singleton.2 (.other fun _ => ⟨nofun, nofun⟩)⟩

variable {labels : List (List Char)} (known : ∀ label ∈ labels, IsOneLine label) {path : List Container} {tight : Bool}

include known in
/-- The events of a leaf are those of the text, recut. -/
theorem leaf_crlf (plain : s.HasPlainLabels) (inTable : Bool) {l : Leaf} (row : s.HasRow l.pieces) :
    StreamContext.leaf ⟨s.crlf, labels, path, tight⟩ inTable (s.shiftLeaf l) =
      (StreamContext.leaf ⟨s, labels, path, tight⟩ inTable l).flatMap Event.recut := by
  have settled := settle_crlf (c := ⟨s.upTo l.stop, path, inTable, labels⟩) (plain.upTo l.stop) known (row.upTo l.stop)
  have events := inlinesEvents_recut (settle ⟨s.upTo l.stop, path, inTable, labels⟩ l.pieces)
  rw [Inline.recutAll_eq] at events
  unfold StreamContext.leaf
  rw [← events, ← settled]
  dsimp only [Source.shiftLeaf, InlineContext.crlf]
  rw [Source.upTo_crlf]
  rfl

theorem isPlain_of_mem_leaf (inTable : Bool) (l : Leaf) :
    ∀ e ∈ StreamContext.leaf ⟨s, labels, path, tight⟩ inTable l, e.IsPlain :=
  isPlain_of_mem_settle (c := ⟨s.upTo l.stop, path, inTable, labels⟩) l.pieces

include known in
theorem row_crlf (plain : s.HasPlainLabels) {cells : List Leaf} (rows : ∀ l ∈ cells, s.HasRow l.pieces) :
    StreamContext.row ⟨s.crlf, labels, path, tight⟩ (cells.map s.shiftLeaf) =
      (StreamContext.row ⟨s, labels, path, tight⟩ cells).flatMap Event.recut := by
  rw [StreamContext.row, StreamContext.row, List.flatMap_map, List.flatMap_assoc]
  refine List.flatMap_congr fun l hl => ?_
  rw [flatMap_recut_enclosed, leaf_crlf known plain true (rows l hl)]

theorem isPlain_of_mem_row (cells : List Leaf) :
    ∀ e ∈ StreamContext.row ⟨s, labels, path, tight⟩ cells, e.IsPlain := by
  intro e he
  obtain ⟨l, -, he⟩ := List.mem_flatMap.1 he
  exact isPlain_enclosed .tableCell (isPlain_of_mem_leaf true l) e he

/-- Segments, and what they become with carriage returns. -/
structure AreRecut (segs segs' : List Segment) : Prop where
  same : segs' = segs.map Segment.recut
  plain : ∀ seg ∈ segs, seg.IsPlain

namespace AreRecut

theorem edge (e : Event) : AreRecut [.edge e] [.edge e] := ⟨rfl, List.forall_mem_singleton.2 (.edge e)⟩

theorem leaf (tag : Tag) (other : tag ≠ .codeBlock) {es es' : List Event} (same : es' = es.flatMap Event.recut)
    (plain : ∀ e ∈ es, e.IsPlain) : AreRecut [.leaf tag es] [.leaf tag es'] where
  same := by rw [List.map_singleton, (Segment.recut_leaf other es).1, same]
  plain := List.forall_mem_singleton.2 (.leaf other plain)

theorem append {segs segs' more more' : List Segment} (h : AreRecut segs segs') (h' : AreRecut more more') :
    AreRecut (segs ++ more) (segs' ++ more') where
  same := by rw [h.same, h'.same, List.map_append]
  plain := List.forall_mem_append.2 ⟨h.plain, h'.plain⟩

theorem enclosed {segs segs' : List Segment} (h : AreRecut segs segs') (tag : Tag) :
    AreRecut (.edge (.start tag) :: segs ++ [.edge (.stop tag)]) (.edge (.start tag) :: segs' ++ [.edge (.stop tag)]) :=
  ((edge (.start tag)).append h).append (edge (.stop tag))

theorem code (texts : List (List Char)) :
    AreRecut [.leaf .codeBlock (codeEvents texts)] [.leaf .codeBlock (codeEvents (texts.flatMap recut))] where
  same := by rw [List.map_singleton, Segment.recut, recut_codeEvents]
  plain := List.forall_mem_singleton.2 (.code texts)

/-- An element around events. -/
theorem element (tag : Tag) (other : tag ≠ .codeBlock) {es es' : List Event} (same : es' = es.flatMap Event.recut)
    (plain : ∀ e ∈ es, e.IsPlain) :
    AreRecut [.leaf tag (.start tag :: es ++ [.stop tag])] [.leaf tag (.start tag :: es' ++ [.stop tag])] :=
  leaf tag other (by rw [flatMap_recut_enclosed, same]) (isPlain_enclosed tag plain)

theorem map {α : Type} {f f' : α → Segment} {as : List α} (h : ∀ a ∈ as, AreRecut [f a] [f' a]) :
    AreRecut (as.map f) (as.map f') := by
  induction as with
  | nil => exact ⟨rfl, nofun⟩
  | cons a as ih =>
    obtain ⟨here, rest⟩ := List.forall_mem_cons.1 h
    exact here.append (ih rest)

theorem segmentsAll {c c' : StreamContext} {f : Block → Block} {blocks : List Block}
    (h : ∀ b ∈ blocks, AreRecut (segments c b) (segments c' (f b))) :
    AreRecut (segmentsAll c blocks) (segmentsAll c' (blocks.map f)) := by
  induction blocks with
  | nil => exact ⟨rfl, nofun⟩
  | cons b blocks ih =>
    obtain ⟨here, rest⟩ := List.forall_mem_cons.1 h
    exact here.append (ih rest)

end AreRecut

include known in
/-- **With carriage returns the segments of a block are recut**, and nothing else. -/
theorem segments_crlf (plain : s.HasPlainLabels) {b : Block} (h : s.HasBlock b) (path : List Container) (tight : Bool) :
    AreRecut (segments ⟨s, labels, path, tight⟩ b) (segments ⟨s.crlf, labels, path, tight⟩ (s.shiftBlock b)) := by
  induction h generalizing path tight with
  | @paragraph l row =>
    cases tight with
    | true => exact .leaf .paragraph (by simp) (leaf_crlf known plain false row) (isPlain_of_mem_leaf false l)
    | false => exact .element .paragraph (by simp) (leaf_crlf known plain false row) (isPlain_of_mem_leaf false l)
  | heading level row => exact .element (.heading level) (by simp) (leaf_crlf known plain false row) (isPlain_of_mem_leaf false _)
  | rule => exact .edge .rule
  | code texts => exact .code texts
  | @html parts all =>
    refine .element .htmlBlock (by simp) ?_ fun e he => ?_
    · rw [List.map_flatMap, List.flatMap_map]
      exact List.flatMap_congr fun part _ => event_recut part
    · obtain ⟨part, mem, rfl⟩ := List.mem_map.1 he
      exact all part mem
  | quote _ ih =>
    rw [Source.shiftBlock, s.shiftBlocks_eq]
    exact (AreRecut.segmentsAll fun b hb => ih b hb _ _).enclosed .quote
  | list _ _ _ _ ih =>
    rw [Source.shiftBlock, s.shiftBlocks_eq]
    exact (AreRecut.segmentsAll fun b hb => ih b hb _ _).enclosed (.list _)
  | item _ _ ih =>
    rw [Source.shiftBlock, s.shiftBlocks_eq]
    exact (AreRecut.segmentsAll fun b hb => ih b hb _ _).enclosed .item
  | task checked => exact .edge (.task checked)
  | @table head rows row rows' =>
    rw [Source.shiftBlock, segments, segments, List.map_map]
    refine ((AreRecut.element .tableHead (by simp) ?_ ?_).append (AreRecut.map fun cells hc =>
      AreRecut.element .tableRow (by simp) ?_ ?_)).enclosed .table
    · exact row_crlf known plain row
    · exact isPlain_of_mem_row head
    · exact row_crlf known plain (rows' cells hc)
    · exact isPlain_of_mem_row cells

/-! ### Texts -/

/-- A text with a carriage return in front of every line feed. -/
def crlfText (text : String) : String := String.ofList (withReturns text.toList)

theorem length_withReturns (cs : List Char) : (withReturns cs).length = cs.length + cs.count '\n' := by
  induction cs with
  | nil => rfl
  | cons c cs ih =>
    rw [withReturns_cons, List.length_append, ih, List.length_cons, List.count_cons]
    by_cases feed : c = '\n'
    · simp [feed]
      omega
    · simp [feed]
      omega

theorem ofText_crlfText (text : String) : Source.ofText (crlfText text) = (Source.ofText text).crlf := by
  have chars : (crlfText text).toList = withReturns text.toList := String.toList_ofList
  have stop : (Source.ofText text).shift text.toList.length = (withReturns text.toList).length := by
    rw [length_withReturns, Source.shift, Source.feeds, Source.ofText, List.take_length]
  rw [Source.ofText, chars, Source.crlf]
  exact congrArg (Source.mk _) stop.symm

theorem segmentsOf_crlfText {text : String} (plain : '\r' ∉ text.toList)
    (labels : (Source.ofText text).HasPlainLabels) :
    AreRecut (segmentsOf text) (segmentsOf (crlfText text)) := by
  have : (Source.ofText text).IsPlain := ⟨by simpa [Source.ofText] using plain, Nat.le_refl _⟩
  obtain ⟨held, same⟩ := readDocument_crlf labels
  unfold segmentsOf
  dsimp only
  rw [ofText_crlfText, same]
  exact .segmentsAll fun b hb => segments_crlf (isOneLine_of_mem_labels labels) labels (held b hb) [] false

/-- **Carriage returns in front of the line ends of a text show in code only**: each row of code that has anything
on it and is ended by a line feed gives one line more. If there is no such row, the same characters are shown in
the same styles. -/
theorem carriage_returns_show_in_code_only {text : String} (plain : '\r' ∉ text.toList)
    (labels : (Source.ofText text).HasPlainLabels) (width : Nat) (styles : Styles) :
    (render (crlfText text) width styles).length =
        (render text width styles).length + ((segmentsOf text).map Segment.endedRows).sum ∧
      ((render (crlfText text) width styles).map Screen.Line.chars = (render text width styles).map Screen.Line.chars ↔
        ((segmentsOf text).map Segment.endedRows).sum = 0) := by
  obtain ⟨same, segs⟩ := segmentsOf_crlfText plain labels
  have pages := renderEvents_recut segs width styles
  rwa [← same, flatMap_segmentsOf, flatMap_segmentsOf] at pages

/-- Two rows of code in a fence. -/
theorem carriage_returns_show_behind_rows_of_code :
    (render (crlfText "```\na\nb\n```") 20 .console).length = (render "```\na\nb\n```" 20 .console).length + 2 ∧
      (render (crlfText "```\na\nb\n```") 20 .console).map Screen.Line.chars ≠
        (render "```\na\nb\n```" 20 .console).map Screen.Line.chars := by
  have rows : ((segmentsOf "```\na\nb\n```").map Segment.endedRows).sum = 2 := by decide +kernel
  obtain ⟨length, same⟩ := carriage_returns_show_in_code_only (show '\r' ∉ "```\na\nb\n```".toList by decide)
    (.of_notMem (by decide)) 20 .console
  rw [rows] at length same
  exact ⟨length, fun alike => absurd (same.1 alike) (by decide)⟩

-- A line end may be escaped in the text of a link.
example : (Source.ofText "[a\\\nb](/u)").HasPlainLabels := by
  intro i bracket j low close _ _
  have stop : (Source.ofText "[a\\\nb](/u)").stop = 10 := by decide
  have first := stop ▸ Source.lt_stop bracket
  have last := stop ▸ Source.lt_stop close
  obtain rfl : i = 0 := by interval_cases i <;> revert bracket <;> decide
  obtain rfl : j = 5 := by interval_cases j <;> revert close <;> decide
  refine ⟨by decide, fun k low lt slash _ => ⟨by decide, fun m behind before here => ?_⟩⟩
  obtain rfl : k = 2 := by interval_cases k <;> revert slash <;> decide
  obtain rfl : m = 4 := by omega
  exact absurd here (by decide)

-- In the label of a definition it may not: such a label reads differently, and so does what refers to it.
example : ((segmentsOf "> [a\\\n> b]\n\n[a\\\nb]: /u").map Segment.endedRows).sum = 0 ∧
    (render (crlfText "> [a\\\n> b]\n\n[a\\\nb]: /u") 20 .console).map Screen.Line.chars ≠
      (render "> [a\\\n> b]\n\n[a\\\nb]: /u" 20 .console).map Screen.Line.chars := by decide +kernel

end PublisherConsole.Markdown
