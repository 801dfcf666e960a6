import PublisherConsole.Proofs.Markdown.Blocks
import PublisherConsole.Proofs.Markdown.LineAtHand
import PublisherConsole.Proofs.Markdown.Places

/-!
# The leaves of a document

The events of a document fall into segments: the leaf blocks, which are what holds text, and the edges
of containers and rules between them. `segmentsOf` goes over the blocks as `events` does, and puts the
same events in a row (`flatMap_segmentsOf`). In an item of a tight list a paragraph has no events of its
own, so that the events alone do not tell where one ends and another one starts.

`Segment.IsSound` is what all segments of a text have in common (`isSound_of_mem_segmentsOf`). An HTML
block is a row of parts, and no part goes on behind the end of a line.
-/

namespace PublisherConsole.Markdown

/-- A stretch of the events of a document. -/
inductive Segment
  /-- An edge of a container, a rule or the box of a task. -/
  | edge (e : Event)
  /-- A leaf block: a paragraph, a heading, a block of code or of HTML, or a row of a table. -/
  | leaf (tag : Tag) (events : List Event)
  deriving DecidableEq, Repr

namespace Segment

def events : Segment → List Event
  | edge e => [e]
  | leaf _ es => es

end Segment

mutual

/-- The segments of a block. -/
def segments (c : StreamContext) : Block → List Segment
  | .paragraph l =>
    [.leaf .paragraph <| if c.tight then c.leaf false l
      else .start .paragraph :: c.leaf false l ++ [.stop .paragraph]]
  | .heading level l =>
    [.leaf (.heading level) (.start (.heading level) :: c.leaf false l ++ [.stop (.heading level)])]
  | .rule => [.edge .rule]
  | .code texts =>
    [.leaf .codeBlock (.start .codeBlock :: texts.map (fun cs => .text (String.ofList cs))
      ++ [.stop .codeBlock])]
  | .html parts =>
    [.leaf .htmlBlock (.start .htmlBlock :: parts.map HtmlPart.event ++ [.stop .htmlBlock])]
  | .quote blocks =>
    .edge (.start .quote) :: segmentsAll { c with path := c.path ++ [.quote], tight := false } blocks
      ++ [.edge (.stop .quote)]
  | .list tight sign number items =>
    let tag : Tag := .list (if isOrderedSign sign then some number else none)
    .edge (.start tag) :: segmentsAll { c with tight } items ++ [.edge (.stop tag)]
  | .item indent blocks =>
    .edge (.start .item) :: segmentsAll { c with path := c.path ++ [.item indent] } blocks
      ++ [.edge (.stop .item)]
  | .task checked => [.edge (.task checked)]
  | .table head rows =>
    .edge (.start .table) ::
      .leaf .tableHead (.start .tableHead :: c.row head ++ [.stop .tableHead]) ::
      rows.map (fun r => .leaf .tableRow (.start .tableRow :: c.row r ++ [.stop .tableRow]))
      ++ [.edge (.stop .table)]

/-- The segments of a row of blocks. -/
def segmentsAll (c : StreamContext) : List Block → List Segment
  | [] => []
  | b :: bs => segments c b ++ segmentsAll c bs

end

/-- The segments of a text. -/
def segmentsOf (text : String) : List Segment :=
  let source := Source.ofText text
  let (blocks, labels) := readDocument source
  segmentsAll ⟨source, labels, [], false⟩ blocks

/-! ### They are the events -/

mutual

theorem flatMap_segments (c : StreamContext) :
    (b : Block) → (segments c b).flatMap Segment.events = blockEvents c b
  | .paragraph l => by
    rw [segments, blockEvents, List.flatMap_singleton]
    rfl
  | .heading level l => by simp [segments, blockEvents, Segment.events]
  | .rule => rfl
  | .code texts => by simp [segments, blockEvents, Segment.events]
  | .html parts => by simp [segments, blockEvents, Segment.events]
  | .quote blocks => by
    simp [segments, blockEvents, Segment.events, flatMap_segmentsAll _ blocks]
  | .list tight sign number items => by
    simp [segments, blockEvents, Segment.events, flatMap_segmentsAll _ items]
  | .item indent blocks => by
    simp [segments, blockEvents, Segment.events, flatMap_segmentsAll _ blocks]
  | .task checked => rfl
  | .table head rows => by
    simp [segments, blockEvents, Segment.events, StreamContext.table, List.flatMap_map]

theorem flatMap_segmentsAll (c : StreamContext) :
    (bs : List Block) → (segmentsAll c bs).flatMap Segment.events = blocksEvents c bs
  | [] => rfl
  | b :: bs => by
    rw [segmentsAll, blocksEvents, List.flatMap_append, flatMap_segments c b, flatMap_segmentsAll c bs]

end

theorem flatMap_segmentsOf (text : String) :
    (segmentsOf text).flatMap Segment.events = Markdown.events text := flatMap_segmentsAll _ _

/-! ### What they have in common -/

/-- A part of an HTML block: blanks in front of a line, or a stretch of a line, perhaps with its line
feed. A carriage return in front of the line feed is no part. -/
inductive Event.IsHtmlPart : Event → Prop
  | indent {s : String} (some : s ≠ "") (h : '\n' ∉ s.toList) : IsHtmlPart (.text s)
  | stretch {cs : List Char} (h : '\n' ∉ cs) : IsHtmlPart (.html (String.ofList cs))
  | line {cs : List Char} (h : '\n' ∉ cs) (plain : cs.getLast? ≠ some '\r') :
    IsHtmlPart (.html (String.ofList (cs ++ ['\n'])))

/-- What holds of every segment of a text. -/
inductive Segment.IsSound : Segment → Prop
  | edge {e : Event} (text : e.text? = none) (code : ∀ inCode, e.leavesCode inCode = inCode) :
    IsSound (.edge e)
  | leaf {tag : Tag} {es : List Event} (html : tag ≠ .htmlBlock) (code : leavesCode false es = false) :
    IsSound (.leaf tag es)
  | html {parts : List Event} (h : ∀ e ∈ parts, e.IsHtmlPart) :
    IsSound (.leaf .htmlBlock (.start .htmlBlock :: parts ++ [.stop .htmlBlock]))

section Html

variable {s : Source} {i j k : Nat}

/-- No line feed is between a place and the next line feed behind it. -/
theorem lineFeed_notMem_slice_of_le (low : i ≤ j) (high : k ≤ s.find '\n' i) : '\n' ∉ s.slice j k := by
  intro h
  obtain ⟨m, le, lt, here⟩ := Source.exists_of_mem_slice h
  have other := Source.of_lt_skip (Nat.le_trans low le) (Nat.lt_of_lt_of_le lt high)
  simp [here] at other

/-- What is read up to the next line has no line feed, or ends with the only one. -/
theorem slice_nextLine (s : Source) (i : Nat) : '\n' ∉ s.slice i (s.nextLine i) ∨
    s.slice i (s.nextLine i) = s.slice i (s.find '\n' i) ++ ['\n'] ∧
      s.nextLine i = s.find '\n' i + 1 := by
  have low : i ≤ s.find '\n' i := s.le_skip _ i
  have stops := s.not_any_skip (· ≠ '\n') i
  have next : s.nextLine i = if s.isEnd (s.find '\n' i) then s.find '\n' i else s.find '\n' i + 1 := rfl
  change (s.char? (s.find '\n' i)).any _ = false at stops
  cases here : s.char? (s.find '\n' i) with
  | none =>
    refine .inl fun h => ?_
    obtain ⟨m, le, lt, feed⟩ := Source.exists_of_mem_slice h
    have last : m ≠ s.find '\n' i := fun heq => by simp [heq, here] at feed
    have short : m < s.find '\n' i := by
      split at next <;> omega
    have other := Source.of_lt_skip le short
    simp [feed] at other
  | some c =>
    obtain rfl : c = '\n' := by simpa [here] using stops
    have more : s.isEnd (s.find '\n' i) = false := by
      rw [Source.char?] at here
      split at here
      · simp [Source.isEnd]; omega
      · cases here
    rw [more, if_neg Bool.false_ne_true] at next
    exact .inr ⟨next ▸ Source.slice_succ low here, next⟩

theorem isHtmlPart_of_slice_succ (k : Nat) :
    (HtmlPart.html (s.slice k (k + 1))).event.IsHtmlPart := by
  cases here : s.char? k with
  | none =>
    refine .stretch fun h => ?_
    obtain ⟨m, le, lt, feed⟩ := Source.exists_of_mem_slice h
    obtain rfl : m = k := by omega
    cases here.symm.trans feed
  | some c =>
    rw [Source.slice_succ (Nat.le_refl k) here, Source.slice_of_le (Nat.le_refl k)]
    by_cases feed : c = '\n'
    · subst feed
      have feed : Event.IsHtmlPart (.html (String.ofList ([] ++ ['\n']))) := .line (by simp) (by simp)
      exact feed
    · exact .stretch (by simpa using Ne.symm feed)

theorem isHtmlPart_of_mem_htmlLine {columns : Nat} :
    ∀ part ∈ htmlLine s columns i (s.nextLine i), part.event.IsHtmlPart := by
  have indent : ∀ part ∈ if columns > 0 then [HtmlPart.indent (List.replicate columns ' ')] else [],
      part.event.IsHtmlPart := by
    split
    next some =>
      refine List.forall_mem_singleton.2 (.indent (fun none => ?_) (by simp))
      have none := congrArg (fun s => s.toList.length) none
      simp at none
      omega
    next => simp
  have bound : s.nextLine i ≤ s.find '\n' i + 1 := by
    unfold Source.nextLine
    dsimp only
    split <;> omega
  unfold htmlLine
  dsimp only
  split
  next return' =>
    have two : 2 ≤ s.nextLine i := by simpa using (Bool.and_eq_true_iff.1 return').2
    refine List.forall_mem_append.2 ⟨indent, List.forall_mem_cons.2 ⟨?_, List.forall_mem_singleton.2 ?_⟩⟩
    · exact .stretch (lineFeed_notMem_slice_of_le (Nat.le_refl i) (by omega))
    · have last := isHtmlPart_of_slice_succ (s := s) (s.nextLine i - 1)
      rwa [show s.nextLine i - 1 + 1 = s.nextLine i by omega] at last
  next plain =>
    refine List.forall_mem_append.2 ⟨indent, List.forall_mem_singleton.2 ?_⟩
    rcases slice_nextLine s i with none | ⟨one, next⟩
    · exact .stretch none
    · rw [one]
      refine .line (lineFeed_notMem_slice_of_le (Nat.le_refl i) (Nat.le_refl _)) fun last => plain ?_
      have some : i < s.find '\n' i := by
        refine Nat.lt_of_not_le fun none => ?_
        rw [Source.slice_of_le none] at last
        cases last
      obtain ⟨m, stop⟩ : ∃ m, s.find '\n' i = m + 1 := ⟨s.find '\n' i - 1, by omega⟩
      have before := Source.of_lt_skip (k := m) (show i ≤ m by omega)
        (show m < s.find '\n' i by omega)
      obtain ⟨c, here, -⟩ := (Option.any_eq_true _ _).1 before
      rw [stop, Source.slice_succ (show i ≤ m by omega) here, List.getLast?_concat] at last
      rw [next, stop, Source.isAt, show m + 1 + 1 - 2 = m by omega, here, last]
      simp

theorem isHtmlPart_of_mem_htmlFrom {path : List Container} {ending : Option (List Char)}
    {parts : List HtmlPart} (h : ∀ part ∈ parts, part.event.IsHtmlPart) (fuel columns i : Nat) :
    ∀ part ∈ (htmlFrom s path ending fuel parts columns i).1, part.event.IsHtmlPart := by
  induction fuel generalizing parts columns i with
  | zero => exact h
  | succ fuel ih =>
    have more : ∀ part ∈ parts ++ htmlLine s columns i (s.nextLine i), part.event.IsHtmlPart :=
      List.forall_mem_append.2 ⟨h, isHtmlPart_of_mem_htmlLine⟩
    rw [htmlFrom]
    dsimp only
    split
    · exact more
    · split
      · split
        · exact more
        · exact ih more _ _
      · split
        · exact more
        · exact ih more _ _

end Html

theorem isSound_of_mem_segmentsAll {blocks : List Block} (c : StreamContext)
    (h : ∀ b ∈ blocks, ∀ c : StreamContext, ∀ seg ∈ segments c b, seg.IsSound) :
    ∀ seg ∈ segmentsAll c blocks, seg.IsSound := by
  induction blocks with
  | nil => exact nofun
  | cons b blocks ih =>
    obtain ⟨here, rest⟩ := List.forall_mem_cons.1 h
    rw [segmentsAll]
    exact List.forall_mem_append.2 ⟨here c, ih rest⟩

/-- Segments between edges. -/
theorem isSound_enclosed {segs : List Segment} (h : ∀ seg ∈ segs, seg.IsSound) (tag : Tag)
    (code : tag ≠ .codeBlock) :
    ∀ seg ∈ .edge (.start tag) :: segs ++ [.edge (.stop tag)], seg.IsSound := by
  have edges : Segment.IsSound (.edge (.start tag)) ∧ Segment.IsSound (.edge (.stop tag)) := by
    refine ⟨.edge rfl fun _ => ?_, .edge rfl fun _ => ?_⟩ <;> cases tag <;>
      first | exact absurd rfl code | rfl
  exact List.forall_mem_append.2
    ⟨List.forall_mem_cons.2 ⟨edges.1, h⟩, List.forall_mem_singleton.2 edges.2⟩

theorem isAside_enclosed {es : List Event} (h : ∀ e ∈ es, e.IsAside) (tag : Tag) (table : tag ≠ .table)
    (code : tag ≠ .codeBlock) : ∀ e ∈ .start tag :: es ++ [.stop tag], e.IsAside := by
  refine List.forall_mem_append.2 ⟨List.forall_mem_cons.2 ⟨?_, h⟩, List.forall_mem_singleton.2 ?_⟩
  · refine ⟨fun h => table (Event.start.inj h), fun _ => ?_⟩
    cases tag <;> first | exact absurd rfl code | rfl
  · refine ⟨nofun, fun _ => ?_⟩
    cases tag <;> first | exact absurd rfl code | rfl

theorem isAside_of_mem_row (c : StreamContext) (cells : List Leaf) : ∀ e ∈ c.row cells, e.IsAside := by
  intro e he
  obtain ⟨l, -, he⟩ := List.mem_flatMap.1 he
  exact isAside_enclosed (isAside_of_mem_leaf c true l) .tableCell nofun nofun e he

theorem isSound_code (c : StreamContext) (texts : List (List Char)) :
    ∀ seg ∈ segments c (.code texts), seg.IsSound := by
  refine List.forall_mem_singleton.2 (.leaf nofun ?_)
  rw [leavesCode_append]
  rfl

theorem isSound_row {c : StreamContext} {tag : Tag} (row : tag = .tableHead ∨ tag = .tableRow)
    (cells : List Leaf) : Segment.IsSound (.leaf tag (.start tag :: c.row cells ++ [.stop tag])) := by
  have aside : ∀ e ∈ .start tag :: c.row cells ++ [.stop tag], e.IsAside := by
    rcases row with rfl | rfl
    · exact isAside_enclosed (isAside_of_mem_row c cells) .tableHead nofun nofun
    · exact isAside_enclosed (isAside_of_mem_row c cells) .tableRow nofun nofun
  refine .leaf ?_ (leavesCode_of_forall aside false)
  rcases row with rfl | rfl <;> exact nofun

/-- The segments of every block of a document are sound. -/
theorem isSound_holdsOfBlocks (s : Source) : HoldsOfBlocks s fun b =>
    ∀ c : StreamContext, ∀ seg ∈ segments c b, seg.IsSound where
  paragraph l c := by
    refine List.forall_mem_singleton.2 (.leaf nofun ?_)
    split
    · exact leavesCode_of_forall (isAside_of_mem_leaf c false l) false
    · exact leavesCode_of_forall (isAside_enclosed (isAside_of_mem_leaf c false l) .paragraph nofun nofun)
        false
  heading level l c := List.forall_mem_singleton.2 <|
    .leaf nofun <| leavesCode_of_forall
      (isAside_enclosed (isAside_of_mem_leaf c false l) (.heading level) nofun nofun) false
  rule _ := List.forall_mem_singleton.2 (.edge rfl fun _ => rfl)
  fenced _ _ _ _ _ c := isSound_code c _
  indented _ _ _ _ c := isSound_code c _
  html path ending fuel columns i c := by
    refine List.forall_mem_singleton.2 (.html fun e he => ?_)
    obtain ⟨part, mem, rfl⟩ := List.mem_map.1 he
    exact isHtmlPart_of_mem_htmlFrom (by simp) fuel columns i part mem
  table path columns head fuel body c := by
    have rows : ∀ seg ∈ (rowsFrom s path columns fuel body).1.map (fun r =>
        Segment.leaf .tableRow (.start .tableRow :: c.row r ++ [.stop .tableRow])), seg.IsSound := by
      intro seg hs
      obtain ⟨cells, -, rfl⟩ := List.mem_map.1 hs
      exact isSound_row (.inr rfl) cells
    rw [segments]
    exact isSound_enclosed (List.forall_mem_cons.2 ⟨isSound_row (.inl rfl) _, rows⟩) .table nofun
  quote h c := isSound_enclosed (isSound_of_mem_segmentsAll _ h) .quote nofun
  list _ _ _ _ h c := isSound_enclosed (isSound_of_mem_segmentsAll _ h) (.list _) nofun
  item _ _ h c := isSound_enclosed (isSound_of_mem_segmentsAll _ h) .item nofun
  task _ checked _ h c := by
    rw [segments, segmentsAll]
    exact isSound_enclosed (List.forall_mem_cons.2 ⟨.edge rfl fun _ => rfl,
      isSound_of_mem_segmentsAll _ h⟩) .item nofun

/-- **All segments of a text are sound.** -/
theorem isSound_of_mem_segmentsOf (text : String) : ∀ seg ∈ segmentsOf text, seg.IsSound :=
  isSound_of_mem_segmentsAll _ fun _ hb =>
    (isSound_holdsOfBlocks (Source.ofText text)).of_mem_readDocument hb

end PublisherConsole.Markdown
