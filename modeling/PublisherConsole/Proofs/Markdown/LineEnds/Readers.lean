import PublisherConsole.Proofs.Markdown.Blocks
import PublisherConsole.Proofs.Markdown.LineEnds.Code
import PublisherConsole.Proofs.Markdown.LineEnds.Settling

/-!
# Containers of a text with carriage returns

`Source.shiftBlock` is what becomes of a block: the pieces of a leaf come to stand where `Source.shift` says,
and code and HTML are recut. A reader has its blocks changed so (`Source.shiftReader`), and whatever opens or
closes a container does not look into them. So the containers of a line are opened as before
(`Reader.openContainers_crlf`), and the same ones go on (`Reader.continuing_crlf`).

`Source.HasBlock` says what the blocks of a source have in common. That a block was read from a place on, to
some place behind it and to the same with carriage returns, is `Source.IsRead`.
-/

namespace PublisherConsole.Markdown

variable {s : Source} {r : Reader} {m : Margin} {i j n n' : Nat}

/-! ### Blocks -/

/-- Where a leaf comes to stand. -/
def Source.shiftLeaf (s : Source) (l : Leaf) : Leaf := ⟨l.pieces.map s.shiftPiece, s.shift l.stop⟩

mutual

/-- What becomes of a block. -/
def Source.shiftBlock (s : Source) : Block → Block
  | .paragraph l => .paragraph (s.shiftLeaf l)
  | .heading level l => .heading level (s.shiftLeaf l)
  | .rule => .rule
  | .code texts => .code (texts.flatMap recut)
  | .html parts => .html (parts.flatMap HtmlPart.recut)
  | .quote blocks => .quote (s.shiftBlocks blocks)
  | .list tight sign number items => .list tight sign number (s.shiftBlocks items)
  | .item indent blocks => .item indent (s.shiftBlocks blocks)
  | .task checked => .task checked
  | .table head rows => .table (head.map s.shiftLeaf) (rows.map fun row => row.map s.shiftLeaf)

/-- What becomes of a row of blocks. -/
def Source.shiftBlocks (s : Source) : List Block → List Block
  | [] => []
  | b :: bs => s.shiftBlock b :: s.shiftBlocks bs

end

theorem Source.shiftBlocks_eq (s : Source) (bs : List Block) : s.shiftBlocks bs = bs.map s.shiftBlock := by
  induction bs with
  | nil => rfl
  | cons b bs ih => rw [shiftBlocks, ih, List.map_cons]

/-- What the blocks of a source have in common: the pieces of a leaf follow each other, and parts of HTML are
stretches of lines. -/
inductive Source.HasBlock (s : Source) : Block → Prop
  | paragraph {l : Leaf} (row : s.HasRow l.pieces) : HasBlock s (.paragraph l)
  | heading (level : Nat) {l : Leaf} (row : s.HasRow l.pieces) : HasBlock s (.heading level l)
  | rule : HasBlock s .rule
  | code (texts : List (List Char)) : HasBlock s (.code texts)
  | html {parts : List HtmlPart} (plain : ∀ part ∈ parts, part.event.IsPlain) : HasBlock s (.html parts)
  | quote {blocks : List Block} (h : ∀ b ∈ blocks, HasBlock s b) : HasBlock s (.quote blocks)
  | list (tight : Bool) (sign : Char) (number : Nat) {items : List Block} (h : ∀ b ∈ items, HasBlock s b) :
    HasBlock s (.list tight sign number items)
  | item (indent : Nat) {blocks : List Block} (h : ∀ b ∈ blocks, HasBlock s b) : HasBlock s (.item indent blocks)
  | task (checked : Bool) : HasBlock s (.task checked)
  | table {head : List Leaf} {rows : List (List Leaf)} (h : ∀ l ∈ head, s.HasRow l.pieces)
    (h' : ∀ row ∈ rows, ∀ l ∈ row, s.HasRow l.pieces) : HasBlock s (.table head rows)

theorem Source.hasBlock_holdsOfContainers (s : Source) : HoldsOfContainers s.HasBlock where
  quote h := .quote h
  list tight sign number _ h := .list tight sign number h
  item indent _ h := .item indent h
  task indent checked _ h := .item indent (List.forall_mem_cons.2 ⟨.task checked, h⟩)

/-! ### Readers -/

/-- What becomes of an open container with its blocks. -/
def Source.shiftFrame (s : Source) (f : Frame × List Block) : Frame × List Block := (f.1, f.2.map s.shiftBlock)

/-- What becomes of a reader: its blocks are those of a text with carriage returns. -/
def Source.shiftReader (s : Source) (r : Reader) : Reader :=
  { r with frames := r.frames.map s.shiftFrame, done := r.done.map s.shiftBlock }

/-- A block was read from a place on: the reader behind it and the place to go on from are `q`, and `q'` with
carriage returns. -/
structure Source.IsRead (s : Source) (i : Nat) (q q' : Reader × Nat) : Prop where
  holds : q.1.Holds s.HasBlock
  lt : i < q.2
  shift : q' = (s.shiftReader q.1, s.shift q.2)

theorem Source.IsRead.mono {q q' : Reader × Nat} (h : s.IsRead j q q') (le : i ≤ j) : s.IsRead i q q' :=
  ⟨h.holds, Nat.lt_of_le_of_lt le h.lt, h.shift⟩

namespace Reader

@[simp] theorem path_shiftReader (r : Reader) : (s.shiftReader r).path = r.path := by
  rw [path, path, Source.shiftReader, List.filterMap_map]
  rfl

@[simp] theorem length_shiftReader (r : Reader) : (s.shiftReader r).frames.length = r.frames.length :=
  List.length_map _

theorem add_shiftReader (r : Reader) (b : Block) :
    (s.shiftReader r).add (s.shiftBlock b) = s.shiftReader (r.add b) := by
  obtain ⟨frames, done, emptyItem, blank, labels⟩ := r
  cases frames <;> rfl

theorem pop_shiftReader (r : Reader) : (s.shiftReader r).pop = s.shiftReader r.pop := by
  obtain ⟨frames, done, emptyItem, blank, labels⟩ := r
  cases frames with
  | nil => rfl
  | cons top rest =>
    obtain ⟨f, blocks⟩ := top
    have inner : s.shiftBlocks blocks.reverse = (blocks.map s.shiftBlock).reverse := by
      rw [s.shiftBlocks_eq, List.map_reverse]
    have closed (b : Block) := add_shiftReader (s := s) ⟨rest, done, emptyItem, blank, labels⟩ b
    cases f with
    | quote =>
      have closed := closed (.quote blocks.reverse)
      rw [Source.shiftBlock, inner] at closed
      exact closed
    | item indent =>
      have closed := closed (.item indent blocks.reverse)
      rw [Source.shiftBlock, inner] at closed
      exact closed
    | list tight sign number =>
      have closed := closed (.list tight sign number blocks.reverse)
      rw [Source.shiftBlock, inner] at closed
      exact congrArg (fun r : Reader => { r with emptyItem := emptyItem && !tight }) closed

theorem popTo_shiftReader (n fuel : Nat) (r : Reader) :
    popTo n fuel (s.shiftReader r) = s.shiftReader (popTo n fuel r) := by
  induction fuel generalizing r with
  | zero => rfl
  | succ fuel ih =>
    rw [popTo, popTo, length_shiftReader, pop_shiftReader, ih]
    split <;> rfl

theorem finishEmptyItem_shiftReader (r : Reader) :
    (s.shiftReader r).finishEmptyItem = s.shiftReader r.finishEmptyItem := by
  have same : ((s.shiftReader r).emptyItem && (s.shiftReader r).blank) = (r.emptyItem && r.blank) := rfl
  unfold finishEmptyItem
  rw [same]
  split
  · rw [pop_shiftReader]
    obtain ⟨frames, done, emptyItem, blank, labels⟩ := r
    rcases frames with _ | ⟨⟨f, blocks⟩, rest⟩
    · rfl
    · cases f <;> rfl
  · rfl

/-- Close a list that stands innermost. -/
def closeList (r : Reader) : Reader :=
  match r.frames with
  | (.list .., _) :: _ => r.pop
  | _ => r

/-- A blank line before makes the list around loose. -/
def loosenParent (r : Reader) : Reader :=
  if r.blank then
    match r.frames with
    | top :: parent :: rest => { r with frames := top :: mapFrame Frame.loosen parent :: rest, blank := false }
    | _ => { r with blank := false }
  else r

theorem finishList_eq (r : Reader) : r.finishList = r.finishEmptyItem.closeList.loosenParent := rfl

theorem closeList_shiftReader (r : Reader) : (s.shiftReader r).closeList = s.shiftReader r.closeList := by
  rw [closeList, pop_shiftReader]
  obtain ⟨frames, done, emptyItem, blank, labels⟩ := r
  rcases frames with _ | ⟨⟨f, blocks⟩, rest⟩
  · rfl
  · cases f <;> rfl

theorem loosenParent_shiftReader (r : Reader) : (s.shiftReader r).loosenParent = s.shiftReader r.loosenParent := by
  obtain ⟨frames, done, emptyItem, blank, labels⟩ := r
  cases blank with
  | false => rfl
  | true => rcases frames with _ | ⟨top, _ | ⟨⟨f, blocks⟩, rest⟩⟩ <;> rfl

theorem finishList_shiftReader (r : Reader) : (s.shiftReader r).finishList = s.shiftReader r.finishList := by
  rw [finishList_eq, finishList_eq, finishEmptyItem_shiftReader, closeList_shiftReader, loosenParent_shiftReader]

theorem openList_shiftReader (r : Reader) (marker : ListMarker) :
    (s.shiftReader r).openList marker = s.shiftReader (r.openList marker) := by
  unfold openList
  dsimp only
  rw [finishEmptyItem_shiftReader, finishList_shiftReader]
  obtain ⟨frames, done, emptyItem, blank, labels⟩ := r.finishEmptyItem
  rcases frames with _ | ⟨⟨f, blocks⟩, rest⟩
  · rfl
  · cases f with
    | list tight sign number =>
      simp only [Source.shiftReader, List.map_cons, Source.shiftFrame]
      split
      · split <;> rfl
      · rfl
    | _ => rfl

theorem push_shiftReader (r : Reader) (f : Frame) : (s.shiftReader r).push f = s.shiftReader (r.push f) := rfl

theorem noteBlank_shiftReader (r : Reader) : (s.shiftReader r).noteBlank = s.shiftReader r.noteBlank := by
  obtain ⟨frames, done, emptyItem, blank, labels⟩ := r
  rcases frames with _ | ⟨⟨f, blocks⟩, rest⟩
  · rfl
  · cases f with
    | item indent => cases emptyItem <;> rfl
    | _ => rfl

/-! ### Containers of a line -/

/-- Where the containers of a line that were opened come to stand. -/
def Opened.shift (s : Source) (o : Opened) : Opened :=
  ⟨s.shiftReader o.reader, s.shiftMargin o.margin, o.next.map s.shift⟩

theorem listMarker?_of_le (end' : s.stop ≤ m.place) : m.listMarker? s = none := by
  have low := Margin.le_place_useUpTo (s := s) 4 m
  unfold Margin.listMarker?
  generalize m.useUpTo s 4 = used at low ⊢
  obtain ⟨indent, m'⟩ := used
  dsimp only at low ⊢
  rw [Source.char?, if_neg (Nat.not_lt.2 (Nat.le_trans end' low))]
  split <;> rfl

theorem quote?_of_le (end' : s.stop ≤ m.place) : m.quote? s = none := by
  have low := Margin.le_place_useUpTo (s := s) 3 m
  unfold Margin.quote?
  dsimp only
  rw [Source.isAt, Source.char?, if_neg (Nat.not_lt.2 (Nat.le_trans end' low))]
  rfl

theorem openContainers_of_le (end' : s.stop ≤ m.place) (n : Nat) (r : Reader) :
    openContainers s n r m = ⟨r, m, none⟩ := by
  cases n with
  | zero => rfl
  | succ n => rw [openContainers, listMarker?_of_le end', quote?_of_le end']

/-- Opening containers goes on, and behind a blank line it has gone on. -/
theorem le_place_openContainers (s : Source) (n : Nat) (r : Reader) (m : Margin) :
    m.place ≤ (openContainers s n r m).margin.place ∧
      ∀ behind ∈ (openContainers s n r m).next, m.place < behind := by
  induction n generalizing r m with
  | zero => exact ⟨Nat.le_refl _, fun _ h => absurd h (Option.not_mem_none _)⟩
  | succ n ih =>
    have further {m' : Margin} (lt : m.place < m'.place) (r : Reader) :
        m.place ≤ (openContainers s n r m').margin.place ∧
          ∀ behind ∈ (openContainers s n r m').next, m.place < behind :=
      ⟨Nat.le_trans (Nat.le_of_lt lt) (ih r m').1, fun behind h => Nat.lt_trans lt ((ih r m').2 behind h)⟩
    rw [openContainers]
    split
    next marker m' read =>
      have lt : m.place < m'.place := Margin.lt_place_of_listMarker? read
      dsimp only
      split
      next behind blank =>
        refine ⟨Nat.le_of_lt lt, fun behind' h => ?_⟩
        obtain rfl := Option.some.inj h
        exact Nat.lt_of_lt_of_le lt (Nat.le_trans (s.le_skip _ _) (Source.le_of_lineEnd? blank))
      next =>
        split
        next box => exact further (Nat.lt_of_lt_of_le lt (Margin.le_place_of_taskMarker? box)) _
        next => exact further lt _
    next =>
      split
      next m' read => exact further (Margin.lt_place_of_quote? read) _
      next => exact ⟨Nat.le_refl _, fun _ h => absurd h (Option.not_mem_none _)⟩

/-- What a container takes of the margin of a line in which it goes on; a list takes nothing. -/
def goesOn? (s : Source) (m : Margin) : Frame → Option Margin
  | .quote => m.quote? s
  | .item indent => m.container? s (.item indent)
  | .list .. => some m

theorem continuing_cons (s : Source) (f : Frame) (fs : List Frame) (m : Margin) : continuing s (f :: fs) m =
    match goesOn? s m f with
    | none => (0, m)
    | some m' => ((continuing s fs m').1 + 1, (continuing s fs m').2) := by
  cases f <;> rfl

/-- The margin of a line goes on. -/
theorem le_place_continuing (fs : List Frame) (m : Margin) : m.place ≤ (continuing s fs m).2.place := by
  induction fs generalizing m with
  | nil => exact Nat.le_refl _
  | cons f fs ih =>
    rw [continuing_cons]
    cases read : goesOn? s m f with
    | none => exact Nat.le_refl _
    | some m' =>
      refine Nat.le_trans ?_ (ih m')
      cases f with
      | quote => exact Nat.le_of_lt (Margin.lt_place_of_quote? read)
      | item indent => exact Margin.le_place_of_container? (s := s) (c := .item indent) read
      | list => exact Nat.le_of_eq (congrArg Margin.place (Option.some.inj read))

variable [s.IsPlain]

/-- **The containers of a line are opened as before.** -/
theorem openContainers_crlf (enough : s.stop ≤ m.place + n)
    (enough' : s.crlf.stop ≤ s.shift m.place + n') (r : Reader) :
    openContainers s.crlf n' (s.shiftReader r) (s.shiftMargin m) = (openContainers s n r m).shift s := by
  induction n using Nat.strong_induction_on generalizing n' r m with
  | h n ih =>
  by_cases end' : s.stop ≤ m.place
  · rw [openContainers_of_le end', openContainers_of_le (Source.shift_le_iff.2 end')]
    rfl
  · have inside := (Source.shift_lt_iff (s := s)).2 (Nat.not_le.1 end')
    obtain ⟨n, rfl⟩ : ∃ m, n = m + 1 := ⟨n - 1, by omega⟩
    obtain ⟨n', rfl⟩ : ∃ m, n' = m + 1 := ⟨n' - 1, by rw [Source.stop_crlf] at enough'; omega⟩
    have rest {m' : Margin} (lt : m.place < m'.place) (r : Reader) :
        openContainers s.crlf n' (s.shiftReader r) (s.shiftMargin m') = (openContainers s n r m').shift s := by
      have lt' := (Source.shift_lt_iff (s := s)).2 lt
      exact ih n (Nat.lt_succ_self n) (by omega) (by omega) r
    rw [openContainers, openContainers, Margin.listMarker?_crlf, Margin.quote?_crlf]
    cases read : m.listMarker? s with
    | some found =>
      obtain ⟨marker, m'⟩ := found
      have lt : m.place < m'.place := Margin.lt_place_of_listMarker? read
      dsimp only [Option.map_some]
      rw [openList_shiftReader, push_shiftReader, place_shiftMargin, Source.blankLine?_crlf, Margin.taskMarker?_crlf]
      cases s.blankLine? m'.place with
      | some behind => rfl
      | none =>
        dsimp only [Option.map_none]
        cases box : m'.taskMarker? s with
        | some found =>
          have lt := Nat.lt_of_lt_of_le lt (Margin.le_place_of_taskMarker? box)
          have task := add_shiftReader (s := s) ((r.openList marker).push (.item marker.indent)) (.task found.1)
          exact (congrArg (openContainers s.crlf n' · (s.shiftMargin found.2)) task).trans (rest lt _)
        | none => exact rest lt _
    | none =>
      dsimp only [Option.map_none]
      cases read : m.quote? s with
      | some m' =>
        dsimp only [Option.map_some]
        rw [finishList_shiftReader, push_shiftReader]
        exact rest (Margin.lt_place_of_quote? read) _
      | none => rfl

theorem goesOn?_crlf (m : Margin) (f : Frame) :
    goesOn? s.crlf (s.shiftMargin m) f = (goesOn? s m f).map s.shiftMargin := by
  cases f with
  | quote => exact Margin.quote?_crlf m
  | item indent => exact Margin.container?_crlf (.item indent) m
  | list => rfl

/-- As many containers go on as before. -/
theorem continuing_crlf (fs : List Frame) (m : Margin) : continuing s.crlf fs (s.shiftMargin m) =
    ((continuing s fs m).1, s.shiftMargin (continuing s fs m).2) := by
  induction fs generalizing m with
  | nil => rfl
  | cons f fs ih =>
    rw [continuing_cons, continuing_cons, goesOn?_crlf]
    cases goesOn? s m f with
    | none => rfl
    | some m' => exact congrArg (fun r : Nat × Margin => (r.1 + 1, r.2)) (ih m')

end Reader

end PublisherConsole.Markdown
