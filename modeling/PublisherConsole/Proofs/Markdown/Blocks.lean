import PublisherConsole.Markdown.Document

/-!
# What holds of the blocks of a document

A document is read block by block, into containers that are open. `HoldsOfBlocks` says what has to be
shown so that something holds of all of its blocks: that it holds of each kind of leaf, as leaves are
read, and of a container if it holds of the blocks in it (`HoldsOfContainers`). The box of a task is
read right behind the marker of an item only, so it is the first block of the item and no block by
itself.

Reading a block keeps what holds of the blocks before (`HoldsOfBlocks.readBlock`), and so it holds of
all blocks of the document (`HoldsOfBlocks.of_mem_readDocument`).

The labels of a document are those of its definitions (`exists_of_mem_labels`): nothing else adds one.
-/

namespace PublisherConsole.Markdown

/-- What holds of a container if it holds of the blocks in it. -/
structure HoldsOfContainers (p : Block → Prop) : Prop where
  quote {blocks : List Block} (h : ∀ b ∈ blocks, p b) : p (.quote blocks)
  list (tight : Bool) (sign : Char) (number : Nat) {items : List Block} (h : ∀ b ∈ items, p b) :
    p (.list tight sign number items)
  item (indent : Nat) {blocks : List Block} (h : ∀ b ∈ blocks, p b) : p (.item indent blocks)
  task (indent : Nat) (checked : Bool) {blocks : List Block} (h : ∀ b ∈ blocks, p b) :
    p (.item indent (.task checked :: blocks))

/-- What holds of every block that is read from a source. -/
structure HoldsOfBlocks (s : Source) (p : Block → Prop) : Prop extends HoldsOfContainers p where
  paragraph (l : Leaf) : p (.paragraph l)
  heading (level : Nat) (l : Leaf) : p (.heading level l)
  rule : p .rule
  fenced (path : List Container) (f : Fence) (indent fuel i : Nat) :
    p (.code ((fencedFrom s path f indent fuel ⟨[], none⟩ i).1.finish s))
  indented (path : List Container) (fuel columns i : Nat) :
    p (.code ((indentedFrom s path fuel ⟨[], none⟩ ⟨[], none⟩ false columns i).1.finish s))
  html (path : List Container) (ending : Option (List Char)) (fuel columns i : Nat) :
    p (.html (htmlFrom s path ending fuel [] columns i).1)
  table (path : List Container) (columns head fuel body : Nat) :
    p (.table (readRow s path columns head).1 (rowsFrom s path columns fuel body).1)

/-- It holds of the blocks so far of a container: a task may be the first one in an item. -/
def HoldsOfFrame (p : Block → Prop) (f : Frame × List Block) : Prop :=
  (∀ b ∈ f.2, p b) ∨
    ∃ indent checked later, f = (.item indent, later ++ [.task checked]) ∧ ∀ b ∈ later, p b

/-- It holds of all that was read. -/
structure Reader.Holds (r : Reader) (p : Block → Prop) : Prop where
  frames : ∀ f ∈ r.frames, HoldsOfFrame p f
  done : ∀ b ∈ r.done, p b

/-- A list may become loose. -/
theorem HoldsOfFrame.loosen {p : Block → Prop} {f : Frame × List Block} (h : HoldsOfFrame p f) :
    HoldsOfFrame p (Reader.mapFrame Reader.Frame.loosen f) := by
  rcases h with all | ⟨indent, checked, later, rfl, all⟩
  · exact .inl all
  · exact .inr ⟨indent, checked, later, rfl, all⟩

variable {s : Source} {p : Block → Prop} {r : Reader} {b : Block} {f : Frame × List Block}
  {rest : List (Frame × List Block)}

/-! ### Containers -/

namespace Reader.Holds

theorem top (h : r.Holds p) (frames : r.frames = f :: rest) :
    HoldsOfFrame p f ∧ ∀ g ∈ rest, HoldsOfFrame p g :=
  List.forall_mem_cons.1 (frames ▸ h.frames)

theorem add (h : r.Holds p) (hb : p b) : (r.add b).Holds p := by
  unfold Reader.add
  split
  next => exact ⟨h.frames, List.forall_mem_cons.2 ⟨hb, h.done⟩⟩
  next f blocks rest frames =>
    obtain ⟨top, others⟩ := h.top frames
    refine ⟨List.forall_mem_cons.2 ⟨?_, others⟩, h.done⟩
    rcases top with all | ⟨indent, checked, later, heq, all⟩
    · exact .inl (List.forall_mem_cons.2 ⟨hb, all⟩)
    · obtain ⟨rfl, rfl⟩ := Prod.mk.inj heq
      exact .inr ⟨indent, checked, b :: later, rfl, List.forall_mem_cons.2 ⟨hb, all⟩⟩

theorem push (h : r.Holds p) (f : Frame) : (r.push f).Holds p :=
  ⟨List.forall_mem_cons.2 ⟨.inl nofun, h.frames⟩, h.done⟩

/-- A task is read right behind the marker of its item. -/
theorem addTask (h : r.Holds p) (indent : Nat) (checked : Bool) :
    ((r.push (.item indent)).add (.task checked)).Holds p :=
  ⟨List.forall_mem_cons.2 ⟨.inr ⟨indent, checked, [], rfl, nofun⟩, h.frames⟩, h.done⟩

/-- It holds of the container that a frame makes. -/
theorem pop (law : HoldsOfContainers p) (h : r.Holds p) : r.pop.Holds p := by
  unfold Reader.pop
  split
  next => exact h
  next f blocks rest frames =>
    obtain ⟨top, others⟩ := h.top frames
    have below : ({ r with frames := rest } : Reader).Holds p := ⟨others, h.done⟩
    rcases top with all | ⟨indent, checked, later, heq, all⟩
    · have inner : ∀ b ∈ blocks.reverse, p b := fun b hb => all b (List.mem_reverse.1 hb)
      cases f with
      | quote => exact below.add (law.quote inner)
      | item indent => exact below.add (law.item indent inner)
      | list tight sign number =>
        have closed := below.add (law.list tight sign number inner)
        exact ⟨closed.frames, closed.done⟩
    · obtain ⟨rfl, rfl⟩ := Prod.mk.inj heq
      have inner : ∀ b ∈ later.reverse, p b := fun b hb => all b (List.mem_reverse.1 hb)
      simpa using below.add (law.task _ checked inner)

theorem popTo (law : HoldsOfContainers p) (h : r.Holds p) (n fuel : Nat) : (popTo n fuel r).Holds p := by
  induction fuel generalizing r with
  | zero => exact h
  | succ fuel ih =>
    rw [Reader.popTo]
    split
    · exact ih (h.pop law)
    · exact h

theorem finishEmptyItem (law : HoldsOfContainers p) (h : r.Holds p) : r.finishEmptyItem.Holds p := by
  have closed {r' : Reader} (h : r'.Holds p) : ({ r' with emptyItem := false } : Reader).Holds p :=
    ⟨h.frames, h.done⟩
  unfold Reader.finishEmptyItem
  refine closed ?_
  split
  · split
    · exact h.pop law
    · exact h
  · exact h

/-- The list around may become loose. -/
theorem loosenParent (h : r.Holds p) : (if r.blank then
    match r.frames with
    | top :: parent :: rest =>
      { r with frames := top :: mapFrame Frame.loosen parent :: rest, blank := false }
    | _ => { r with blank := false }
  else r : Reader).Holds p := by
  split
  · split
    next top parent rest frames =>
      obtain ⟨top, below⟩ := h.top frames
      obtain ⟨parent, others⟩ := List.forall_mem_cons.1 below
      exact ⟨List.forall_mem_cons.2 ⟨top, List.forall_mem_cons.2 ⟨parent.loosen, others⟩⟩, h.done⟩
    next => exact ⟨h.frames, h.done⟩
  · exact h

theorem finishList (law : HoldsOfContainers p) (h : r.Holds p) : r.finishList.Holds p := by
  have emptied := h.finishEmptyItem law
  unfold Reader.finishList
  refine loosenParent ?_
  split
  · exact emptied.pop law
  · exact emptied

theorem openList (law : HoldsOfContainers p) (h : r.Holds p) (m : ListMarker) : (r.openList m).Holds p := by
  have emptied := h.finishEmptyItem law
  have fresh {r' : Reader} (h' : r'.Holds p) :
      ({ r'.push (.list true m.sign m.number) with blank := false } : Reader).Holds p :=
    ⟨(h'.push _).frames, h'.done⟩
  unfold Reader.openList
  dsimp only
  split
  next tight sign number blocks rest frames =>
    obtain ⟨top, others⟩ := emptied.top frames
    have same (tight' : Bool) :
        ∀ f ∈ (Frame.list tight' sign number, blocks) :: rest, HoldsOfFrame p f := by
      refine List.forall_mem_cons.2 ⟨.inl ?_, others⟩
      rcases top with all | ⟨_, _, _, heq, -⟩
      · exact all
      · cases heq
    split
    · split
      · exact ⟨same _, emptied.done⟩
      · exact ⟨same _, emptied.done⟩
    · exact fresh (emptied.finishList law)
  next => exact fresh (emptied.finishList law)

theorem noteBlank (h : r.Holds p) : r.noteBlank.Holds p := by
  unfold Reader.noteBlank
  split
  · exact h
  · exact h
  next indent blocks rest frames =>
    obtain ⟨top, others⟩ := h.top frames
    have same (indent' : Nat) : ∀ f ∈ (Frame.item indent', blocks) :: rest, HoldsOfFrame p f := by
      refine List.forall_mem_cons.2 ⟨?_, others⟩
      rcases top with all | ⟨_, checked, later, heq, all⟩
      · exact .inl all
      · obtain ⟨-, rfl⟩ := Prod.mk.inj heq
        exact .inr ⟨indent', checked, later, rfl, all⟩
    split
    · exact ⟨same 0, h.done⟩
    · exact ⟨same indent, h.done⟩
  · exact ⟨h.frames, h.done⟩

theorem openContainers (law : HoldsOfContainers p) (h : r.Holds p) (s : Source) (fuel : Nat) (m : Margin) :
    (openContainers s fuel r m).reader.Holds p := by
  induction fuel generalizing r m with
  | zero => exact h
  | succ fuel ih =>
    rw [Reader.openContainers]
    split
    next marker m' _ =>
      have opened := h.openList law marker
      have item := opened.push (.item marker.indent)
      dsimp only
      split
      · exact ⟨item.frames, item.done⟩
      · split
        · exact ih (opened.addTask _ _) _
        · exact ih item _
    next =>
      split
      · exact ih ((h.finishList law).push _) _
      · exact h

end Reader.Holds

/-! ### Leaves -/

namespace HoldsOfBlocks

variable (law : HoldsOfBlocks s p)

include law

theorem readTable (h : r.Holds p) (columns head body : Nat) :
    (readTable s r columns head body).1.Holds p := h.add (law.table ..)

theorem paragraphFrom (h : r.Holds p) (start fuel : Nat) (pieces : List Piece) (i : Nat) :
    (paragraphFrom s r start fuel pieces i).1.Holds p := by
  induction fuel generalizing pieces i with
  | zero => exact h.add (law.paragraph _)
  | succ fuel ih =>
    rw [Markdown.paragraphFrom]
    dsimp only
    generalize (if i = start then LineMode.mayBeTable else LineMode.plain) = mode
    split
    · exact law.readTable h _ _ _
    · split
      · exact h.add (law.heading _ _)
      · split
        · exact h.add (law.paragraph _)
        · split
          · exact h.add (law.paragraph _)
          · exact ih _ _

theorem readHeading (h : r.Holds p) (level i : Nat) : (readHeading s r level i).1.Holds p := by
  unfold Markdown.readHeading
  split <;> exact h.add (law.heading _ _)

/-- A leaf adds a block that is no container, or nothing. -/
theorem readLeaf (h : r.Holds p) (m : Margin) : (readLeaf s r m).1.Holds p := by
  unfold Markdown.readLeaf
  dsimp only
  split
  · have code := h.add (law.indented r.path (s.stop + 1 - (m.useUpTo s 4).2.place)
      (m.useUpTo s 4).2.left (m.useUpTo s 4).2.place)
    exact ⟨code.frames, code.done⟩
  · split
    · exact h.add (law.html ..)
    · split
      · exact h.add law.rule
      · split
        · exact law.readHeading h _ _
        · split
          · exact ⟨h.frames, h.done⟩
          · split
            · exact h.add (law.fenced ..)
            · exact law.paragraphFrom h _ _ _ _

/-- **Reading a block keeps what holds of all blocks.** -/
theorem readBlock (h : r.Holds p) (i : Nat) : (readBlock s r i).1.Holds p := by
  unfold Markdown.readBlock
  dsimp only
  have containers := law.toHoldsOfContainers
  have opened := (h.popTo containers (Reader.continuing s (r.frames.reverse.map (·.1)) (Margin.start i)).1
    r.frames.length).openContainers containers s (s.stop + 1 - i)
      (Reader.continuing s (r.frames.reverse.map (·.1)) (Margin.start i)).2
  split
  · exact opened
  · split
    · exact opened.noteBlank
    · exact law.readLeaf (opened.finishList containers) _

theorem readBlocks (h : r.Holds p) (fuel i : Nat) : (readBlocks s fuel r i).Holds p := by
  induction fuel generalizing r i with
  | zero => exact h
  | succ fuel ih =>
    rw [Markdown.readBlocks]
    split
    · exact h
    · exact ih (law.readBlock h i) _

/-- It holds of all blocks of a document. -/
theorem of_mem_readDocument (hb : b ∈ (readDocument s).1) : p b := by
  have start : Reader.start.Holds p := ⟨nofun, nofun⟩
  have read := (law.readBlocks start (s.stop + 1) 0).popTo law.toHoldsOfContainers 0
    (Markdown.readBlocks s (s.stop + 1) Reader.start 0).frames.length
  exact read.done b (List.mem_reverse.1 hb)

end HoldsOfBlocks

/-! ### Labels -/

namespace Reader

@[simp] theorem labels_add (r : Reader) (b : Block) : (r.add b).labels = r.labels := by
  unfold add
  split <;> rfl

@[simp] theorem labels_push (r : Reader) (f : Frame) : (r.push f).labels = r.labels := rfl

@[simp] theorem labels_pop (r : Reader) : r.pop.labels = r.labels := by
  unfold pop
  split
  next => rfl
  next f _ _ _ => cases f <;> simp

@[simp] theorem labels_popTo (n fuel : Nat) (r : Reader) : (popTo n fuel r).labels = r.labels := by
  induction fuel generalizing r with
  | zero => rfl
  | succ fuel ih =>
    rw [popTo]
    split
    · rw [ih, labels_pop]
    · rfl

@[simp] theorem labels_finishEmptyItem (r : Reader) : r.finishEmptyItem.labels = r.labels := by
  unfold finishEmptyItem
  dsimp only
  split
  · split
    · exact r.labels_pop
    · rfl
  · rfl

theorem labels_loosenParent (r : Reader) : (if r.blank then
    match r.frames with
    | top :: parent :: rest =>
      { r with frames := top :: mapFrame Frame.loosen parent :: rest, blank := false }
    | _ => { r with blank := false }
  else r : Reader).labels = r.labels := by
  split
  · split <;> rfl
  · rfl

@[simp] theorem labels_finishList (r : Reader) : r.finishList.labels = r.labels := by
  unfold finishList
  refine (labels_loosenParent _).trans ?_
  split <;> simp

@[simp] theorem labels_openList (r : Reader) (m : ListMarker) : (r.openList m).labels = r.labels := by
  unfold openList
  dsimp only
  split
  · split
    · split <;> exact r.labels_finishEmptyItem
    · simp
  · simp

@[simp] theorem labels_noteBlank (r : Reader) : r.noteBlank.labels = r.labels := by
  unfold noteBlank
  split
  · rfl
  · rfl
  · split <;> rfl
  · rfl

@[simp] theorem labels_openContainers (s : Source) (fuel : Nat) (r : Reader) (m : Margin) :
    (openContainers s fuel r m).reader.labels = r.labels := by
  induction fuel generalizing r m with
  | zero => rfl
  | succ fuel ih =>
    rw [openContainers]
    split
    · dsimp only
      split
      · simp
      · split <;> simp [ih]
    · split
      · simp [ih]
      · rfl

end Reader

theorem labels_paragraphFrom (start fuel : Nat) (pieces : List Piece) (i : Nat) :
    (paragraphFrom s r start fuel pieces i).1.labels = r.labels := by
  induction fuel generalizing pieces i with
  | zero => exact r.labels_add _
  | succ fuel ih =>
    rw [paragraphFrom]
    dsimp only
    generalize (if i = start then LineMode.mayBeTable else LineMode.plain) = mode
    split
    · exact r.labels_add _
    · split
      · exact r.labels_add _
      · split
        · exact r.labels_add _
        · split
          · exact r.labels_add _
          · exact ih _ _

theorem labels_readHeading (level i : Nat) : (readHeading s r level i).1.labels = r.labels := by
  unfold readHeading
  split <;> exact r.labels_add _

variable {label : List Char}

/-- A label is added by a definition. -/
theorem exists_of_mem_labels_readLeaf (m : Margin) (h : label ∈ (readLeaf s r m).1.labels) :
    label ∈ r.labels ∨ ∃ path i behind, definition? s path i = some (label, behind) := by
  have added {r' : Reader} (same : r'.labels = r.labels) (h : label ∈ r'.labels) :
      label ∈ r.labels ∨ ∃ path i behind, definition? s path i = some (label, behind) := .inl (same ▸ h)
  unfold readLeaf at h
  dsimp only at h
  split at h
  · exact added (r.labels_add _) h
  · split at h
    · exact added (r.labels_add _) h
    · split at h
      · exact added (r.labels_add _) h
      · split at h
        · exact added (labels_readHeading _ _) h
        · split at h
          next label' behind read =>
            rcases List.mem_cons.1 h with rfl | h
            · exact .inr ⟨_, _, behind, read⟩
            · exact .inl h
          next =>
            split at h
            · exact added (r.labels_add _) h
            · exact added (labels_paragraphFrom _ _ _ _) h

theorem exists_of_mem_labels_readBlock (i : Nat) (h : label ∈ (readBlock s r i).1.labels) :
    label ∈ r.labels ∨ ∃ path i behind, definition? s path i = some (label, behind) := by
  unfold readBlock at h
  dsimp only at h
  split at h
  · exact .inl (by simpa using h)
  · split at h
    · exact .inl (by simpa using h)
    · exact (exists_of_mem_labels_readLeaf _ h).imp_left (by simp)

theorem exists_of_mem_labels_readBlocks (fuel i : Nat) (h : label ∈ (readBlocks s fuel r i).labels) :
    label ∈ r.labels ∨ ∃ path i behind, definition? s path i = some (label, behind) := by
  induction fuel generalizing r i with
  | zero => exact .inl h
  | succ fuel ih =>
    rw [readBlocks] at h
    split at h
    · exact .inl h
    · exact (ih _ h).elim (exists_of_mem_labels_readBlock i) .inr

/-- **Every label of a document has a definition in it.** -/
theorem exists_of_mem_labels (h : label ∈ (readDocument s).2) :
    ∃ path i behind, definition? s path i = some (label, behind) := by
  have read : label ∈ (readBlocks s (s.stop + 1) Reader.start 0).labels := by simpa [readDocument] using h
  exact (exists_of_mem_labels_readBlocks _ _ read).resolve_left nofun

end PublisherConsole.Markdown
