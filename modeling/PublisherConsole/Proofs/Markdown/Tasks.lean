import PublisherConsole.Markdown.Stream
import PublisherConsole.Proofs.Markdown.Blocks

/-!
# Where tasks stand

The box of a task is read right behind the marker of an item only, so it is the first block of the item.
`Block.IsTame` says so of a block and all blocks in it, and all blocks of a document are tame
(`isTame_holdsOfBlocks`). Their events have tasks right behind the starts of items only
(`tasksLead_events`).
-/

namespace PublisherConsole.Markdown

/-- A block that is no task, in which tasks stand first in their items. -/
inductive Block.IsTame : Block → Prop
  | paragraph (l : Leaf) : IsTame (.paragraph l)
  | heading (level : Nat) (l : Leaf) : IsTame (.heading level l)
  | rule : IsTame .rule
  | code (texts : List (List Char)) : IsTame (.code texts)
  | html (parts : List HtmlPart) : IsTame (.html parts)
  | table (head : List Leaf) (rows : List (List Leaf)) : IsTame (.table head rows)
  | quote {blocks : List Block} (h : ∀ b ∈ blocks, b.IsTame) : IsTame (.quote blocks)
  | list {tight : Bool} {sign : Char} {number : Nat} {items : List Block}
      (h : ∀ b ∈ items, b.IsTame) : IsTame (.list tight sign number items)
  | item {indent : Nat} {blocks : List Block} (h : ∀ b ∈ blocks, b.IsTame) :
      IsTame (.item indent blocks)
  | task {indent : Nat} {checked : Bool} {blocks : List Block} (h : ∀ b ∈ blocks, b.IsTame) :
      IsTame (.item indent (.task checked :: blocks))

/-- Whether tasks stand right behind the starts of items only. `fresh` is set there. -/
def tasksLead (fresh : Bool) : List Event → Bool
  | [] => true
  | .task _ :: es => fresh && tasksLead true es
  | e :: es => tasksLead (e = .start .item) es

theorem tasksLead_cons {fresh : Bool} {e : Event} {es : List Event}
    (task : ∀ checked, e ≠ .task checked) :
    tasksLead fresh (e :: es) = tasksLead (e = .start .item) es := by
  cases e with
  | task checked => exact absurd rfl (task checked)
  | _ => rfl

/-! ### The events of blocks -/

/-- No task is among events. -/
def NoTask (events : List Event) : Prop := ∀ e ∈ events, ∀ checked, e ≠ .task checked

section NoTask

variable {es es' : List Event} {e : Event} {fresh : Bool}

theorem noTask_nil : NoTask [] := nofun

theorem NoTask.append (h : NoTask es) (h' : NoTask es') : NoTask (es ++ es') :=
  fun e he => (List.mem_append.1 he).elim (h e) (h' e)

theorem NoTask.cons (h : ∀ checked, e ≠ .task checked) (h' : NoTask es) : NoTask (e :: es) :=
  List.forall_mem_cons.2 ⟨h, h'⟩

/-- An element of its own has no task if its content has none. -/
theorem NoTask.enclosed (h : NoTask es) (tag : Tag) : NoTask (.start tag :: es ++ [.stop tag]) :=
  (h.cons (e := .start tag) nofun).append (noTask_nil.cons (e := .stop tag) nofun)

theorem tasksLead_of_false (h : tasksLead false es = true) : tasksLead fresh es = true := by
  cases es with
  | nil => rfl
  | cons e es => cases e <;> simp_all [tasksLead]

/-- Events without tasks may stand anywhere. -/
theorem NoTask.tasksLead_append (h : NoTask es) (h' : tasksLead false es' = true) :
    tasksLead fresh (es ++ es') = true := by
  induction es generalizing fresh with
  | nil => exact tasksLead_of_false h'
  | cons e es ih =>
    obtain ⟨head, tail⟩ := List.forall_mem_cons.1 h
    rw [List.cons_append, tasksLead_cons head]
    exact ih tail

end NoTask

mutual

theorem noTask_inlineEvents : (i : Inline) → NoTask (inlineEvents i)
  | .text _ | .code _ | .html _ | .softBreak | .hardBreak => by
    simp [inlineEvents, NoTask]
  | .run sign count _ _ => by
    intro e he checked
    rw [inlineEvents] at he
    rw [List.eq_of_mem_replicate he]
    nofun
  | .element tag content => by
    rw [inlineEvents]
    exact (noTask_inlinesEvents content).enclosed tag

theorem noTask_inlinesEvents : (is : List Inline) → NoTask (inlinesEvents is)
  | [] => by rw [inlinesEvents]; exact noTask_nil
  | i :: is => by
    rw [inlinesEvents]
    exact (noTask_inlineEvents i).append (noTask_inlinesEvents is)

end

namespace StreamContext

variable (c : StreamContext)

theorem noTask_leaf (inTable : Bool) (l : Leaf) : NoTask (c.leaf inTable l) :=
  noTask_inlinesEvents _

theorem noTask_row (cells : List Leaf) : NoTask (c.row cells) := by
  intro e he
  obtain ⟨l, -, he⟩ := List.mem_flatMap.1 he
  exact (c.noTask_leaf true l).enclosed .tableCell e he

theorem noTask_table (head : List Leaf) (rows : List (List Leaf)) : NoTask (c.table head rows) := by
  have body : NoTask (rows.flatMap fun r => .start .tableRow :: c.row r ++ [.stop .tableRow]) := by
    intro e he
    obtain ⟨r, -, he⟩ := List.mem_flatMap.1 he
    exact (c.noTask_row r).enclosed .tableRow e he
  have all := ((c.noTask_row head).enclosed .tableHead).append body
  simpa [table] using all.enclosed .table

end StreamContext

/-- Blocks have tasks right behind the starts of items only if each of them has. -/
theorem tasksLead_blocksEvents {blocks : List Block} (c : StreamContext)
    (h : ∀ b ∈ blocks, ∀ (c : StreamContext) (es : List Event) (fresh : Bool),
      tasksLead false es = true → tasksLead fresh (blockEvents c b ++ es) = true)
    {es : List Event} {fresh : Bool} (hes : tasksLead false es = true) :
    tasksLead fresh (blocksEvents c blocks ++ es) = true := by
  induction blocks generalizing fresh with
  | nil => exact tasksLead_of_false hes
  | cons b blocks ih =>
    obtain ⟨here, rest⟩ := List.forall_mem_cons.1 h
    rw [blocksEvents, List.append_assoc]
    exact here c _ _ (ih rest)

theorem tasksLead_enclosed {blocks : List Block} (c : StreamContext)
    (h : ∀ b ∈ blocks, ∀ (c : StreamContext) (es : List Event) (fresh : Bool),
      tasksLead false es = true → tasksLead fresh (blockEvents c b ++ es) = true)
    (tag : Tag) {es : List Event} {fresh : Bool} (hes : tasksLead false es = true) :
    tasksLead fresh (.start tag :: blocksEvents c blocks ++ [.stop tag] ++ es) = true := by
  rw [List.append_assoc, List.cons_append, tasksLead_cons (e := .start tag) nofun]
  exact tasksLead_blocksEvents c h hes

/-- Tame blocks have tasks right behind the starts of items only. -/
theorem Block.IsTame.tasksLead {b : Block} (h : b.IsTame) (c : StreamContext) (es : List Event)
    (fresh : Bool) (hes : Markdown.tasksLead false es = true) :
    Markdown.tasksLead fresh (blockEvents c b ++ es) = true := by
  induction h generalizing c es fresh with
  | paragraph l =>
    rw [blockEvents]
    split
    · exact (c.noTask_leaf false l).tasksLead_append hes
    · exact ((c.noTask_leaf false l).enclosed .paragraph).tasksLead_append hes
  | heading level l =>
    exact ((c.noTask_leaf false l).enclosed (.heading level)).tasksLead_append hes
  | rule => exact (noTask_nil.cons (e := .rule) nofun).tasksLead_append hes
  | code texts =>
    have content : NoTask (texts.map fun cs => .text (String.ofList cs)) := by
      intro e he
      obtain ⟨cs, -, rfl⟩ := List.mem_map.1 he
      nofun
    exact (content.enclosed .codeBlock).tasksLead_append hes
  | html parts =>
    have content : NoTask (parts.map HtmlPart.event) := by
      intro e he
      obtain ⟨part, -, rfl⟩ := List.mem_map.1 he
      cases part <;> nofun
    exact (content.enclosed .htmlBlock).tasksLead_append hes
  | table head rows => exact (c.noTask_table head rows).tasksLead_append hes
  | quote h ih => exact tasksLead_enclosed _ ih .quote hes
  | list h ih => exact tasksLead_enclosed _ ih _ hes
  | item h ih => exact tasksLead_enclosed _ ih .item hes
  | task h ih =>
    rw [blockEvents, blocksEvents, List.append_assoc, List.cons_append,
      tasksLead_cons (e := .start .item) nofun, List.append_assoc]
    exact tasksLead_blocksEvents _ ih hes

/-- All blocks of a document are tame. -/
theorem isTame_holdsOfBlocks (s : Source) : HoldsOfBlocks s Block.IsTame where
  paragraph := .paragraph
  heading := .heading
  rule := .rule
  fenced _ _ _ _ _ := .code _
  indented _ _ _ _ := .code _
  html _ _ _ _ _ := .html _
  table _ _ _ _ _ := .table _ _
  quote := .quote
  list _ _ _ _ := .list
  item _ _ := .item
  task _ _ _ := .task

/-- **In the events of a text, tasks stand right behind the starts of items only.** -/
theorem tasksLead_events (text : String) : tasksLead false (events text) = true := by
  rw [← List.append_nil (events text)]
  exact tasksLead_blocksEvents _
    (fun b hb => ((isTame_holdsOfBlocks (Source.ofText text)).of_mem_readDocument hb).tasksLead) rfl

end PublisherConsole.Markdown
