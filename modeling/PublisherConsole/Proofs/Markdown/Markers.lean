import PublisherConsole.Proofs.Markdown.Payload
import PublisherConsole.Proofs.Markdown.Tasks

/-!
# Markers of list items

The marker of an item is owed from the start of the item on, and paid by the next line that is started
by a text. `Ledger` has the items of a row of events: each has a marker of its own, which its number in
its list gives it, and the markers that are shown while it is the innermost item that is open.
`Ledger.IsFit` says that every item shows its own marker and nothing else does.

An item that stops, or in which another one starts, before it has shown anything has not paid its
marker: it goes to whatever is shown next, or is lost. `itemsOpen` says that there is no such item. The
main statement, `items_are_marked_iff_they_open`, is that the markers of a text are fit exactly then. As
long as nothing is lost, `Ledger.Settled` says what is owed; a marker that is lost is missing at the end
(`Ledger.IsShort.not_isFit`).
-/

namespace PublisherConsole.Markdown

open Screen (Line)

/-! ### Items and their markers -/

/-- An item of a list. -/
structure Listed where
  /-- Its own marker, with the boxes of tasks. -/
  own : String
  /-- The markers that were shown while no other item was open in it. -/
  shown : List String
  deriving DecidableEq, Repr

/-- The item shows its own marker, once, and no other one. -/
def Listed.IsMarked (i : Listed) : Prop := i.shown = [i.own]

/-- The items of a row of events. -/
structure Ledger where
  /-- The open lists, innermost first: the number of the first item if items have numbers, and how many
  items there are so far. -/
  lists : List (Option Nat × Nat)
  /-- The open items, innermost first. -/
  items : List Listed
  closed : List Listed
  /-- The markers that were shown while no item was open. -/
  stray : List String
  deriving DecidableEq, Repr

namespace Ledger

/-- No list is open. -/
def empty : Ledger := ⟨[], [], [], []⟩

/-- The marker of the next item: items are counted from the first number of their list. -/
def marker (lists : List (Option Nat × Nat)) : String :=
  let indent := Renderer.repeatText (lists.length - 1) "  "
  match lists with
  | (some first, count) :: _ => indent ++ toString (first + count) ++ ". "
  | _ => indent ++ "• "

/-- Count an item of the innermost list. -/
def count : List (Option Nat × Nat) → List (Option Nat × Nat)
  | [] => []
  | (first, n) :: rest => (first, n + 1) :: rest

/-- A marker is shown. -/
def note (l : Ledger) (s : String) : Ledger :=
  match l.items with
  | [] => { l with stray := l.stray ++ [s] }
  | item :: rest => { l with items := { item with shown := item.shown ++ [s] } :: rest }

/-- What an event makes of the lists and the items. -/
def turn (l : Ledger) : Event → Ledger
  | .start (.list first) => { l with lists := (first, 0) :: l.lists }
  | .stop (.list _) => { l with lists := l.lists.tail }
  | .start .item => { l with lists := count l.lists, items := ⟨marker l.lists, []⟩ :: l.items }
  | .stop .item => { l with items := l.items.tail, closed := l.items.head?.toList ++ l.closed }
  | .task checked =>
    { l with items := l.items.modifyHead fun item =>
        { item with own := item.own ++ if checked then "[x] " else "[ ] " } }
  | _ => l

/-- Take an event with its marks. -/
def take (l : Ledger) (e : Event) (ms : List Mark) : Ledger :=
  ((ms.filterMap Mark.marker?).foldl note l).turn e

/-- Take events, each with its marks. -/
def run (l : Ledger) (events : List Event) (blocks : List (List Mark)) : Ledger :=
  (events.zip blocks).foldl (fun l (e, ms) => l.take e ms) l

/-- Every item shows its own marker, and nothing else shows one. -/
structure IsFit (l : Ledger) : Prop where
  stray : l.stray = []
  items : ∀ i ∈ l.items, i.IsMarked
  closed : ∀ i ∈ l.closed, i.IsMarked

end Ledger

/-- Whether an event shows something on a line that it starts, if no line has been started. -/
def Event.isInk (inCode : Bool) (e : Event) : Bool :=
  match e.text? with
  | none => false
  | some s => e.isVerbatim inCode || s ≠ ""

/-- Whether every item shows something before it stops and before another one starts. `owing` is set
while an item has not shown anything. -/
def itemsOpen (inCode owing : Bool) : List Event → Bool
  | [] => !owing
  | .start .item :: es => !owing && itemsOpen inCode true es
  | .stop .item :: es => !owing && itemsOpen inCode false es
  | e :: es => itemsOpen (e.leavesCode inCode) (owing && !e.isInk inCode) es

theorem itemsOpen_cons {inCode owing : Bool} {e : Event} {es : List Event}
    (start : e ≠ .start .item) (stop : e ≠ .stop .item) : itemsOpen inCode owing (e :: es) =
      itemsOpen (e.leavesCode inCode) (owing && !e.isInk inCode) es := by
  cases e with
  | start tag => cases tag <;> first | exact absurd rfl start | rfl
  | stop tag => cases tag <;> first | exact absurd rfl stop | rfl
  | _ => rfl

/-! ### What is paid -/

/-- Only the empty text has no lines. -/
theorem splitLines_eq_nil_iff {s : String} : Text.splitLines s = [] ↔ s = "" := by
  constructor
  · intro h
    have rows := Text.intercalate_splitRows s.toList
    obtain ⟨row, rest, hrows⟩ := List.exists_cons_of_ne_nil (Text.splitRows_ne_nil s.toList)
    rw [Text.splitLines, hrows] at h
    cases rest with
    | cons next rest => simp at h
    | nil =>
      have none : row = [] := by simpa using h
      rw [hrows, none] at rows
      exact String.toList_inj.1 rows.symm
  · rintro rfl
    rfl

namespace Renderer

variable {r : Renderer} {e : Event} {own : String}

theorem leadMarks_prefix_textMarks {s : String} (ink : r.inCode = false ∨ s ≠ "") :
    r.leadMarks <+: r.textMarks s := by
  unfold textMarks
  split
  next code =>
    obtain ⟨line, rest, lines⟩ := List.exists_cons_of_ne_nil
      (mt splitLines_eq_nil_iff.1 (ink.resolve_left (by simp [code])))
    rw [lines]
    exact List.prefix_append _ _
  next => exact List.prefix_append _ _

theorem leadMarks_prefix_htmlMarks {s : String} (ink : s ≠ "") : r.leadMarks <+: r.htmlMarks s := by
  obtain ⟨line, rest, lines⟩ := List.exists_cons_of_ne_nil (mt splitLines_eq_nil_iff.1 ink)
  rw [htmlMarks, lines]
  exact List.prefix_append _ _

/-- What shows something pays first what the start of the line is owed. -/
theorem leadMarks_prefix (ink : e.isInk r.inCode = true) : r.leadMarks <+: r.marks e := by
  cases e with
  | text s =>
    exact leadMarks_prefix_textMarks (by simpa [Event.isInk, Event.text?, Event.isVerbatim] using ink)
  | code s => exact List.prefix_append _ _
  | html s | inlineHtml s =>
    exact leadMarks_prefix_htmlMarks (by simpa [Event.isInk, Event.text?, Event.isVerbatim] using ink)
  | softBreak => exact leadMarks_prefix_textMarks (.inr (by decide))
  | footnote name => exact leadMarks_prefix_textMarks (.inr (by simp))
  | _ => simp [Event.isInk, Event.text?] at ink

@[simp] theorem marker_blank : r.blank.marker = r.marker := by rw [blank_eq]

@[simp] theorem spans_blank : r.blank.spans = r.spans := by rw [blank_eq]

/-- What shows nothing leaves a line that has not been started as it is. -/
theorem handle_of_not_isInk (dry : e.isInk r.inCode = false) (start : e ≠ .start .item)
    (task : ∀ checked, e ≠ .task checked) (empty : r.spans = []) :
    (r.handle e).marker = r.marker ∧ (r.handle e).spans = [] := by
  cases e with
  | task checked => exact absurd rfl (task checked)
  | start tag =>
    cases tag <;> simp_all [handle, Renderer.start, enter, flush_eq]
  | stop tag =>
    cases tag <;>
      simp [handle, stop, leave, flush_eq, empty, apply_ite Renderer.marker, apply_ite Renderer.spans]
  | text s =>
    obtain ⟨code, rfl⟩ : r.inCode = true ∧ s = "" := by
      simpa [Event.isInk, Event.text?, Event.isVerbatim] using dry
    have same : r.text "" = r := by
      rw [Renderer.text, if_pos code]
      rfl
    exact ⟨congrArg Renderer.marker same, (congrArg Renderer.spans same).trans empty⟩
  | html s | inlineHtml s =>
    obtain rfl : s = "" := by simpa [Event.isInk, Event.text?, Event.isVerbatim] using dry
    exact ⟨rfl, empty⟩
  | hardBreak => simp [handle, flush_eq]
  | rule => simp [handle, rule, flush_eq]
  | code s | softBreak | footnote name => simp [Event.isInk, Event.text?, Event.isVerbatim] at dry

/-- **A marker that is owed is paid by the next event that shows something.** -/
theorem pays (owed : r.marker = some own) (empty : r.spans = []) (start : e ≠ .start .item)
    (task : ∀ checked, e ≠ .task checked) :
    (e.isInk r.inCode = true ∧ (r.marks e).filterMap Mark.marker? = [own] ∧
        (r.handle e).marker = none) ∨
      (e.isInk r.inCode = false ∧ (r.marks e).filterMap Mark.marker? = [] ∧
        (r.handle e).marker = some own ∧ (r.handle e).spans = []) := by
  have puts := (r.puts_handle start task).marker
  rw [owed, Option.toList_some] at puts
  cases ink : e.isInk r.inCode with
  | true =>
    obtain ⟨ms, hms⟩ := leadMarks_prefix ink
    have lead : r.leadMarks.filterMap Mark.marker? = [own] := by
      by_cases quotes : r.quotes > 0 <;> simp [leadMarks, empty, owed, quotes, Mark.marker?,
        List.filterMap_cons]
    rw [← hms, List.filterMap_append, lead, List.append_assoc, List.singleton_append,
      List.cons.injEq] at puts
    obtain ⟨none, paid⟩ := List.append_eq_nil_iff.1 puts.2
    refine .inl ⟨rfl, ?_, by simpa using paid⟩
    rw [← hms, List.filterMap_append, lead, none, List.append_nil]
  | false =>
    obtain ⟨same, still⟩ := handle_of_not_isInk ink start task empty
    rw [owed] at same
    rw [same, Option.toList_some] at puts
    exact .inr ⟨rfl, by simpa using puts, same, still⟩

end Renderer

/-! ### The numbers of items -/

/-- The lists of a renderer, from those of a ledger. -/
def openLists (lists : List (Option Nat × Nat)) : List (Option Nat) :=
  (lists.map fun (first, n) => first.map (· + n)).reverse

/-- Items are numbered as they are counted. -/
theorem nextMarker_openLists (lists : List (Option Nat × Nat)) :
    Renderer.nextMarker (openLists lists) =
      (Ledger.marker lists, openLists (Ledger.count lists)) := by
  cases lists with
  | nil => rfl
  | cons top rest =>
    obtain ⟨first, n⟩ := top
    cases first with
    | none => simp [Renderer.nextMarker, openLists, Ledger.marker, Ledger.count]
    | some first => simp [Renderer.nextMarker, openLists, Ledger.marker, Ledger.count, Nat.add_assoc]

namespace Ledger

variable {l : Ledger} {r : Renderer} {owing : Bool} {e : Event} {events : List Event}

/-- An item that has shown nothing is the innermost one, and its marker is owed; all others are
marked. -/
def Owes (r : Renderer) (items : List Listed) : Bool → Prop
  | false => r.marker = none ∧ ∀ i ∈ items, i.IsMarked
  | true => ∃ item rest, items = item :: rest ∧ r.marker = some item.own ∧ r.spans = [] ∧
      item.shown = [] ∧ ∀ i ∈ rest, i.IsMarked

/-- What holds while every item has shown something before it stopped and before another one started. -/
structure Settled (r : Renderer) (l : Ledger) (owing : Bool) : Prop where
  lists : r.lists = openLists l.lists
  items : Owes r l.items owing
  stray : l.stray = []
  closed : ∀ i ∈ l.closed, i.IsMarked

/-! ### One event -/

/-- Showing markers changes the items and what strays only. -/
theorem foldl_note_eq (markers : List String) : markers.foldl note l = { l with
    items := (markers.foldl note l).items
    stray := (markers.foldl note l).stray } := by
  induction markers generalizing l with
  | nil => rfl
  | cons s markers ih =>
    rw [List.foldl_cons, ih, note]
    split <;> rfl

@[simp] theorem lists_foldl_note (markers : List String) :
    (markers.foldl note l).lists = l.lists := by rw [foldl_note_eq]

@[simp] theorem closed_foldl_note (markers : List String) :
    (markers.foldl note l).closed = l.closed := by rw [foldl_note_eq]

/-- The open lists stay the same ones. -/
theorem lists_take (h : r.lists = openLists l.lists) (e : Event) (ms : List Mark) :
    (r.handle e).lists = openLists (l.take e ms).lists := by
  have after : (r.handle e).lists = (Renderer.contextAfter r.context e).2 :=
    congrArg Prod.snd (r.context_handle e)
  have context : r.context.2 = openLists l.lists := h
  rw [after, take]
  cases e with
  | start tag =>
    cases tag with
    | item => simp [Renderer.contextAfter, turn, context, nextMarker_openLists]
    | _ => simp [Renderer.contextAfter, turn, context, openLists]
  | stop tag => cases tag <;> simp [Renderer.contextAfter, turn, context, openLists, ← List.map_tail]
  | _ => simp [Renderer.contextAfter, turn, context]

/-- Whether an event neither starts nor stops an item and is no task. -/
structure IsPlain (e : Event) : Prop where
  start : e ≠ .start .item
  stop : e ≠ .stop .item
  task : ∀ checked, e ≠ .task checked

/-- Other events do not turn to another item. -/
theorem IsPlain.turn (h : IsPlain e) : (l.turn e).items = l.items ∧ (l.turn e).stray = l.stray ∧
    (l.turn e).closed = l.closed := by
  cases e with
  | start tag => cases tag <;> first | exact absurd rfl h.start | exact ⟨rfl, rfl, rfl⟩
  | stop tag => cases tag <;> first | exact absurd rfl h.stop | exact ⟨rfl, rfl, rfl⟩
  | task checked => exact absurd rfl (h.task checked)
  | _ => exact ⟨rfl, rfl, rfl⟩

theorem filterMap_marker?_endMarks : r.endMarks.filterMap Mark.marker? = [] := by
  unfold Renderer.endMarks
  split <;> rfl

/-- An item starts when nothing is owed. -/
theorem Settled.start (h : Settled r l false) :
    Settled (r.handle (.start .item)) (l.take (.start .item) (r.marks (.start .item))) true := by
  obtain ⟨lists, ⟨none, marked⟩, stray, closed⟩ := h
  refine ⟨lists_take lists _ _, ?_, ?_, ?_⟩ <;>
    simp only [Renderer.marks, Renderer.startMarks, take, filterMap_marker?_endMarks,
      List.foldl_nil, turn]
  · refine ⟨_, _, rfl, ?_, by rw [Renderer.handle_item, Renderer.flush_eq], rfl, marked⟩
    have flushed : r.flush.lists = r.lists := by rw [Renderer.flush_eq]
    rw [Renderer.handle_item, flushed, lists, nextMarker_openLists]
  · exact stray
  · exact closed

/-- An item stops when nothing is owed. -/
theorem Settled.stop (h : Settled r l false) :
    Settled (r.handle (.stop .item)) (l.take (.stop .item) (r.marks (.stop .item))) false := by
  obtain ⟨lists, ⟨none, marked⟩, stray, closed⟩ := h
  refine ⟨lists_take lists _ _, ?_, ?_, ?_⟩ <;>
    simp only [Renderer.marks, Renderer.stopMarks, take, filterMap_marker?_endMarks,
      List.foldl_nil, turn]
  · refine ⟨?_, fun i hi => marked i (List.mem_of_mem_tail hi)⟩
    rw [Renderer.handle, Renderer.stop, Renderer.flush_eq]
    exact none
  · exact stray
  · intro i hi
    rcases List.mem_append.1 hi with hi | hi
    · exact marked i (List.mem_of_mem_head? (Option.mem_toList.1 hi))
    · exact closed i hi

/-- A task adds its box to a marker that is owed. -/
theorem Settled.task (h : Settled r l true) (checked : Bool) :
    Settled (r.handle (.task checked)) (l.take (.task checked) (r.marks (.task checked))) true := by
  obtain ⟨lists, ⟨item, rest, items, owed, empty, fresh, marked⟩, stray, closed⟩ := h
  refine ⟨lists_take lists _ _, ?_, stray, closed⟩
  simp only [Renderer.marks, take, List.filterMap_nil, List.foldl_nil, turn, items,
    List.modifyHead_cons]
  exact ⟨_, rest, rfl, by rw [Renderer.handle, owed]; rfl, empty, fresh, marked⟩

/-- Another event pays what is owed if it shows something. -/
theorem Settled.plain (h : Settled r l owing) (plain : IsPlain e) :
    Settled (r.handle e) (l.take e (r.marks e)) (owing && !e.isInk r.inCode) := by
  obtain ⟨lists, items, stray, closed⟩ := h
  have lists := lists_take lists e (r.marks e)
  have closed : ∀ i ∈ (l.take e (r.marks e)).closed, i.IsMarked := by
    rwa [take, plain.turn.2.2, closed_foldl_note]
  have puts := (r.puts_handle plain.start plain.task).marker
  cases owing with
  | false =>
    obtain ⟨none, marked⟩ := items
    rw [none, Option.toList_none, List.append_eq_nil_iff] at puts
    refine ⟨lists, ⟨by simpa using puts.2, ?_⟩, ?_, closed⟩ <;> rw [take, puts.1]
    · rwa [plain.turn.1]
    · rwa [plain.turn.2.1]
  | true =>
    obtain ⟨item, rest, items, owed, empty, fresh, marked⟩ := items
    rcases Renderer.pays owed empty plain.start plain.task with
      ⟨ink, shown, paid⟩ | ⟨dry, none, still, empty⟩
    · rw [ink]
      refine ⟨lists, ⟨paid, ?_⟩, ?_, closed⟩ <;> rw [take, shown]
      · rw [plain.turn.1, List.foldl_cons, List.foldl_nil, note, items]
        exact List.forall_mem_cons.2 ⟨by rw [Listed.IsMarked, fresh]; rfl, marked⟩
      · rw [plain.turn.2.1, List.foldl_cons, List.foldl_nil, note, items]
        exact stray
    · rw [dry]
      refine ⟨lists, ⟨item, rest, ?_, still, empty, fresh, marked⟩, ?_, closed⟩ <;> rw [take, none]
      · rwa [plain.turn.1]
      · rwa [plain.turn.2.1]

/-! ### Markers that are lost -/

/-- How many items there are. -/
def size (l : Ledger) : Nat := l.items.length + l.closed.length

/-- How many markers were shown. -/
def total (l : Ledger) : Nat :=
  l.stray.length + (l.items.map (·.shown.length)).sum + (l.closed.map (·.shown.length)).sum

/-- Fewer markers are shown or owed than there are items. -/
def IsShort (r : Renderer) (l : Ledger) : Prop := l.total + r.marker.toList.length < l.size

theorem IsFit.total_eq_size (h : l.IsFit) : l.total = l.size := by
  have one {items : List Listed} (marked : ∀ i ∈ items, i.IsMarked) :
      (items.map (·.shown.length)).sum = items.length := by
    rw [List.map_congr_left fun i hi => congrArg List.length (marked i hi)]
    simp
  rw [total, size, h.stray, one h.items, one h.closed, List.length_nil, Nat.zero_add]

theorem size_note (s : String) : (l.note s).size = l.size ∧ (l.note s).total = l.total + 1 := by
  rw [note]
  split
  next none => simp [size, total, none, Nat.add_right_comm]
  next item rest items =>
    simp only [size, total, items, List.map_cons, List.sum_cons, List.length_append,
      List.length_cons, List.length_nil]
    exact ⟨trivial, by omega⟩

theorem size_foldl_note (markers : List String) : (markers.foldl note l).size = l.size ∧
    (markers.foldl note l).total = l.total + markers.length := by
  induction markers generalizing l with
  | nil => exact ⟨rfl, rfl⟩
  | cons s markers ih =>
    obtain ⟨size, total⟩ := l.size_note s
    rw [List.foldl_cons, ih.1, ih.2, size, total, List.length_cons, Nat.add_right_comm]
    exact ⟨rfl, by omega⟩

/-- Items are added where they start, and are never lost. -/
theorem size_turn (e : Event) : (l.turn e).total = l.total ∧
    (l.turn e).size = l.size + if e = .start .item then 1 else 0 := by
  cases e with
  | start tag => cases tag <;> simp [turn, size, total, Nat.add_right_comm]
  | stop tag =>
    cases tag with
    | item => cases items : l.items <;> simp [turn, size, total, items]; omega
    | _ => simp [turn, size, total]
  | task checked => cases items : l.items <;> simp [turn, size, total, items]
  | _ => simp [turn]

/-- An event that sets no marker shows what was owed, or it is owed still. -/
theorem total_take (start : e ≠ .start .item) (task : ∀ checked, e ≠ .task checked) :
    (l.take e (r.marks e)).size = l.size ∧
      (l.take e (r.marks e)).total + (r.handle e).marker.toList.length =
        l.total + r.marker.toList.length := by
  have puts := congrArg List.length (r.puts_handle start task).marker
  rw [List.length_append] at puts
  rw [take, (size_turn e).1, (size_turn e).2, if_neg start, (size_foldl_note _).1,
    (size_foldl_note _).2]
  exact ⟨rfl, by omega⟩

theorem total_start : (l.take (.start .item) (r.marks (.start .item))).total = l.total ∧
    (l.take (.start .item) (r.marks (.start .item))).size = l.size + 1 := by
  rw [take, Renderer.marks, Renderer.startMarks, filterMap_marker?_endMarks]
  exact size_turn _

theorem total_task (checked : Bool) :
    (l.take (.task checked) (r.marks (.task checked))).total = l.total ∧
      (l.take (.task checked) (r.marks (.task checked))).size = l.size :=
  size_turn (.task checked)

/-- The ledger of events that a renderer takes. -/
def after (l : Ledger) (r : Renderer) (events : List Event) : Ledger :=
  l.run events (r.blocks events)

theorem after_cons (e : Event) (events : List Event) : l.after r (e :: events) =
    (l.take e (r.marks e)).after (r.handle e) events := rfl

/-- What is short of a marker stays so. -/
theorem IsShort.not_isFit {fresh : Bool} (h : IsShort r l) (lead : tasksLead fresh events = true)
    (owed : fresh = true → r.marker ≠ none) : ¬(l.after r events).IsFit := by
  induction events generalizing r l fresh with
  | nil =>
    intro fit
    have := IsFit.total_eq_size (l := l) fit
    have short : l.total + r.marker.toList.length < l.size := h
    omega
  | cons e es ih =>
    rw [after_cons]
    have short : l.total + r.marker.toList.length < l.size := h
    by_cases start : e = .start .item
    · subst start
      refine ih ?_ lead fun _ => Option.some_ne_none _
      rw [IsShort, total_start.1, total_start.2]
      simp [Renderer.handle_item]
      omega
    by_cases task : ∃ checked, e = .task checked
    · obtain ⟨checked, rfl⟩ := task
      obtain ⟨here, lead⟩ : fresh = true ∧ tasksLead true es = true := by
        simpa [tasksLead] using lead
      obtain ⟨own, owed⟩ := Option.ne_none_iff_exists'.1 (owed here)
      refine ih ?_ lead fun _ => Option.some_ne_none _
      rw [owed] at short
      rwa [IsShort, (total_task checked).1, (total_task checked).2]
    · obtain ⟨size, total⟩ := total_take (l := l) (r := r) start (not_exists.1 task)
      rw [tasksLead_cons (not_exists.1 task)] at lead
      refine ih ?_ lead fun h => absurd (of_decide_eq_true h) start
      rwa [IsShort, size, total]

/-- What is closed stays so. -/
theorem closed_subset_after (events : List Event) : l.closed ⊆ (l.after r events).closed := by
  induction events generalizing r l with
  | nil => exact List.Subset.refl _
  | cons e es ih =>
    rw [after_cons]
    refine List.Subset.trans ?_ ih
    have kept (l : Ledger) : l.closed ⊆ (l.turn e).closed := by
      cases e with
      | stop tag => cases tag <;> simp [turn]
      | start tag => cases tag <;> simp [turn]
      | _ => simp [turn]
    rw [take]
    refine List.Subset.trans ?_ (kept _)
    rw [closed_foldl_note]
    exact List.Subset.refl _

/-- An item that stops before it has shown anything is never marked. -/
theorem Settled.not_isFit_of_stop (h : Settled r l true) (events : List Event) :
    ¬(l.after r (.stop .item :: events)).IsFit := by
  obtain ⟨-, ⟨item, rest, items, -, -, fresh, -⟩, -⟩ := h
  intro fit
  have closed : item ∈ (l.take (.stop .item) (r.marks (.stop .item))).closed := by
    simp [take, Renderer.marks, Renderer.stopMarks, filterMap_marker?_endMarks, turn, items]
  have marked := fit.closed item (closed_subset_after events closed)
  simp [Listed.IsMarked, fresh] at marked

/-- A marker that is owed when the next item starts is lost. -/
theorem Settled.not_isFit_of_start (h : Settled r l true)
    (lead : tasksLead true events = true) : ¬(l.after r (.start .item :: events)).IsFit := by
  obtain ⟨-, ⟨item, rest, items, -, -, fresh, marked⟩, stray, closed⟩ := h
  rw [after_cons]
  refine IsShort.not_isFit ?_ lead fun _ => Option.some_ne_none _
  -- All items but this one have shown a marker, and that of this one is replaced.
  have others : (⟨l.lists, rest, l.closed, l.stray⟩ : Ledger).IsFit := ⟨stray, marked, closed⟩
  have count := others.total_eq_size
  have size : l.size = (⟨l.lists, rest, l.closed, l.stray⟩ : Ledger).size + 1 := by
    simp [Ledger.size, items, Nat.add_right_comm]
  have total : l.total = (⟨l.lists, rest, l.closed, l.stray⟩ : Ledger).total := by
    simp [Ledger.total, items, fresh]
  rw [IsShort, total_start.1, total_start.2, Renderer.handle_item]
  simp only [Option.toList_some, List.length_singleton]
  omega

/-- **The markers are fit exactly if every item opens.** -/
theorem Settled.isFit_iff {fresh : Bool} (h : Settled r l owing)
    (lead : tasksLead fresh events = true) (owed : fresh = true → owing = true) :
    (l.after r events).IsFit ↔ itemsOpen r.inCode owing events = true := by
  induction events generalizing r l owing fresh with
  | nil =>
    cases owing with
    | false => exact iff_of_true ⟨h.stray, h.items.2, h.closed⟩ rfl
    | true =>
      obtain ⟨item, rest, items, -, -, fresh, -⟩ := h.items
      refine iff_of_false (fun fit => ?_) nofun
      have marked := fit.items item (items ▸ List.mem_cons_self)
      simp [Listed.IsMarked, fresh] at marked
  | cons e es ih =>
    have code := r.inCode_handle e
    by_cases start : e = .start .item
    · subst start
      cases owing with
      | true => exact iff_of_false (h.not_isFit_of_start lead) nofun
      | false =>
        rw [after_cons, ih h.start lead fun _ => rfl, code]
        rfl
    by_cases stop : e = .stop .item
    · subst stop
      cases owing with
      | true => exact iff_of_false (h.not_isFit_of_stop es) nofun
      | false =>
        rw [after_cons, ih h.stop lead nofun, code]
        rfl
    rw [itemsOpen_cons start stop, after_cons]
    by_cases task : ∃ checked, e = .task checked
    · obtain ⟨checked, rfl⟩ := task
      obtain ⟨here, lead⟩ : fresh = true ∧ tasksLead true es = true := by
        simpa [tasksLead] using lead
      obtain rfl := owed here
      exact ih (h.task checked) lead fun _ => rfl
    · rw [tasksLead_cons (not_exists.1 task)] at lead
      rw [ih (h.plain ⟨start, stop, not_exists.1 task⟩) lead fun fresh =>
        absurd (of_decide_eq_true fresh) start, code]

end Ledger

/-! ### The items of a text -/

namespace Renderer

variable (r : Renderer)

/-- The line at hand ends where an item starts or stops. -/
theorem spans_handle_of_edge {e : Event} (edge : e = .start .item ∨ e = .stop .item) :
    (r.handle e).spans = [] := by
  rcases edge with rfl | rfl <;> simp [handle, start, stop, flush_eq]

end Renderer

/-- There is one item for each start of one. -/
theorem Ledger.size_after (l : Ledger) (r : Renderer) (events : List Event) :
    (l.after r events).size = l.size + events.count (.start .item) := by
  induction events generalizing l r with
  | nil => rfl
  | cons e es ih =>
    rw [after_cons, ih, take, (size_turn e).2, (size_foldl_note _).1, List.count_cons]
    simp only [beq_iff_eq]
    omega

/-- The items of events on a page: their marks, which are laid out in lines, and the ledger that they
come to. -/
structure IsItemized (events : List Event) (styles : Styles) (lines : List Line)
    (blocks : List (List Mark)) (ledger : Ledger) : Prop where
  /-- The lines are the marks laid out. -/
  laidOut : lines = layOut styles blocks.flatten
  /-- A line ends where an item starts or stops, so that each line belongs to one item. -/
  apart : ∀ before e after, events = before ++ e :: after → e = .start .item ∨ e = .stop .item →
    ((blocks.take (before.length + 1)).flatten.foldl (Page.put styles) ⟨[], []⟩).spans = []
  /-- The ledger is taken from the events and their marks. -/
  taken : ledger = Ledger.empty.run events blocks
  /-- It has one entry for each item. -/
  complete : ledger.size = events.count (.start .item)

theorem isItemized (events : List Event) (width : Nat) (styles : Styles) :
    IsItemized events styles (renderEvents events width styles)
      (Renderer.blocks { styles, width } events)
      (Ledger.empty.after { styles, width } events) where
  laidOut := renderEvents_eq_layOut _ width styles
  apart before e after split edge := by
    have whole : events = (before ++ [e]) ++ after := by rw [split, List.append_assoc]; rfl
    rw [whole, Renderer.blocks_append, List.take_left' (by simp [Renderer.length_blocks])]
    have page := Renderer.page_foldl { styles, width } (before ++ [e])
    rw [List.foldl_append] at page
    exact (congrArg Page.spans page).symm.trans (Renderer.spans_handle_of_edge _ edge)
  taken := rfl
  complete := by
    rw [Ledger.size_after]
    exact Nat.zero_add _

/-- **The items of a text show their markers exactly if each of them opens.** For every text, the
ledger of its items is fit, which is to say that every item shows its own marker once and that no
marker is shown anywhere else, if and only if every item shows something before it stops and before
another one starts. -/
theorem items_are_marked_iff_they_open (text : String) (width : Nat) (styles : Styles) :
    ∃ ledger, IsItemized (events text) styles (render text width styles)
        (Renderer.blocks { styles, width } (events text)) ledger ∧
      (ledger.IsFit ↔ itemsOpen false false (events text) = true) :=
  ⟨_, isItemized (events text) width styles,
    Ledger.Settled.isFit_iff ⟨rfl, ⟨rfl, nofun⟩, rfl, nofun⟩ (tasksLead_events text) nofun⟩

example : itemsOpen false false (events "1. a\n   - [x] b\n1. c") = true := by decide +kernel

/-- An item without text gives its marker away to what comes behind its list. -/
theorem empty_item_gives_its_marker_away :
    Ledger.empty.run (events "-\n\ntext") (Renderer.blocks { styles := .console, width := 20 }
        (events "-\n\ntext")) = ⟨[], [], [⟨"• ", []⟩], ["• "]⟩ ∧
      (preview "-\n\ntext" 20).map Line.text = ["• text"] := by
  decide +kernel

end PublisherConsole.Markdown
