import PublisherConsole.Proofs.Markdown.Payload

/-!
# Elements inside of elements

`openTags?` has the elements that a row of events leaves open, and `IsNested` says that each of them
stops inside of the one around it. The events of every text are nested (`isNested_events`).

The renderer has no elements, only a stack of styles, a count of quotes and the open lists. As long as
events are nested, they are those of the open elements (`Renderer.Follows`). The main statement,
`styles_nest`, is that the style of a text is settled by the elements around it, and that an element
leaves nothing behind.
-/

namespace PublisherConsole.Markdown

open Screen (Style Line)

/-! ### Open elements -/

/-- The open elements behind an event, outermost first. Only the innermost one may stop. -/
def Event.openTags? (tags : List Tag) : Event → Option (List Tag)
  | .start tag => some (tags ++ [tag])
  | .stop tag => if tags.getLast? = some tag then some tags.dropLast else none
  | _ => some tags

/-- The elements that a row of events leaves open, outermost first. -/
def openTags? (events : List Event) : Option (List Tag) := events.foldlM Event.openTags? []

/-- Every element stops, inside of the one around it. -/
def IsNested (events : List Event) : Prop := openTags? events = some []

instance (events : List Event) : Decidable (IsNested events) :=
  inferInstanceAs (Decidable (openTags? events = some []))

section OpenTags

variable {tags tags' inner outer : List Tag} {events events' : List Event} {e : Event}

/-- Whatever is open around an event stays so. -/
theorem Event.openTags?_append (h : e.openTags? inner = some tags) :
    e.openTags? (outer ++ inner) = some (outer ++ tags) := by
  cases e with
  | stop tag =>
    have last : inner.getLast? = some tag := by
      by_contra other
      simp [Event.openTags?, other] at h
    have nonempty : inner ≠ [] := by rintro rfl; simp at last
    have rest : inner.dropLast = tags := by simpa [Event.openTags?, last] using h
    simp [Event.openTags?, List.getLast?_append, last, List.dropLast_append_of_ne_nil nonempty, rest]
  | _ =>
    obtain rfl : _ = tags := Option.some.inj h
    simp [Event.openTags?]

theorem foldlM_openTags?_append (h : events.foldlM Event.openTags? inner = some tags) :
    events.foldlM Event.openTags? (outer ++ inner) = some (outer ++ tags) := by
  induction events generalizing inner with
  | nil =>
    obtain rfl : inner = tags := Option.some.inj h
    rfl
  | cons e es ih =>
    rw [List.foldlM_cons] at h ⊢
    obtain ⟨next, here, rest⟩ := Option.bind_eq_some_iff.1 h
    rw [Event.openTags?_append here]
    exact ih rest

/-- Nested events leave what is open around them as it is. -/
theorem IsNested.foldlM (h : IsNested events) (tags : List Tag) :
    events.foldlM Event.openTags? tags = some tags := by
  have behind : events.foldlM Event.openTags? (tags ++ []) = some (tags ++ []) :=
    foldlM_openTags?_append h
  rwa [List.append_nil] at behind

theorem isNested_nil : IsNested [] := rfl

theorem IsNested.append (h : IsNested events) (h' : IsNested events') :
    IsNested (events ++ events') := by
  rw [IsNested, openTags?, List.foldlM_append, h.foldlM]
  exact h'

theorem isNested_singleton (start : ∀ tag, e ≠ .start tag) (stop : ∀ tag, e ≠ .stop tag) :
    IsNested [e] := by
  cases e with
  | start tag => exact absurd rfl (start tag)
  | stop tag => exact absurd rfl (stop tag)
  | _ => rfl

theorem IsNested.enclosed (h : IsNested events) (tag : Tag) :
    IsNested (.start tag :: events ++ [.stop tag]) := by
  rw [IsNested, openTags?, List.foldlM_append, List.foldlM_cons]
  simp [Event.openTags?, h.foldlM]

theorem isNested_flatMap {α : Type} {l : List α} {f : α → List Event}
    (h : ∀ a ∈ l, IsNested (f a)) : IsNested (l.flatMap f) := by
  induction l with
  | nil => exact isNested_nil
  | cons a l ih =>
    obtain ⟨here, rest⟩ := List.forall_mem_cons.1 h
    rw [List.flatMap_cons]
    exact here.append (ih rest)

/-- What nested events leave open on the way. -/
theorem IsNested.exists_openTags? {before after : List Event} (h : IsNested (before ++ after)) :
    ∃ tags, openTags? before = some tags ∧ after.foldlM Event.openTags? tags = some [] := by
  rw [IsNested, openTags?, List.foldlM_append] at h
  exact Option.bind_eq_some_iff.1 h

end OpenTags

/-! ### The events of a text -/

mutual

theorem isNested_inlineEvents : (i : Inline) → IsNested (inlineEvents i)
  | .text _ | .code _ | .html _ | .softBreak | .hardBreak => by
    rw [inlineEvents]
    exact isNested_singleton nofun nofun
  | .run sign count _ _ => by
    rw [inlineEvents, ← List.flatMap_singleton' (List.replicate count _)]
    refine isNested_flatMap fun e he => ?_
    rw [List.eq_of_mem_replicate he]
    exact isNested_singleton nofun nofun
  | .element tag content => by
    rw [inlineEvents]
    exact (isNested_inlinesEvents content).enclosed tag

theorem isNested_inlinesEvents : (is : List Inline) → IsNested (inlinesEvents is)
  | [] => by rw [inlinesEvents]; exact isNested_nil
  | i :: is => by
    rw [inlinesEvents]
    exact (isNested_inlineEvents i).append (isNested_inlinesEvents is)

end

namespace StreamContext

variable (c : StreamContext)

theorem isNested_leaf (inTable : Bool) (l : Leaf) : IsNested (c.leaf inTable l) :=
  isNested_inlinesEvents _

theorem isNested_row (cells : List Leaf) : IsNested (c.row cells) :=
  isNested_flatMap fun l _ => (c.isNested_leaf true l).enclosed .tableCell

theorem isNested_table (head : List Leaf) (rows : List (List Leaf)) :
    IsNested (c.table head rows) := by
  have body : IsNested (rows.flatMap fun r => .start .tableRow :: c.row r ++ [.stop .tableRow]) :=
    isNested_flatMap fun r _ => (c.isNested_row r).enclosed .tableRow
  have all := (((c.isNested_row head).enclosed .tableHead).append body).enclosed .table
  simpa [table] using all

end StreamContext

mutual

theorem isNested_blockEvents (c : StreamContext) : (b : Block) → IsNested (blockEvents c b)
  | .paragraph l => by
    rw [blockEvents]
    split
    · exact c.isNested_leaf false l
    · exact (c.isNested_leaf false l).enclosed .paragraph
  | .heading level l => by
    rw [blockEvents]
    exact (c.isNested_leaf false l).enclosed (.heading level)
  | .rule | .task checked => by
    rw [blockEvents]
    exact isNested_singleton nofun nofun
  | .code texts => by
    rw [blockEvents, List.map_eq_flatMap]
    refine (isNested_flatMap fun cs _ => ?_).enclosed .codeBlock
    exact isNested_singleton nofun nofun
  | .html parts => by
    rw [blockEvents, List.map_eq_flatMap]
    refine (isNested_flatMap fun part _ => ?_).enclosed .htmlBlock
    cases part <;> exact isNested_singleton nofun nofun
  | .quote blocks => by
    rw [blockEvents]
    exact (isNested_blocksEvents _ blocks).enclosed .quote
  | .list tight sign number items => by
    rw [blockEvents]
    exact (isNested_blocksEvents _ items).enclosed _
  | .item indent blocks => by
    rw [blockEvents]
    exact (isNested_blocksEvents _ blocks).enclosed .item
  | .table head rows => by
    rw [blockEvents]
    exact c.isNested_table head rows

theorem isNested_blocksEvents (c : StreamContext) : (bs : List Block) → IsNested (blocksEvents c bs)
  | [] => by rw [blocksEvents]; exact isNested_nil
  | b :: bs => by
    rw [blocksEvents]
    exact (isNested_blockEvents c b).append (isNested_blocksEvents c bs)

end

/-- **The events of a text are nested.** -/
theorem isNested_events (text : String) : IsNested (events text) := isNested_blocksEvents _ _

/-! ### The style of a text -/

/-- The style that an element lays over the text in it. -/
def Tag.style? (styles : Styles) : Tag → Option Style
  | .heading level => some (styles.heading level)
  | .emphasis => some styles.emphasis
  | .strong => some styles.strong
  | .strikethrough => some styles.strikethrough
  | .link => some styles.link
  | _ => none

/-- Whether an element is a list. -/
def Tag.isList : Tag → Bool
  | .list _ => true
  | _ => false

/-- The style of text in elements, from the outermost in: that of all text, that of quotes if one is
among the elements, and the styles of the elements. -/
def textStyle (styles : Styles) (tags : List Tag) : Style :=
  (tags.filterMap (Tag.style? styles)).foldl Style.patch
    (if .quote ∈ tags then styles.text.patch styles.quote else styles.text)

/-- The text of an event that is shown in the style of the elements around it. -/
def Event.written? : Event → Option String
  | .text s => some s
  | .softBreak => some " "
  | .footnote name => some ("[^" ++ name ++ "]")
  | _ => none

/-- The text that a mark shows in a style of its own. -/
def Mark.text? : Mark → Option (String × Style)
  | .text s style => some (s, style)
  | _ => none

namespace Renderer

variable (r : Renderer)

/-! ### The texts of an event -/

theorem text?_leadMarks : r.leadMarks.filterMap Mark.text? = [] := by
  refine List.filterMap_eq_nil_iff.2 fun m hm => ?_
  have lead := r.isLead_of_mem_leadMarks hm
  cases m <;> first | rfl | exact lead.elim

theorem text?_endMarks : r.endMarks.filterMap Mark.text? = [] := by
  unfold endMarks
  split <;> rfl

theorem text?_gapMarks : r.gapMarks.filterMap Mark.text? = [] := by
  unfold gapMarks
  split
  · split <;> rfl
  · rfl

theorem text?_htmlLinesMarks (parts : List String) :
    (r.htmlLinesMarks parts).filterMap Mark.text? = [] := by
  induction parts generalizing r with
  | nil => rfl
  | cons part rest ih =>
    rw [htmlLinesMarks, List.filterMap_append, List.filterMap_append, List.filterMap_cons_none rfl,
      text?_endMarks, text?_leadMarks, ih]
    rfl

theorem text?_htmlMarks (s : String) : (r.htmlMarks s).filterMap Mark.text? = [] := by
  unfold htmlMarks
  split
  · rfl
  · rw [List.filterMap_append, List.filterMap_cons_none rfl, text?_leadMarks,
      text?_htmlLinesMarks]
    rfl

theorem text?_startMarks (tag : Tag) : (r.startMarks tag).filterMap Mark.text? = [] := by
  cases tag with
  | heading | codeBlock | list | item | quote => exact r.text?_endMarks
  | tableCell =>
    rw [startMarks]
    split <;> rfl
  | _ => rfl

theorem text?_stopMarks (tag : Tag) : (r.stopMarks tag).filterMap Mark.text? = [] := by
  have apart {p : Prop} [Decidable p] :
      (if p then r.flush.gapMarks else []).filterMap Mark.text? = [] := by
    split
    · exact r.flush.text?_gapMarks
    · rfl
  cases tag with
  | heading | codeBlock => simp [stopMarks, text?_endMarks, text?_gapMarks]
  | list | quote | paragraph => rw [stopMarks, List.filterMap_append, text?_endMarks, apart]; rfl
  | item | tableHead | tableRow => exact r.text?_endMarks
  | table => exact r.text?_gapMarks
  | _ => rfl

/-- Outside of code, an event shows what it writes in the style at hand, and no other text. -/
theorem text?_marks (code : r.inCode = false) (e : Event) :
    (r.marks e).filterMap Mark.text? = (e.written?.map fun s => (s, r.style)).toList := by
  have text (s : String) : (r.textMarks s).filterMap Mark.text? = [(s, r.style)] := by
    simp [textMarks, code, text?_leadMarks, Mark.text?]
  cases e with
  | start tag => exact r.text?_startMarks tag
  | stop tag => exact r.text?_stopMarks tag
  | text s => exact text s
  | softBreak => exact text " "
  | footnote name => exact text _
  | code s => simp [marks, text?_leadMarks, Mark.text?, Event.written?]
  | html s | inlineHtml s => exact r.text?_htmlMarks s
  | hardBreak => exact r.text?_endMarks
  | rule => simp [marks, text?_endMarks, Mark.text?, Event.written?]
  | task checked => rfl

/-! ### What the renderer has of the open elements -/

/-- The stack of styles, how deep quotes are nested, and how deep lists are. -/
def depths : List Style × Nat × Nat := (r.styleStack, r.quotes, r.lists.length)

/-- The same of elements. -/
def depthsOf (styles : Styles) (tags : List Tag) : List Style × Nat × Nat :=
  (tags.filterMap (Tag.style? styles), tags.count .quote, tags.countP Tag.isList)

/-- What a renderer has is that of the open elements; in code, a block of code is among them. -/
structure Follows (tags : List Tag) : Prop where
  depths : r.depths = depthsOf r.styles tags
  code : r.inCode = true → .codeBlock ∈ tags

@[simp] theorem depths_prepare : r.prepare.depths = r.depths := by rw [prepare_eq]; rfl

@[simp] theorem depths_flush : r.flush.depths = r.depths := by rw [flush_eq]; rfl

@[simp] theorem depths_blank : r.blank.depths = r.depths := by rw [blank_eq]; rfl

@[simp] theorem depths_push (text : String) (style : Style) :
    (r.push text style).depths = r.depths := rfl

theorem depths_foldl {f : Renderer → String → Renderer} (h : ∀ r s, (f r s).depths = r.depths)
    (lines : List String) : (lines.foldl f r).depths = r.depths := by
  induction lines generalizing r with
  | nil => rfl
  | cons line rest ih => rw [List.foldl_cons, ih, h]

theorem depths_text (s : String) : (r.text s).depths = r.depths := by
  unfold text
  split
  · exact r.depths_foldl (fun r s => by simp [codeLine]) _
  · simp

theorem depths_html (s : String) : (r.html s).depths = r.depths := by
  unfold html
  split
  · rfl
  · rw [depths_foldl _ fun r s => by simp]
    simp

theorem depths_start (tag : Tag) : (r.start tag).depths =
    (r.styleStack ++ (tag.style? r.styles).toList, r.quotes + [tag].count .quote,
      r.lists.length + [tag].countP Tag.isList) := by
  have numbered (lists : List (Option Nat)) : (nextMarker lists).2.length = lists.length := by
    unfold nextMarker
    cases lists using List.reverseRecOn with
    | nil => rfl
    | append_singleton lists last => cases last <;> simp
  cases tag with
  | tableCell => by_cases empty : r.spans.isEmpty <;> simp [start, depths, push, Tag.style?,
      Tag.isList, empty]
  | _ => simp [start, depths, enter, flush_eq, Tag.style?, Tag.isList, numbered]

theorem depths_stop (tag : Tag) : (r.stop tag).depths =
    (if (tag.style? r.styles).isSome then r.styleStack.dropLast else r.styleStack,
      r.quotes - [tag].count .quote, r.lists.length - [tag].countP Tag.isList) := by
  have apart (r : Renderer) {p : Prop} [Decidable p] :
      (if p then r.blank else r).depths = r.depths := by
    split
    · exact r.depths_blank
    · rfl
  cases tag with
  | list | quote | paragraph =>
    rw [stop]
    simp only [apart]
    simp [depths, flush_eq, Tag.style?, Tag.isList]
  | _ =>
    simp only [stop, depths_blank]
    simp [depths, leave, flush_eq, Tag.style?, Tag.isList]

variable {r} {tags tags' : List Tag}

theorem depthsOf_concat (styles : Styles) (tags : List Tag) (tag : Tag) :
    depthsOf styles (tags ++ [tag]) =
      ((depthsOf styles tags).1 ++ (tag.style? styles).toList,
        (depthsOf styles tags).2.1 + [tag].count .quote,
        (depthsOf styles tags).2.2 + [tag].countP Tag.isList) := by
  have styled : [tag].filterMap (Tag.style? styles) = (tag.style? styles).toList := by
    cases h : tag.style? styles <;> simp [h]
  rw [depthsOf, List.filterMap_append, List.count_append, List.countP_append, styled]
  rfl

/-- The start of an element is followed. -/
theorem Follows.start (h : r.Follows tags) (tag : Tag) :
    (r.handle (.start tag)).Follows (tags ++ [tag]) where
  depths := by
    have before := h.depths
    rw [Renderer.depths, Prod.mk.injEq, Prod.mk.injEq] at before
    rw [(r.page_handle _).2, depthsOf_concat, ← before.1, ← before.2.1, ← before.2.2]
    exact r.depths_start tag
  code code := by
    rw [inCode_handle] at code
    cases tag <;> simp_all [Event.leavesCode, h.code]

/-- The stop of the innermost element is followed. -/
theorem Follows.stop {tag : Tag} (h : r.Follows (tags ++ [tag])) :
    (r.handle (.stop tag)).Follows tags where
  depths := by
    have before := h.depths
    rw [depthsOf_concat, Renderer.depths, Prod.mk.injEq, Prod.mk.injEq] at before
    obtain ⟨stack, quotes, lists⟩ := before
    rw [(r.page_handle _).2]
    refine (r.depths_stop tag).trans ?_
    rw [stack, quotes, lists, Nat.add_sub_cancel, Nat.add_sub_cancel]
    cases tag.style? r.styles <;> simp
  code code := by
    have still := h.code
    rw [inCode_handle] at code
    cases tag <;> simp_all [Event.leavesCode]

theorem Follows.plain (h : r.Follows tags) {e : Event} (start : ∀ tag, e ≠ .start tag)
    (stop : ∀ tag, e ≠ .stop tag) : (r.handle e).Follows tags := by
  have depths : (r.handle e).depths = r.depths := by
    cases e with
    | start tag => exact absurd rfl (start tag)
    | stop tag => exact absurd rfl (stop tag)
    | text s => exact r.depths_text s
    | html s | inlineHtml s => exact r.depths_html s
    | softBreak => exact r.depths_text " "
    | footnote name => exact r.depths_text _
    | code s => simp [Renderer.handle]
    | hardBreak => exact r.depths_flush
    | rule =>
      rw [Renderer.handle, rule, depths_blank]
      exact r.depths_flush
    | task checked => rfl
  have code : e.leavesCode r.inCode = r.inCode := by
    cases e with
    | start tag => exact absurd rfl (start tag)
    | stop tag => exact absurd rfl (stop tag)
    | _ => rfl
  refine ⟨by rw [depths, (r.page_handle e).2, h.depths], fun h' => h.code ?_⟩
  rwa [inCode_handle, code] at h'

/-- **Events keep the renderer and the open elements together.** -/
theorem Follows.handle (h : r.Follows tags) {e : Event} (opens : e.openTags? tags = some tags') :
    (r.handle e).Follows tags' := by
  cases e with
  | start tag =>
    obtain rfl : tags ++ [tag] = tags' := Option.some.inj opens
    exact h.start tag
  | stop tag =>
    cases tags using List.reverseRecOn with
    | nil => simp [Event.openTags?] at opens
    | append_singleton tags last =>
      obtain ⟨rfl, rfl⟩ : last = tag ∧ tags = tags' := by simpa [Event.openTags?] using opens
      exact h.stop
  | _ =>
    obtain rfl : tags = tags' := Option.some.inj opens
    exact h.plain nofun nofun

theorem Follows.foldl (h : r.Follows tags) {events : List Event}
    (opens : events.foldlM Event.openTags? tags = some tags') :
    (events.foldl Renderer.handle r).Follows tags' := by
  induction events generalizing r tags with
  | nil =>
    obtain rfl : tags = tags' := Option.some.inj opens
    exact h
  | cons e es ih =>
    rw [List.foldlM_cons] at opens
    obtain ⟨next, here, rest⟩ := Option.bind_eq_some_iff.1 opens
    exact ih (h.handle here) rest

/-- The style at hand is that of the open elements. -/
theorem Follows.style_eq (h : r.Follows tags) : r.style = textStyle r.styles tags := by
  have depths := h.depths
  rw [Renderer.depths, depthsOf, Prod.mk.injEq, Prod.mk.injEq] at depths
  obtain ⟨stack, quotes, -⟩ := depths
  have quoted : r.quotes > 0 ↔ .quote ∈ tags := by rw [quotes]; exact List.count_pos_iff
  rw [style, textStyle, stack]
  simp only [quoted]

end Renderer

/-! ### A whole page -/

/-- The texts of nested events on a page have the styles of the elements around them, and elements
leave nothing behind. -/
structure NestsStyles (events : List Event) (width : Nat) (styles : Styles) (lines : List Line)
    (blocks : List (List Mark)) : Prop where
  /-- The lines are the blocks laid out, one for each event. -/
  laidOut : lines = layOut styles blocks.flatten
  /-- Outside of blocks of code, the text of an event is shown in the style of the elements that are
  open there, and no other event shows such a text. -/
  styled : ∀ before e after, events = before ++ e :: after → ∃ tags ms, openTags? before = some tags ∧
    blocks[before.length]? = some ms ∧ (.codeBlock ∉ tags →
      ms.filterMap Mark.text? = (e.written?.map fun s => (s, textStyle styles tags)).toList)
  /-- Behind an element, the stack of styles and the depths of quotes and of lists are what they were
  in front of it. -/
  restored : ∀ before tag content after,
    events = before ++ (Event.start tag :: content ++ [Event.stop tag]) ++ after →
      IsNested content →
        ((before ++ (Event.start tag :: content ++ [Event.stop tag])).foldl Renderer.handle
          { styles, width }).depths = (before.foldl Renderer.handle { styles, width }).depths
  /-- At the end nothing is left of them. -/
  emptied : (events.foldl Renderer.handle { styles, width }).depths = ([], 0, 0)

/-- **Inline styles nest.** The text of nested events has the style of all text, under that of quotes
if a quote is around it, and under the styles of the headings, emphasis and links around it, from the
outermost in; and every element leaves the renderer as it was. -/
theorem styles_nest (events : List Event) (h : IsNested events) (width : Nat) (styles : Styles) :
    ∃ blocks, NestsStyles events width styles (renderEvents events width styles) blocks := by
  have start : ({ styles, width } : Renderer).Follows [] := ⟨rfl, nofun⟩
  refine ⟨Renderer.blocks { styles, width } events, renderEvents_eq_layOut _ width styles, ?_, ?_, ?_⟩
  · rintro before e after rfl
    obtain ⟨tags, opens, -⟩ := h.exists_openTags?
    have follows := start.foldl opens
    have same : (before.foldl Renderer.handle { styles, width }).styles = styles :=
      Renderer.styles_foldl _ before
    refine ⟨tags, _, opens, Renderer.getElem?_blocks _ before e after, fun code => ?_⟩
    have plain : (before.foldl Renderer.handle { styles, width }).inCode = false := by
      by_contra inCode
      exact code (follows.code (by simpa using inCode))
    rw [Renderer.text?_marks _ plain, follows.style_eq, same]
  · rintro before tag content after rfl inner
    obtain ⟨tags, opens, -⟩ := (List.append_assoc .. ▸ h).exists_openTags?
    have follows := start.foldl opens
    have element := (inner.enclosed tag).foldlM tags
    rw [List.foldl_append, (follows.foldl element).depths, follows.depths,
      Renderer.styles_foldl]
  · exact (start.foldl h).depths

/-- Emphasis in strong text, in a quote. -/
theorem styles_nest_in_a_quote : IsNested (events "> **a *b***") ∧
    ∃ blocks, NestsStyles (events "> **a *b***") 20 .console
      (renderEvents (events "> **a *b***") 20 .console) blocks :=
  ⟨isNested_events _, styles_nest _ (isNested_events _) 20 .console⟩

end PublisherConsole.Markdown
