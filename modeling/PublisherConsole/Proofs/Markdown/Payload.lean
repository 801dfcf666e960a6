import Mathlib.Tactic.FinCases
import PublisherConsole.Markdown.Preview
import PublisherConsole.Proofs.Markdown.Marks
import PublisherConsole.Proofs.Text.Fill

/-!
# No text is lost

Every event that has a text shows it in a block of marks, and everything else that is shown is
decoration. `Spread` says how a text is shown: in one piece, or in pieces at the ends of lines, behind
what the start of a line is owed. `Shown` says it of all events in their order.

Texts and inline code are shown as they stand. HTML, and all that stands in a block of code, is
divided into lines, and its line ends are not shown (`flatMap_splitLines`). The main statement is
`text_is_kept`. Line ends in a text, which a numeric entity can bring about, stay in its span; that
they were removed everywhere is refuted by `line_end_of_entity_is_shown`.
-/

namespace PublisherConsole

/-! ### Line ends -/

namespace Text

/-- Characters without their line ends: line feeds, and the carriage returns right before them. -/
def withoutLineEnds : List Char → List Char
  | [] => []
  | c :: cs =>
    if c = '\n' ∨ c = '\r' ∧ cs.head? = some '\n' then withoutLineEnds cs
    else c :: withoutLineEnds cs

theorem lineFeed_notMem_withoutLineEnds (cs : List Char) : '\n' ∉ withoutLineEnds cs := by
  induction cs with
  | nil => simp [withoutLineEnds]
  | cons c cs ih =>
    unfold withoutLineEnds
    split
    next => exact ih
    next others =>
      rw [List.mem_cons, not_or]
      exact ⟨fun h => others (.inl h.symm), ih⟩

/-- What is left of the rows of a text when it is divided into lines. -/
def unended : List (List Char) → List Char
  | [] => []
  | [row] => row
  | row :: next :: rows => dropReturn row ++ unended (next :: rows)

theorem dropReturn_cons (c d : Char) (row : List Char) :
    dropReturn (c :: d :: row) = c :: dropReturn (d :: row) := by
  unfold dropReturn
  rw [List.getLast?_cons_cons]
  split <;> rfl

/-- A text starts with a line feed if its first row is empty and not its last one. -/
theorem head?_eq_lineFeed_iff {cs row : List Char} {rows : List (List Char)}
    (h : splitRows cs = row :: rows) : cs.head? = some '\n' ↔ row = [] ∧ rows ≠ [] := by
  cases cs with
  | nil =>
    obtain ⟨rfl, rfl⟩ : [] = row ∧ [] = rows := by simpa [splitRows] using h
    simp
  | cons d ds =>
    obtain ⟨first, others, hrows⟩ := List.exists_cons_of_ne_nil (splitRows_ne_nil ds)
    rw [splitRows] at h
    by_cases feed : d = '\n'
    · rw [if_pos feed] at h
      obtain ⟨rfl, rfl⟩ := List.cons.inj h
      simp [feed, splitRows_ne_nil]
    · rw [if_neg feed, hrows] at h
      obtain ⟨rfl, rfl⟩ := List.cons.inj h
      simp [feed]

theorem unended_splitRows (cs : List Char) : unended (splitRows cs) = withoutLineEnds cs := by
  induction cs with
  | nil => rfl
  | cons c cs ih =>
    obtain ⟨row, rows, hrows⟩ := List.exists_cons_of_ne_nil (splitRows_ne_nil cs)
    rw [hrows] at ih
    by_cases feed : c = '\n'
    · rw [splitRows, if_pos feed, hrows, unended, withoutLineEnds, if_pos (.inl feed), ih]
      rfl
    · -- A carriage return is left out if the row ends behind it.
      rw [splitRows, if_neg feed, hrows, withoutLineEnds]
      simp only [head?_eq_lineFeed_iff hrows, feed, false_or, ← ih]
      cases row with
      | cons d row =>
        cases rows <;> simp [unended, dropReturn_cons]
      | nil =>
        cases rows with
        | nil => simp [unended]
        | cons next rows => by_cases ends : c = '\r' <;> simp [unended, dropReturn, ends]

/-- The lines of a text are the text without its line ends. -/
theorem flatMap_splitLines (s : String) :
    (splitLines s).flatMap String.toList = withoutLineEnds s.toList := by
  have lines (rows : List (List Char)) : ((rows.dropLast.map dropReturn ++
      if (rows.getLastD []).isEmpty then [] else [rows.getLastD []]).map String.ofList).flatMap
        String.toList = unended rows := by
    induction rows using unended.induct with
    | case1 => rfl
    | case2 row => cases row <;> simp [unended]
    | case3 row next rows ih => simp_all [unended]
  rw [← unended_splitRows, ← lines]
  rfl

/-- A line feed ends the row before it. -/
theorem splitRows_append_lineFeed {row : List Char} (h : '\n' ∉ row) (cs : List Char) :
    splitRows (row ++ '\n' :: cs) = row :: splitRows cs := by
  induction row with
  | nil => rfl
  | cons c row ih =>
    rw [List.mem_cons, not_or] at h
    rw [List.cons_append, splitRows, if_neg (Ne.symm h.1), ih h.2]

/-- A text without line feeds is one line, if there is anything in it. -/
theorem splitLines_of_notMem {s : String} (h : '\n' ∉ s.toList) :
    splitLines s = if s = "" then [] else [s] := by
  rw [splitLines, splitRows_of_notMem h]
  by_cases none : s = "" <;> simp [none]

/-- A row that a line feed ends is a line of its own. -/
theorem splitLines_row {row : List Char} (h : '\n' ∉ row) (plain : row.getLast? ≠ some '\r') :
    splitLines (String.ofList (row ++ ['\n'])) = [String.ofList row] := by
  rw [splitLines, String.toList_ofList, splitRows_append_lineFeed h]
  simp [splitRows, dropReturn, plain]

end Text

namespace Markdown

open Screen (Line)
open Text (withoutLineEnds)

/-! ### What is to be shown -/

/-- The text of an event, if it has one. -/
def Event.text? : Event → Option String
  | .text s | .code s | .html s | .inlineHtml s => some s
  | .softBreak => some " "
  | .footnote name => some ("[^" ++ name ++ "]")
  | _ => none

/-- Whether the text of an event is shown as it stands, and not divided into lines. -/
def Event.isVerbatim (inCode : Bool) : Event → Bool
  | .html _ | .inlineHtml _ => false
  | .code _ => true
  | _ => !inCode

/-- What of an event is shown. -/
def Event.payload? (inCode : Bool) (e : Event) : Option (List Char) :=
  e.text?.map fun s => if e.isVerbatim inCode then s.toList else withoutLineEnds s.toList

/-- Whether a block of code is open behind an event. -/
def Event.leavesCode (inCode : Bool) : Event → Bool
  | .start .codeBlock => true
  | .stop .codeBlock => false
  | _ => inCode

/-- The text of a mark that is no decoration. The backquotes around inline code and the indentation of
a block of code do not belong to it. -/
def Mark.payload? : Mark → Option String
  | .text s _ | .code s | .codeLine s | .html s => some s
  | _ => none

/-- A mark that stands at the start of a line. -/
def Mark.IsLead : Mark → Prop
  | .bars _ | .marker _ => True
  | _ => False

/-- Marks that show pieces of a text one behind the other. A line ends between two of them, and may
end behind the last one. -/
inductive Spread : List String → List Mark → Prop
  | nil : Spread [] []
  | last {lead : List Mark} {m : Mark} {piece : String} (leads : ∀ l ∈ lead, l.IsLead)
      (shows : m.payload? = some piece) : Spread [piece] (lead ++ [m])
  | broken {lead ms : List Mark} {m : Mark} {piece : String} {pieces : List String}
      (leads : ∀ l ∈ lead, l.IsLead) (shows : m.payload? = some piece) (rest : Spread pieces ms) :
      Spread (piece :: pieces) (lead ++ m :: .lineEnd :: ms)

/-- The marks of an event show what is to be shown of it, and decoration otherwise. -/
def Shows (payload : Option (List Char)) (ms : List Mark) : Prop :=
  match payload with
  | some cs => ∃ pieces, Spread pieces ms ∧ pieces.flatMap String.toList = cs
  | none => ∀ m ∈ ms, m.payload? = none

/-- Every event shows what is to be shown of it, in a block of its own. -/
inductive Shown (payload? : Bool → Event → Option (List Char)) :
    Bool → List Event → List (List Mark) → Prop
  | nil (inCode : Bool) : Shown payload? inCode [] []
  | cons {inCode : Bool} {e : Event} {es : List Event} {ms : List Mark} {blocks : List (List Mark)}
      (here : Shows (payload? inCode e) ms) (rest : Shown payload? (e.leavesCode inCode) es blocks) :
      Shown payload? inCode (e :: es) (ms :: blocks)

/-- The markers of items: a bullet or a number behind an indentation, and boxes of tasks. -/
inductive IsMarker : String → Prop
  | none : IsMarker ""
  | bullet (depth : Nat) : IsMarker (Renderer.repeatText depth "  " ++ "• ")
  | number (depth n : Nat) : IsMarker (Renderer.repeatText depth "  " ++ toString n ++ ". ")
  | box {s : String} (h : IsMarker s) (checked : Bool) :
      IsMarker (s ++ if checked then "[x] " else "[ ] ")

/-! ### What is shown -/

namespace Renderer

variable (r : Renderer)

theorem isLead_of_mem_leadMarks {m : Mark} (h : m ∈ r.leadMarks) : m.IsLead := by
  unfold leadMarks at h
  split at h
  · rcases List.mem_append.1 h with h | h
    · split at h
      · rw [List.mem_singleton.1 h]
        trivial
      · simp at h
    · obtain ⟨s, -, rfl⟩ : ∃ s, r.marker = some s ∧ .marker s = m := by simpa using h
      trivial
  · simp at h

theorem shows_endMarks : Shows none r.endMarks := by
  intro m h
  unfold endMarks at h
  split at h <;> simp at h
  rw [h]
  rfl

theorem shows_gapMarks : Shows none r.gapMarks := by
  intro m h
  unfold gapMarks at h
  split at h
  · split at h <;> simp at h
    rw [h]
    rfl
  · simp at h

theorem shows_append {ms ms' : List Mark} (h : Shows none ms) (h' : Shows none ms') :
    Shows none (ms ++ ms') := fun m hm => (List.mem_append.1 hm).elim (h m) (h' m)

theorem shows_nil : Shows none [] := fun _ h => nomatch h

/-- Lines of code show each line behind what it is owed. -/
theorem spread_codeMarks (lines : List String) : Spread lines (r.codeMarks lines) := by
  induction lines generalizing r with
  | nil => exact .nil
  | cons line rest ih => exact .broken (fun _ => r.isLead_of_mem_leadMarks) rfl (ih _)

theorem shows_textMarks (s : String) :
    Shows (some (if !r.inCode then s.toList else withoutLineEnds s.toList)) (r.textMarks s) := by
  unfold textMarks
  cases code : r.inCode with
  | true => exact ⟨_, r.spread_codeMarks _, Text.flatMap_splitLines s⟩
  | false => exact ⟨[s], .last (fun _ => r.isLead_of_mem_leadMarks) rfl, by simp⟩

/-- Parts of HTML go on from a mark that is on the line at hand. -/
theorem spread_htmlLinesMarks {lead : List Mark} {m : Mark} {piece : String}
    (leads : ∀ l ∈ lead, l.IsLead) (shows : m.payload? = some piece) (there : r.spans ≠ [])
    (parts : List String) : Spread (piece :: parts) (lead ++ m :: r.htmlLinesMarks parts) := by
  induction parts generalizing r lead m piece with
  | nil => exact .last leads shows
  | cons part rest ih =>
    have ends : r.endMarks = [.lineEnd] := by simp [endMarks, there]
    rw [htmlLinesMarks, ends]
    exact .broken leads shows
      (ih _ (fun _ => r.flush.isLead_of_mem_leadMarks) rfl (by simp [htmlLine, push]))

theorem shows_htmlMarks (s : String) : Shows (some (withoutLineEnds s.toList)) (r.htmlMarks s) := by
  refine ⟨Text.splitLines s, ?_, Text.flatMap_splitLines s⟩
  unfold htmlMarks
  cases Text.splitLines s with
  | nil => exact .nil
  | cons first rest =>
    exact spread_htmlLinesMarks _ (fun _ => r.isLead_of_mem_leadMarks) rfl (by simp [push]) rest

theorem shows_startMarks (tag : Tag) : Shows none (r.startMarks tag) := by
  cases tag with
  | heading | codeBlock | list | item | quote => exact r.shows_endMarks
  | tableCell =>
    rw [startMarks]
    split
    · exact shows_nil
    · intro m h
      rw [List.mem_singleton.1 h]
      rfl
  | _ => exact shows_nil

theorem shows_stopMarks (tag : Tag) : Shows none (r.stopMarks tag) := by
  have ended := r.shows_endMarks
  have apart {p : Prop} [Decidable p] : Shows none (if p then r.flush.gapMarks else []) := by
    split
    · exact r.flush.shows_gapMarks
    · exact shows_nil
  cases tag with
  | heading | codeBlock => exact shows_append ended r.flush.shows_gapMarks
  | list | quote | paragraph => exact shows_append ended apart
  | item | tableHead | tableRow => exact ended
  | table => exact r.shows_gapMarks
  | _ => exact shows_nil

/-- **The marks of an event show its payload.** -/
theorem shows_marks (e : Event) : Shows (e.payload? r.inCode) (r.marks e) := by
  cases e with
  | start tag => exact r.shows_startMarks tag
  | stop tag => exact r.shows_stopMarks tag
  | text s => exact r.shows_textMarks s
  | code s => exact ⟨[s], .last (fun _ => r.isLead_of_mem_leadMarks) rfl, by simp [Event.isVerbatim]⟩
  | html s => exact r.shows_htmlMarks s
  | inlineHtml s => exact r.shows_htmlMarks s
  | softBreak => exact r.shows_textMarks " "
  | hardBreak => exact r.shows_endMarks
  | rule =>
    refine shows_append r.shows_endMarks fun m h => ?_
    fin_cases h <;> rfl
  | task checked => exact shows_nil
  | footnote name => exact r.shows_textMarks _

/-! ### The page of all events -/

/-- A block of code is open where events leave it open. -/
theorem inCode_handle (e : Event) : (r.handle e).inCode = e.leavesCode r.inCode := by
  rw [show (r.handle e).inCode = (r.handle e).context.1 from rfl, context_handle]
  cases e with
  | start tag => cases tag <;> rfl
  | stop tag => cases tag <;> rfl
  | _ => rfl

/-- Events show their payloads, one behind the other. -/
theorem shown_blocks (events : List Event) :
    Shown Event.payload? r.inCode events (r.blocks events) := by
  induction events generalizing r with
  | nil => exact .nil _
  | cons e es ih =>
    refine .cons (r.shows_marks e) ?_
    rw [← inCode_handle]
    exact ih _

/-! ### Markers -/

theorem isMarker_nextMarker (lists : List (Option Nat)) : IsMarker (nextMarker lists).1 := by
  unfold nextMarker
  split
  · exact .number _ _
  · exact .bullet _

/-- What is owed is the marker of an item. -/
def OwesMarker : Prop := ∀ s, r.marker = some s → IsMarker s

variable {r}

theorem OwesMarker.handle (h : r.OwesMarker) (e : Event) :
    (∀ s, .marker s ∈ r.marks e → IsMarker s) ∧ (r.handle e).OwesMarker := by
  by_cases item : e = .start .item
  · subst item
    refine ⟨fun s hs => ?_, fun s hs => ?_⟩
    · simp [marks, startMarks, endMarks] at hs
    · obtain rfl : _ = s := Option.some.inj hs
      exact isMarker_nextMarker _
  by_cases task : ∃ checked, e = .task checked
  · obtain ⟨checked, rfl⟩ := task
    refine ⟨fun s hs => by simp [marks] at hs, fun s hs => ?_⟩
    obtain rfl : _ = s := Option.some.inj hs
    cases hmarker : r.marker with
    | none => exact .box .none checked
    | some before => exact .box (h before hmarker) checked
  -- All other events show what was owed before or still owe it.
  have puts := (r.puts_handle item (not_exists.1 task)).marker
  have owed {s : String}
      (hs : s ∈ (r.marks e).filterMap Mark.marker? ++ (r.handle e).marker.toList) : IsMarker s := h s (by rwa [puts, Option.mem_toList] at hs)
  exact ⟨fun s hs => owed (List.mem_append_left _ (List.mem_filterMap.2 ⟨_, hs, rfl⟩)),
    fun s hs => owed (List.mem_append_right _ (Option.mem_toList.2 hs))⟩

theorem OwesMarker.blocks (h : r.OwesMarker) (events : List Event) {s : String}
    (hs : .marker s ∈ (r.blocks events).flatten) : IsMarker s := by
  induction events generalizing r with
  | nil => simp [Renderer.blocks] at hs
  | cons e es ih =>
    rw [Renderer.blocks, List.flatten_cons, List.mem_append] at hs
    exact hs.elim ((h.handle e).1 s) (ih (h.handle e).2)

end Renderer

/-! ### The whole page -/

/-- The lines of events show every payload, in blocks that follow each other, and all else in them is
decoration. -/
structure Keeps (payload? : Bool → Event → Option (List Char)) (events : List Event)
    (styles : Styles) (lines : List Line) (blocks : List (List Mark)) : Prop where
  /-- There is one block for each event, which shows its payload. -/
  shown : Shown payload? false events blocks
  /-- The markers are those of items. -/
  markers : ∀ s, .marker s ∈ blocks.flatten → IsMarker s
  /-- The lines are the blocks laid out. -/
  laidOut : lines = layOut styles blocks.flatten
  /-- Their characters are those of the blocks. -/
  chars : lines.flatMap Line.chars = blocks.flatten.flatMap (Mark.chars styles)

/-- **No text is lost.** Whatever the events and the width are, the lines are made up of one block for
each event. The block of an event with a text shows the text once and in one piece, but for the ends of
lines and what the next line is owed then; other blocks have no text. -/
theorem text_is_kept (events : List Event) (width : Nat) (styles : Styles) :
    ∃ blocks, Keeps Event.payload? events styles (renderEvents events width styles) blocks := by
  have lines := renderEvents_eq_layOut events width styles
  refine ⟨_, Renderer.shown_blocks { styles, width } events, fun s hs => ?_, lines,
    by rw [lines, chars_layOut]⟩
  exact Renderer.OwesMarker.blocks (fun _ h => by cases h) events hs

/-! ### Line ends that are shown -/

theorem lineFeed_notMem_repeatText {n : Nat} {text : String} (h : '\n' ∉ text.toList) :
    '\n' ∉ (Renderer.repeatText n text).toList := by
  rw [Renderer.repeatText, String.toList_join, List.mem_flatMap]
  rintro ⟨s, hs, hmem⟩
  exact h (List.eq_of_mem_replicate hs ▸ hmem)

/-- Markers have no line ends. -/
theorem IsMarker.lineFeed_notMem {s : String} (h : IsMarker s) : '\n' ∉ s.toList := by
  have indented (depth : Nat) : '\n' ∉ (Renderer.repeatText depth "  ").toList :=
    lineFeed_notMem_repeatText (by decide)
  induction h with
  | none => decide
  | bullet depth => simp [indented]
  | number depth n =>
    have digits : '\n' ∉ Nat.toDigits 10 n := fun h =>
      absurd (Nat.isDigit_of_mem_toDigits (by decide) (by decide) h) (by decide)
    simp [indented, digits]
  | box h checked ih => cases checked <;> simp [ih]

/-- Decoration has no line ends, and other marks have those of their text. -/
theorem Mark.lineFeed_notMem_shown {m : Mark} (payload : ∀ s, m.payload? = some s → '\n' ∉ s.toList)
    (marker : ∀ s, m = .marker s → IsMarker s) : '\n' ∉ m.shown.toList := by
  cases m with
  | bars depth => exact lineFeed_notMem_repeatText (by decide)
  | marker s => exact (marker s rfl).lineFeed_notMem
  | text s style => exact payload s rfl
  | html s => exact payload s rfl
  | code s => simpa [shown] using payload s rfl
  | codeLine s => simpa [shown] using payload s rfl
  | divider => decide
  | rule width => exact lineFeed_notMem_repeatText (by decide)
  | lineEnd => decide
  | gap => decide

/-- What the marks of a text show are its pieces. -/
theorem Spread.mem {pieces : List String} {ms : List Mark} {m : Mark} {s : String}
    (h : Spread pieces ms) (hm : m ∈ ms) (shows : m.payload? = some s) : s ∈ pieces := by
  have lead {l : Mark} (isLead : l.IsLead) : l.payload? = none := by
    cases l <;> first | rfl | exact isLead.elim
  induction h with
  | nil => cases hm
  | last leads shows' =>
    rcases List.mem_append.1 hm with hm | hm
    · simp [lead (leads m hm)] at shows
    · rw [List.mem_singleton.1 hm, shows'] at shows
      simpa using shows.symm
  | broken leads shows' rest ih =>
    rcases List.mem_append.1 hm with hm | hm
    · simp [lead (leads m hm)] at shows
    · rcases List.mem_cons.1 hm with rfl | hm
      · rw [shows'] at shows
        simp [Option.some.inj shows]
      · rcases List.mem_cons.1 hm with rfl | hm
        · cases shows
        · exact List.mem_cons_of_mem _ (ih hm)

/-- The text of an event without its line ends, wherever it stands. -/
def Event.stripped? (_ : Bool) (e : Event) : Option (List Char) :=
  e.text?.map fun s => withoutLineEnds s.toList

/-- Events whose line ends are not shown have none in their marks. -/
theorem Shown.lineFeed_notMem {inCode : Bool} {events : List Event} {blocks : List (List Mark)}
    (h : Shown Event.stripped? inCode events blocks)
    (markers : ∀ s, .marker s ∈ blocks.flatten → IsMarker s) {m : Mark} (hm : m ∈ blocks.flatten) :
    '\n' ∉ m.shown.toList := by
  refine Mark.lineFeed_notMem_shown (fun s hs => ?_) fun s hs => markers s (hs ▸ hm)
  clear markers
  induction h with
  | nil => cases hm
  | @cons inCode e es ms blocks here rest ih =>
    rw [List.flatten_cons, List.mem_append] at hm
    refine hm.elim (fun hm => ?_) ih
    cases htext : e.text? with
    | none =>
      rw [Event.stripped?, htext] at here
      simp [here m hm] at hs
    | some text =>
      rw [Event.stripped?, htext] at here
      obtain ⟨pieces, spread, hpieces⟩ := here
      have fed : '\n' ∉ pieces.flatMap String.toList := by
        rw [hpieces]
        exact Text.lineFeed_notMem_withoutLineEnds _
      exact fun h => fed (List.mem_flatMap.2 ⟨s, spread.mem hm hs, h⟩)

/-- **A line end of a text is shown.** A numeric entity stands for it here. -/
theorem line_end_of_entity_is_shown :
    ¬∃ blocks, Keeps Event.stripped? (events "a&#10;b") .console (preview "a&#10;b" 20) blocks := by
  rintro ⟨blocks, keeps⟩
  have fed : ('\n', Styles.console.text) ∈ (preview "a&#10;b" 20).flatMap Line.chars := by
    decide +kernel
  rw [keeps.chars, List.mem_flatMap] at fed
  obtain ⟨m, hm, fed⟩ := fed
  obtain ⟨c, hc, heq⟩ := List.mem_map.1 fed
  obtain ⟨rfl, -⟩ := Prod.mk.inj heq
  exact keeps.shown.lineFeed_notMem keeps.markers hm hc

end Markdown

end PublisherConsole
