import PublisherConsole.Proofs.Markdown.LineEnds.Definitions
import PublisherConsole.Proofs.Markdown.LineEnds.Tables

/-!
# Leaf blocks of a text with carriage returns

A paragraph goes on from line to line. At the start of each line there is something on it, so that its pieces
stand where they should, and the break behind a line stands in it; so a paragraph is read as before
(`paragraphFrom_crlf`). The other kinds of leaves are read as before too, and so is whatever a line holds
behind its margin, given that something is there (`readLeaf_crlf`).
-/

namespace PublisherConsole.Markdown

variable {s : Source} {r : Reader} {m : Margin} {i j n n' b start : Nat} {path : List Container}
  {pieces : List Piece} {ending : LineBreak} {l : LineScan} {mode : LineMode}

/-! ### The end of a line -/

namespace Source.HasPieces

theorem keepBackslash (h : s.HasPieces b pieces) (break' : s.HasBreak b j ending) :
    s.HasPieces b (keepBackslash s pieces ending) := by
  cases ending with
  | hard p =>
    obtain ⟨-, start, -⟩ := break'
    rw [Markdown.keepBackslash]
    split
    next slash => exact h.addText start ((feeds_of_isAt slash (by decide)).trans start)
    next => exact h
  | _ => exact h

theorem trimHeading (h : s.HasPieces b pieces) (start : Nat) : s.HasPieces b (trimHeading s start pieces) := by
  cases h with
  | nil => exact .nil b
  | @cons _ p rest before here stop =>
    have line := feeds_skipBack (s := s) (p := isInlineBlank) rfl start p.stop
    refine .cons before ?_ (line.trans stop)
    cases here with
    | inLine same next => exact .inLine (line.trans same) next
    | lineEnd kind front => exact .lineEnd kind front

theorem headingPieces (h : s.HasPieces b pieces) (break' : s.HasBreak b j ending) (start : Nat) :
    s.HasPieces b (headingPieces s start pieces ending) := by
  unfold Markdown.headingPieces
  split
  · split
    · exact h.keepBackslash break'
    · exact h.trimHeading start
  · exact h.trimHeading start

/-- Behind its break a line goes on in the next one. -/
theorem addBreak (h : s.HasPieces b pieces) (break' : s.HasBreak b j ending) (none : ending ≠ .none)
    (table : ∀ columns, ending ≠ .table columns) : s.HasPieces (s.feeds j) (addBreak pieces ending) := by
  cases ending with
  | soft p =>
    obtain ⟨here, start, rfl⟩ := break'
    exact .cons (start ▸ h) here rfl
  | hard p =>
    obtain ⟨here, start, rfl⟩ := break'
    exact .cons (start ▸ h) here rfl
  | none => exact absurd rfl none
  | table columns => exact absurd rfl (table columns)

end Source.HasPieces

theorem addBreak_crlf (pieces : List Piece) (ending : LineBreak) :
    addBreak (pieces.map s.shiftPiece) (s.shiftBreak ending) = (addBreak pieces ending).map s.shiftPiece := by
  cases ending <;> rfl

theorem LineScan.finish_ne_none (start i behind : Nat) : (l.finish s path mode start i behind).2.2 ≠ .none := by
  unfold LineScan.finish
  dsimp only
  split
  · exact nofun
  · split
    · exact nofun
    · split <;> exact nofun

/-- A line of text that has no break behind it is the last one. -/
theorem LineScan.IsIn.stop_le_scanFrom [s.IsPlain] (h : l.IsIn s b) (line : s.feeds i = b) (text : mode ≠ .cell)
    (start : Nat) (enough : s.stop ≤ i + n) (none : (Markdown.scanFrom s path mode start n l i).2.2 = .none) :
    s.stop ≤ (Markdown.scanFrom s path mode start n l i).2.1 := by
  induction n generalizing l i with
  | zero => exact enough
  | succ n ih =>
    rcases s.seen i with ⟨here, -⟩ | ⟨here, -, -, -⟩ | @⟨c, here, -, -, feed, plain⟩
    · rw [scanFrom_of_end here]
      exact Source.char?_eq_none.1 here
    · rw [scanFrom_of_feed here, if_neg text] at none
      exact absurd none (LineScan.finish_ne_none _ _ _)
    · have plain := isLineEnd_of_ne feed plain
      rw [scanFrom_of_char here plain] at none ⊢
      cases read : l.step s mode i c with
      | none => exact absurd read (LineScan.step_ne_none (.inl text))
      | some r =>
        obtain ⟨lt, same, held⟩ := h.step line here plain read
        rw [read] at none
        exact ih held same (by omega) none

theorem lineEnd?_of_isAtEnd [s.IsPlain] (more : ¬ m.isAtEnd s = true) : s.lineEnd? m.place = none := by
  unfold Margin.isAtEnd at more
  rcases s.seen m.place with ⟨here, -⟩ | ⟨here, -, -, -⟩ | @⟨c, here, -, -, feed, plain⟩
  · rw [here] at more
    exact absurd rfl more
  · rw [here] at more
    exact absurd rfl more
  · rw [Source.lineEnd?, here]
    split
    next none => cases none
    next same => exact absurd (Option.some.inj same) feed
    next same => exact absurd (Option.some.inj same) plain
    next => rfl

section

variable [s.IsPlain]

theorem keepBackslash_crlf (pieces : List Piece) (ending : LineBreak) :
    keepBackslash s.crlf (pieces.map s.shiftPiece) (s.shiftBreak ending) =
      (keepBackslash s pieces ending).map s.shiftPiece := by
  cases ending with
  | hard p =>
    dsimp only [Source.shiftBreak, keepBackslash]
    rw [start_shiftPiece, Source.isAt_crlf (by decide) (by decide)]
    split
    next slash => rw [← Source.shift_add (Source.feeds_of_isAt slash (by decide)), addText_crlf]
    next => rfl
  | _ => rfl

theorem trimHeading_crlf (start : Nat) (pieces : List Piece) :
    trimHeading s.crlf (s.shift start) (pieces.map s.shiftPiece) = (trimHeading s start pieces).map s.shiftPiece := by
  cases pieces with
  | nil => rfl
  | cons p rest =>
    rw [List.map_cons, trimHeading, trimHeading, stop_shiftPiece, Source.skipBack_crlf rfl]
    rfl

theorem headingPieces_crlf (start : Nat) (pieces : List Piece) (ending : LineBreak) :
    headingPieces s.crlf (s.shift start) (pieces.map s.shiftPiece) (s.shiftBreak ending) =
      (headingPieces s start pieces ending).map s.shiftPiece := by
  cases ending with
  | hard p =>
    have kept := keepBackslash_crlf (s := s) pieces (.hard p)
    dsimp only [Source.shiftBreak, headingPieces] at kept ⊢
    rw [start_shiftPiece, Source.isAt_crlf (by decide) (by decide), kept, trimHeading_crlf]
    split <;> rfl
  | _ => exact trimHeading_crlf (s := s) start pieces

end

/-! ### Paragraphs -/

/-- What a paragraph comes to behind one of its lines, given what it comes to from the next one on. -/
def paragraphBehind (s : Source) (r : Reader) (start : Nat) (more : List Piece → Nat → Reader × Nat)
    (pieces : List Piece) (next : Nat) (ending : LineBreak) : Reader × Nat :=
  let (inside, m) := Margin.ofLine s r.path next
  let (deep, m) := m.use s 4
  let finish : Reader × Nat := (r.add (.paragraph ⟨(keepBackslash s pieces ending).reverse, next⟩), next)
  match if !deep && inside then underline? s m.place else none with
  | some (level, behind) =>
    (r.add (.heading level ⟨(headingPieces s start pieces ending).reverse, behind⟩), behind)
  | none =>
    if !deep && interrupts s r.path inside m.place then finish
    else if (m.useAll s).isAtEnd s then finish
    else more (addBreak pieces ending) (m.useAll s).place

/-- A paragraph goes on from line to line, unless its first line is the head of a table. -/
theorem paragraphFrom_succ (s : Source) (r : Reader) (start n : Nat) (pieces : List Piece) (i : Nat) :
    paragraphFrom s r start (n + 1) pieces i =
      let read := scanLine s r.path (if i = start then .mayBeTable else .plain) pieces i
      match read.2.2 with
      | .table columns => readTable s r columns i read.2.1
      | ending => paragraphBehind s r start (paragraphFrom s r start n) read.1 read.2.1 ending := by
  rw [paragraphFrom]
  generalize scanLine s r.path (if i = start then .mayBeTable else .plain) pieces i = read
  obtain ⟨pieces, next, ending⟩ := read
  cases ending <;> rfl

theorem le_of_underline? {read : Nat × Nat} (found : underline? s i = some read) : i ≤ read.2 := by
  unfold underline? at found
  split at found
  · split at found
    · obtain ⟨behind, blank, rfl⟩ := Option.map_eq_some_iff.1 found
      exact Nat.le_trans (s.le_skip _ i) (Source.le_of_blankLine? blank)
    · cases found
  · cases found

theorem lt_of_rule? (read : rule? s i = some j) : i < j := by
  unfold rule? at read
  split at read
  next c here =>
    split at read
    next =>
      have signs := Option.ite_none_right_eq_some.1 read
      have low : i < s.skip (fun d => d = c || d = ' ' || d = '\t') i := by
        rw [Source.skip_eq, here, Option.any_some, if_pos (by simp)]
        exact s.le_skip _ (i + 1)
      exact Nat.lt_of_lt_of_le low (Source.le_of_lineEnd? signs.2)
    next => cases read
  next => cases read

/-! ### Where HTML ends -/

/-- The text that ends an HTML block stands in one line. -/
theorem htmlBlockEnd?_plain {text : List Char} (read : htmlBlockEnd? s i = some text) :
    text ≠ [] ∧ '\n' ∉ text ∧ '\r' ∉ text := by
  unfold htmlBlockEnd? at read
  dsimp only at read
  split at read
  next name found =>
    obtain rfl := Option.some.inj read
    obtain ⟨feed, plain⟩ := rawElements_plain name (List.mem_of_find?_eq_some found)
    exact ⟨nofun, by simpa using feed, by simpa using plain⟩
  next =>
    repeat' split at read
    all_goals cases read
    all_goals decide

theorem of_htmlStart? {ending : Option (List Char)} (read : htmlStart? s i = some ending) :
    i < s.stop ∧ ∀ text ∈ ending, text ≠ [] ∧ '\n' ∉ text ∧ '\r' ∉ text := by
  unfold htmlStart? at read
  split at read
  next angle =>
    refine ⟨Source.lt_stop (of_decide_eq_true angle), ?_⟩
    split at read
    next text found =>
      obtain rfl := Option.some.inj read
      intro text' h
      obtain rfl := Option.some.inj h
      exact htmlBlockEnd?_plain found
    next =>
      split at read
      · obtain rfl := Option.some.inj read
        exact nofun
      · cases read
  next => cases read

/-! ### The same paragraphs -/

variable [s.IsPlain]

theorem paragraphBehind_crlf (start : Nat) (h : r.Holds s.HasBlock) (lt : i < j) (held : s.HasPieces b pieces)
    (break' : s.HasBreak b j ending) (table : ∀ columns, ending ≠ .table columns)
    (last : ending = .none → s.stop ≤ j) {more more' : List Piece → Nat → Reader × Nat}
    (further : ∀ {pieces k}, j ≤ k → s.lineEnd? k = none → s.HasPieces (s.feeds k) pieces →
      s.IsRead i (more pieces k) (more' (pieces.map s.shiftPiece) (s.shift k))) :
    s.IsRead i (paragraphBehind s r start more pieces j ending)
      (paragraphBehind s.crlf (s.shiftReader r) (s.shift start) more' (pieces.map s.shiftPiece) (s.shift j)
        (s.shiftBreak ending)) := by
  have low := Margin.le_place_ofLine (s := s) r.path j
  have line := Margin.feeds_ofLine (s := s) r.path j
  unfold paragraphBehind
  rw [Reader.path_shiftReader, Margin.ofLine_crlf]
  generalize Margin.ofLine s r.path j = read at low line ⊢
  obtain ⟨inside, m⟩ := read
  have low := Nat.le_trans low (Margin.le_place_use (s := s) 4 m)
  have line : s.feeds (m.use s 4).2.place = s.feeds j := (Margin.feeds_useUpTo 4 m).trans line
  dsimp only
  rw [Margin.use_crlf]
  generalize m.use s 4 = read at low line ⊢
  obtain ⟨deep, m⟩ := read
  have heading : (if (!deep && inside) = true then underline? s.crlf (s.shift m.place) else none) =
      (if (!deep && inside) = true then underline? s m.place else none).map fun r => (r.1, s.shift r.2) := by
    rw [underline?_crlf]
    split <;> rfl
  dsimp only at low line ⊢
  rw [place_shiftMargin, heading, interrupts_crlf, Margin.useAll_crlf, Margin.isAtEnd_crlf, place_shiftMargin,
    keepBackslash_crlf, headingPieces_crlf, addBreak_crlf, hasRow_shiftLeaf]
  have finish : s.IsRead i (r.add (.paragraph ⟨(keepBackslash s pieces ending).reverse, j⟩), j)
      ((s.shiftReader r).add (.paragraph (s.shiftLeaf ⟨(keepBackslash s pieces ending).reverse, j⟩)), s.shift j) :=
    .add h (.paragraph (held.keepBackslash break').hasRow) rfl lt
  cases found : (if (!deep && inside) = true then underline? s m.place else none) with
  | some underline =>
    obtain ⟨level, behind⟩ := underline
    have stop := le_of_underline? (Option.ite_none_right_eq_some.1 found).2
    dsimp only [Option.map_some]
    rw [hasRow_shiftLeaf]
    exact .add h (.heading level (held.headingPieces break' start).hasRow) rfl (by omega)
  | none =>
    dsimp only [Option.map_none]
    split
    · exact finish
    · split
      · exact finish
      next more =>
        have place := lineEnd?_of_isAtEnd more
        have low : j ≤ (m.useAll s).place := Nat.le_trans low (Margin.le_place_useAll m)
        have some : ending ≠ .none := fun none =>
          absurd (Nat.le_trans (last none) low) (Nat.not_le.2 (Source.lt_stop_of_lineEnd? place))
        refine further low place ?_
        rw [Margin.feeds_useAll, line]
        exact held.addBreak break' some table

/-- **A paragraph is read as before**, from a place on where there is something in its line. -/
theorem paragraphFrom_crlf (h : r.Holds s.HasBlock) (line : s.lineEnd? i = none) (held : s.HasPieces (s.feeds i) pieces)
    (enough : s.stop ≤ i + n) (enough' : s.crlf.stop ≤ s.shift i + n') :
    s.IsRead i (paragraphFrom s r start n pieces i)
      (paragraphFrom s.crlf (s.shiftReader r) (s.shift start) n' (pieces.map s.shiftPiece) (s.shift i)) := by
  induction n generalizing n' pieces i with
  | zero => exact absurd enough (Nat.not_le.2 (Source.lt_stop_of_lineEnd? line))
  | succ n ih =>
    obtain ⟨c, here, feed⟩ := Source.exists_of_lineEnd? line
    have inside := (Source.shift_lt_iff (s := s)).2 (Source.lt_stop here)
    obtain ⟨n', rfl⟩ : ∃ m, n' = m + 1 := ⟨n' - 1, by rw [Source.stop_crlf] at enough'; omega⟩
    rw [paragraphFrom_succ, paragraphFrom_succ, Reader.path_shiftReader]
    simp only [Source.shift_inj]
    have text : (if i = start then LineMode.mayBeTable else .plain) ≠ .cell := by split <;> simp
    generalize (if i = start then LineMode.mayBeTable else .plain) = mode at text ⊢
    have lt : i < (scanLine s r.path mode pieces i).2.1 := lt_scanLine held here feed (.inl text)
    have line' : s.HasRead (s.feeds i) i (scanLine s r.path mode pieces i) :=
      held.scanLine (Source.front_of_lineEnd? line)
    have last : (scanLine s r.path mode pieces i).2.2 = .none → s.stop ≤ (scanLine s r.path mode pieces i).2.1 :=
      (LineScan.isIn_start held).stop_le_scanFrom rfl text i (by omega)
    rw [scanLine_crlf held]
    generalize scanLine s r.path mode pieces i = read at lt line' last ⊢
    obtain ⟨pieces', next, ending⟩ := read
    dsimp only [Source.shiftRead] at lt line' last ⊢
    have further {pieces : List Piece} {k : Nat} (low : next ≤ k) (line : s.lineEnd? k = none)
        (held : s.HasPieces (s.feeds k) pieces) : s.IsRead i (paragraphFrom s r start n pieces k)
          (paragraphFrom s.crlf (s.shiftReader r) (s.shift start) n' (pieces.map s.shiftPiece) (s.shift k)) := by
      have lt := Nat.lt_of_lt_of_le lt low
      have lt' := (Source.shift_lt_iff (s := s)).2 lt
      exact (ih line held (by omega) (by omega)).mono (Nat.le_of_lt lt)
    have behind (table : ∀ columns, ending ≠ .table columns) :=
      paragraphBehind_crlf start h lt line'.pieces line'.ending table last further
    cases ending with
    | table columns => exact readTable_crlf h lt columns
    | _ => exact behind (by simp)

/-! ### The same code and HTML -/

theorem readFenced_crlf (h : r.Holds s.HasBlock) {f : Fence} (read : fence? s i = some f) (indent : Nat) :
    s.IsRead i (readFenced s r f indent i) (readFenced s.crlf (s.shiftReader r) f indent (s.shift i)) := by
  obtain ⟨⟨feed, plain⟩, signs, three⟩ := of_fence? read
  have behind : s.shift i + f.length = s.shift (i + f.length) :=
    (Source.shift_add (by rw [signs, Source.feeds_skipRun feed])).symm
  have first : i < s.nextLine (s.skipBlanks (i + f.length)) := Nat.lt_of_lt_of_le (show i < i + f.length by omega)
    (Nat.le_trans (s.le_skip _ _) (le_nextLine s _))
  unfold readFenced
  dsimp only
  rw [behind, Source.skipBlanks_crlf, Source.nextLine_crlf, Reader.path_shiftReader]
  generalize s.nextLine (s.skipBlanks (i + f.length)) = first' at first ⊢
  have lt' := (Source.shift_lt_iff (s := s)).2 first
  obtain ⟨code, stop⟩ := fencedFrom_crlf r.path feed plain indent (.nil s)
    (show s.stop ≤ first' + (s.stop + 1 - i) by omega)
    (show s.crlf.stop ≤ s.shift first' + (s.crlf.stop + 1 - s.shift i) by omega)
  have low := le_fencedFrom (s := s) r.path f indent (s.stop + 1 - i) ⟨[], none⟩ first'
  generalize fencedFrom s r.path f indent (s.stop + 1 - i) ⟨[], none⟩ first' = q at code stop low ⊢
  generalize fencedFrom s.crlf r.path f indent (s.crlf.stop + 1 - s.shift i) ⟨[], none⟩ (s.shift first') = q'
    at code stop ⊢
  have next : (s.crlf.blankLine? q'.2).getD q'.2 = s.shift ((s.blankLine? q.2).getD q.2) := by
    rw [stop, Source.blankLine?_crlf]
    cases s.blankLine? q.2 <;> rfl
  have further : q.2 ≤ (s.blankLine? q.2).getD q.2 := by
    cases blank : s.blankLine? q.2 with
    | none => exact Nat.le_refl _
    | some behind => exact Source.le_of_blankLine? blank
  rw [next]
  exact .add h (.code _) (congrArg Block.code code.finish) (Nat.lt_of_lt_of_le first (Nat.le_trans low further))

theorem readIndented_crlf (h : r.Holds s.HasBlock) (inside : m.place < s.stop) :
    s.IsRead m.place (readIndented s r m) (readIndented s.crlf (s.shiftReader r) (s.shiftMargin m)) := by
  obtain ⟨code, stop, last⟩ := indentedFrom_crlf r.path false inside (.nil s) (.nil s) m.left
    (show s.stop ≤ m.place + (s.stop + 1 - m.place) by omega)
    (show s.crlf.stop ≤ s.shift m.place + (s.crlf.stop + 1 - s.shift m.place) by omega)
  have low : s.nextLine m.place ≤ (indentedFrom s r.path (s.stop + 1 - m.place) ⟨[], none⟩ ⟨[], none⟩ false m.left
      m.place).2.1 := by
    rw [show s.stop + 1 - m.place = s.stop - m.place + 1 by omega]
    exact nextLine_le_indentedFrom ..
  have lt := Nat.lt_of_lt_of_le (Source.lt_nextLine inside) low
  unfold readIndented
  rw [place_shiftMargin, left_shiftMargin, Reader.path_shiftReader]
  generalize indentedFrom s r.path _ _ _ _ _ m.place = q at code stop last lt ⊢
  generalize indentedFrom s.crlf r.path _ _ _ _ _ (s.shift m.place) = q' at code stop last ⊢
  have added : s.IsRead m.place (r.add (.code (q.1.finish s)), q.2.1)
      ((s.shiftReader r).add (.code (q'.1.finish s.crlf)), s.shift q.2.1) :=
    .add h (.code _) (congrArg Block.code code.finish) lt
  dsimp only
  rw [stop, last]
  exact ⟨⟨added.holds.frames, added.holds.done⟩, lt,
    congrArg (fun p : Reader × Nat => ({ p.1 with blank := q.2.2 }, p.2)) added.shift⟩

theorem htmlStart?_crlf (i : Nat) : htmlStart? s.crlf (s.shift i) = htmlStart? s i := by
  unfold htmlStart?
  rw [Source.isAt_crlf (by decide) (by decide)]
  split
  next angle =>
    rw [← Source.shift_add (Source.feeds_of_isAt angle (by decide)), htmlBlockEnd?_crlf, isBlockElement_crlf,
      isLoneTag_crlf i angle]
  next => rfl

theorem readHtml_crlf (h : r.Holds s.HasBlock) {ending : Option (List Char)} (read : htmlStart? s i = some ending)
    (columns : Nat) :
    s.IsRead i (readHtml s r ending columns i) (readHtml s.crlf (s.shiftReader r) ending columns (s.shift i)) := by
  obtain ⟨inside, plain⟩ := of_htmlStart? read
  have parts : htmlFrom s.crlf r.path ending (s.crlf.stop + 1 - s.shift i) [] columns (s.shift i) =
      ((htmlFrom s r.path ending (s.stop + 1 - i) [] columns i).1.flatMap HtmlPart.recut,
        s.shift (htmlFrom s r.path ending (s.stop + 1 - i) [] columns i).2) :=
    htmlFrom_crlf plain [] inside columns (by omega) (by omega)
  have low : s.nextLine i ≤ (htmlFrom s r.path ending (s.stop + 1 - i) [] columns i).2 := by
    rw [show s.stop + 1 - i = s.stop - i + 1 by omega]
    exact nextLine_le_htmlFrom ..
  unfold readHtml
  rw [Reader.path_shiftReader, parts]
  exact .add h (.html (isPlain_of_mem_htmlFrom (List.forall_mem_nil _) _ _ _)) rfl
    (Nat.lt_of_lt_of_le (Source.lt_nextLine inside) low)

/-! ### What a line holds -/

/-- **Whatever stands in a line behind its margin is read as before.** -/
theorem readLeaf_crlf (h : r.Holds s.HasBlock) (labels : s.HasPlainLabels) (text : s.blankLine? m.place = none) :
    s.IsRead m.place (readLeaf s r m) (readLeaf s.crlf (s.shiftReader r) (s.shiftMargin m)) := by
  have low := Margin.le_place_useUpTo (s := s) 4 m
  have text : s.blankLine? (m.useUpTo s 4).2.place = none := (Margin.blankLine?_useUpTo 4 m).trans text
  unfold readLeaf
  rw [Margin.useUpTo_crlf, left_shiftMargin, Reader.path_shiftReader]
  generalize m.useUpTo s 4 = used at low text ⊢
  obtain ⟨indent, m'⟩ := used
  have line := Source.lineEnd?_of_blankLine? text
  have inside := Source.lt_stop_of_lineEnd? line
  dsimp only at low line inside ⊢
  refine Source.IsRead.mono ?_ low
  split
  · exact readIndented_crlf h inside
  · rw [place_shiftMargin, htmlStart?_crlf, rule?_crlf, headingLevel?_crlf, definition?_crlf labels, fence?_crlf]
    cases html : htmlStart? s m'.place with
    | some ending => exact readHtml_crlf h html _
    | none =>
      cases rule : rule? s m'.place with
      | some behind => exact .add h .rule rfl (lt_of_rule? rule)
      | none =>
        cases heading : headingLevel? s m'.place with
        | some level => exact readHeading_crlf h heading
        | none =>
          cases found : definition? s r.path m'.place with
          | some definition =>
            obtain ⟨label, behind⟩ := definition
            have next : (s.crlf.blankLine? (s.shift behind)).getD (s.shift behind) =
                s.shift ((s.blankLine? behind).getD behind) := by
              rw [Source.blankLine?_crlf]
              cases s.blankLine? behind <;> rfl
            have further : behind ≤ (s.blankLine? behind).getD behind := by
              cases blank : s.blankLine? behind with
              | none => exact Nat.le_refl _
              | some next => exact Source.le_of_blankLine? blank
            dsimp only [Option.map_none, Option.map_some]
            rw [next]
            exact ⟨⟨h.frames, h.done⟩, Nat.lt_of_lt_of_le (lt_of_definition? found) further, rfl⟩
          | none =>
            cases found : fence? s m'.place with
            | some f => exact readFenced_crlf h found indent
            | none => exact paragraphFrom_crlf h line (.nil _) (by omega) (by omega)

end PublisherConsole.Markdown
