import PublisherConsole.Proofs.Markdown.LineEnds.Links
import PublisherConsole.Markdown.Interrupt

/-!
# What ends a paragraph, with carriage returns

Whether a line begins a block of its own is told from the line, and for an item or a table from the line
below: it does not depend on how the lines end (`interrupts_crlf`). The row below the head of a table ends
where it has ended (`delimiterRow?_crlf`).
-/

namespace PublisherConsole.Markdown

variable {s : Source} {i j n n' : Nat} {c : Char} {path : List Container}

variable [s.IsPlain]

namespace Source

theorem all_crlf {p : Char → Bool} (same : p '\r' = p '\n') :
    (s.crlf.char? (s.shift i)).all p = (s.char? i).all p := by
  rcases s.seen i with ⟨here, there⟩ | ⟨here, there, -, -⟩ | ⟨here, there, -, -, -⟩ <;>
    simp [here, there, same]

end Source

/-! ### Lines that begin a block -/

@[simp] theorem headingLevel?_crlf (i : Nat) : headingLevel? s.crlf (s.shift i) = headingLevel? s i := by
  unfold headingLevel?
  dsimp only
  rw [Source.skipRun_crlf (by decide) (by decide), Source.shift_sub (Source.feeds_skipRun (by decide) _).symm,
    Source.all_crlf rfl]

@[simp] theorem underline?_crlf (i : Nat) :
    underline? s.crlf (s.shift i) = (underline? s i).map fun r => (r.1, s.shift r.2) := by
  unfold underline?
  rcases s.seen i with ⟨here, there⟩ | ⟨here, there, -, -⟩ | @⟨c, here, there, -, feed, plain⟩
  · rw [here, there]
    rfl
  · rw [here, there]
    rfl
  · rw [here, there]
    dsimp only
    rw [Source.skipRun_crlf feed plain, Source.blankLine?_crlf]
    split
    · cases s.blankLine? (s.skipRun c i) <;> rfl
    · rfl

theorem contains_withReturns (feed : c ≠ '\n') (plain : c ≠ '\r') (cs : List Char) :
    (withReturns cs).contains c = cs.contains c := by
  induction cs with
  | nil => rfl
  | cons d cs ih =>
    rw [withReturns_cons, List.contains_cons, ← ih]
    by_cases end' : d = '\n'
    · simp [end', feed, plain]
    · rw [if_neg end']
      rfl

@[simp] theorem fence?_crlf (i : Nat) : fence? s.crlf (s.shift i) = fence? s i := by
  unfold fence?
  rcases s.seen i with ⟨here, there⟩ | ⟨here, there, -, -⟩ | @⟨c, here, there, -, feed, plain⟩
  · rw [here, there]
  · rw [here, there]
    rfl
  · rw [here, there]
    dsimp only
    rw [Source.skipRun_crlf feed plain, Source.shift_sub (Source.feeds_skipRun feed _).symm,
      Source.nextLine_crlf, Source.slice_crlf, contains_withReturns (by decide) (by decide)]

theorem closingFence?_crlf {f : Fence} (feed : f.sign ≠ '\n') (plain : f.sign ≠ '\r') (i : Nat) :
    closingFence? s.crlf f (s.shift i) = (closingFence? s f i).map s.shift := by
  unfold closingFence?
  dsimp only
  rw [Source.isEnd_crlf, Source.skipRun_crlf feed plain, Source.shift_sub (Source.feeds_skipRun feed _).symm,
    Source.skipRun_crlf (by decide) (by decide), Source.lineEnd?_crlf]
  split
  · rfl
  · split
    · rfl
    · cases s.lineEnd? (s.skipRun ' ' (s.skipRun f.sign i)) <;> rfl

/-- The marker of an item whose sign stands in front of a place. -/
def itemBehind? (s : Source) (sign : Char) (number behind : Nat) : Option (Char × Nat × Nat) :=
  match s.char? behind with
  | none => some (sign, number, behind)
  | some d => if d = ' ' || d = '\t' || isLineEnd d then some (sign, number, behind) else none

theorem itemBehind?_crlf (sign : Char) (number behind : Nat) : itemBehind? s.crlf sign number (s.shift behind) =
    (itemBehind? s sign number behind).map fun r => (r.1, r.2.1, s.shift r.2.2) := by
  unfold itemBehind?
  rcases s.seen behind with ⟨here, there⟩ | ⟨here, there, -, -⟩ | ⟨here, there, -, -, -⟩
  · rw [here, there]
    rfl
  · rw [here, there]
    rfl
  · rw [here, there]
    dsimp only
    split <;> rfl

@[simp] theorem itemStart?_crlf (i : Nat) : itemStart? s.crlf (s.shift i) =
    (itemStart? s i).map fun r => (r.1, r.2.1, s.shift r.2.2) := by
  unfold itemStart?
  rcases s.seen i with ⟨here, there⟩ | ⟨here, there, -, -⟩ | @⟨c, here, there, -, feed, -⟩
  · rw [here, there]
    rfl
  · have none : s.decimal 9 i = (0, i) := by
      rw [Source.decimal, Source.skipUpTo, here, Option.any_some, if_neg (by decide),
        Source.slice_of_le (Nat.le_refl i)]
      rfl
    rw [here, there]
    dsimp only
    rw [if_neg (by decide), if_neg (by decide), Source.decimal_crlf, none]
    dsimp only
    rw [here, there]
    rfl
  · rw [here, there]
    cases bullet : isBullet c with
    | true =>
      simp only [bullet, if_true]
      rw [← Source.shift_add (Source.feeds_of_char here feed)]
      exact itemBehind?_crlf (s := s) c 0 (i + 1)
    | false =>
      simp only [bullet, Bool.false_eq_true, if_false]
      rw [Source.decimal_crlf]
      generalize s.decimal 9 i = read
      obtain ⟨number, stop⟩ := read
      dsimp only
      rcases s.seen stop with ⟨here, there⟩ | ⟨here, there, -, -⟩ | @⟨d, here, there, -, feed, -⟩
      · rw [here, there]
        rfl
      · rw [here, there]
        rfl
      · rw [here, there, ← Source.shift_add (Source.feeds_of_char here feed), Option.filter_some]
        cases isOrderedSign d with
        | false => rfl
        | true => exact itemBehind?_crlf (s := s) d number (stop + 1)

@[simp] theorem isEmptyItem_crlf (i : Nat) : isEmptyItem s.crlf (s.shift i) = isEmptyItem s i := by
  rw [isEmptyItem, isEmptyItem, Source.blankLine?_crlf]
  cases s.blankLine? i with
  | none => rfl
  | some next => simp

@[simp] theorem startsBlock_crlf (inside : Bool) (i : Nat) :
    startsBlock s.crlf inside (s.shift i) = startsBlock s inside i := by
  have html : (s.crlf.isAt (s.shift i) '<' && ((htmlBlockEnd? s.crlf (s.shift i + 1)).isSome ||
      isBlockElement s.crlf (s.shift i + 1))) =
        (s.isAt i '<' && ((htmlBlockEnd? s (i + 1)).isSome || isBlockElement s (i + 1))) := by
    rw [Source.isAt_crlf (by decide) (by decide)]
    cases angle : s.isAt i '<' with
    | false => rfl
    | true =>
      rw [← Source.shift_add (Source.feeds_of_isAt angle (by decide)), htmlBlockEnd?_crlf, isBlockElement_crlf]
  unfold startsBlock
  rw [html, Source.lineEnd?_crlf, rule?_crlf, headingLevel?_crlf, fence?_crlf, Source.isAt_crlf (by decide) (by decide),
    Option.isSome_map, Option.isSome_map, itemStart?_crlf]
  cases itemStart? s i with
  | none => rfl
  | some r => simp

/-! ### Tables -/

theorem delimiterColumns_crlf {columns : Nat} {fresh dashed sawDash sawBar : Bool} (inside : i ≤ s.stop)
    (enough : s.stop < i + n) (enough' : s.crlf.stop < s.shift i + n') :
    delimiterColumns s.crlf n' (s.shift i) columns fresh dashed sawDash sawBar =
      (delimiterColumns s n i columns fresh dashed sawDash sawBar).map fun r => (r.1, s.shift r.2) := by
  induction n generalizing n' i columns fresh dashed sawDash sawBar with
  | zero => omega
  | succ n ih =>
    have low := (Source.shift_le_iff (s := s)).2 inside
    obtain ⟨n', rfl⟩ : ∃ m, n' = m + 1 := ⟨n' - 1, by rw [Source.stop_crlf] at enough'; omega⟩
    rw [delimiterColumns, delimiterColumns, Source.lineEnd?_crlf]
    cases ended : s.lineEnd? i with
    | some behind =>
      dsimp only [Option.map_some]
      split <;> rfl
    | none =>
      rcases s.seen i with ⟨here, -⟩ | ⟨here, -, -, -⟩ | @⟨c, here, there, behind, feed, -⟩
      · rw [Source.lineEnd?, here] at ended
        cases ended
      · rw [Source.lineEnd?, here] at ended
        cases ended
      · have left : s.stop < i + 1 + n := by omega
        have left' : s.crlf.stop < s.shift (i + 1) + n' := by omega
        rw [here, there, Option.map_none, ← behind]
        dsimp only
        split
        · exact ih (Source.lt_stop here) left left'
        · exact ih (Source.lt_stop here) left left'
        · exact ih (Source.lt_stop here) left left'
        · split
          · exact ih (Source.lt_stop here) left left'
          · rfl
        · rfl

@[simp] theorem delimiterRow?_crlf (i : Nat) :
    delimiterRow? s.crlf (s.shift i) = (delimiterRow? s i).map fun r => (r.1, s.shift r.2) := by
  unfold delimiterRow?
  rw [start_shift, Margin.useUpTo_crlf]
  obtain ⟨columns, m⟩ := (Margin.start i).useUpTo s 4
  dsimp only
  rw [place_shiftMargin, Source.isEnd_crlf, Source.isAt_crlf (by decide) (by decide)]
  split
  · rfl
  next some =>
    have inside : m.place < s.stop := by
      simp only [Source.isEnd, Bool.or_eq_true, decide_eq_true_eq, not_or, Nat.not_le] at some
      exact some.2
    have low := (Source.shift_lt_iff (s := s)).2 inside
    have stop := Source.stop_crlf s
    cases bar : s.isAt m.place '|' with
    | true =>
      have next := Source.shift_add (Source.feeds_of_isAt bar (by decide))
      rw [if_pos rfl, if_pos rfl, ← next]
      exact delimiterColumns_crlf inside (by omega) (by omega)
    | false => exact delimiterColumns_crlf (Nat.le_of_lt inside) (by omega) (by omega)

theorem headColumns_crlf {lastBar : Nat} (bar : s.feeds (lastBar + 1) = s.feeds lastBar) (bars start : Nat) :
    headColumns s.crlf bars (s.shift start) (s.shift lastBar) = headColumns s bars start lastBar := by
  unfold headColumns
  rw [Source.skipBlanks_crlf, Source.isAt_crlf (by decide) (by decide), ← Source.shift_add bar,
    Source.blankLine?_crlf, Option.isSome_map]

section

omit [s.IsPlain]

theorem lineBars_of_end (here : s.char? i = none) (n : Nat) (escaped : Bool) (bars last : Nat) :
    lineBars s n i escaped bars last = (bars, last, none) := by
  cases n with
  | zero => rfl
  | succ n => rw [lineBars, here]

/-- The last bar of a line is a character of it. -/
theorem feeds_lineBars {escaped : Bool} {bars last : Nat} (bar : s.feeds (last + 1) = s.feeds last) :
    s.feeds ((lineBars s n i escaped bars last).2.1 + 1) = s.feeds (lineBars s n i escaped bars last).2.1 := by
  fun_induction lineBars s n i escaped bars last with
  | case1 => exact bar
  | case2 => exact bar
  | case3 => exact bar
  | case4 _ _ _ _ _ _ _ ih => exact ih bar
  | case5 _ _ _ _ _ c here _ _ sign ih =>
    exact ih (Source.feeds_of_char here (by rintro rfl; simp at sign))
  | case6 _ _ _ _ _ _ _ _ _ _ ih => exact ih bar

end

theorem lineBars_crlf {escaped : Bool} {bars last : Nat} (enough : s.stop ≤ i + n)
    (enough' : s.crlf.stop ≤ s.shift i + n') : lineBars s.crlf n' (s.shift i) escaped bars (s.shift last) =
      ((lineBars s n i escaped bars last).1, s.shift (lineBars s n i escaped bars last).2.1,
        (lineBars s n i escaped bars last).2.2.map s.shift) := by
  induction n generalizing n' i escaped bars last with
  | zero =>
    have here : s.char? i = none := Source.char?_eq_none.2 enough
    rw [lineBars_of_end here, lineBars_of_end (Source.char?_crlf_eq_none here)]
    rfl
  | succ n ih =>
    rcases s.seen i with ⟨here, there⟩ | ⟨here, there, -, -⟩ | @⟨c, here, there, behind, feed, plain⟩
    · rw [lineBars_of_end here, lineBars_of_end there]
      rfl
    · obtain ⟨n, n', same, rfl, -⟩ := enough_succ here enough enough'
      rw [lineBars, lineBars, here, there, Source.lineEnd?_crlf]
      rfl
    · obtain ⟨n, n', same, rfl, rest⟩ := enough_succ here enough enough'
      obtain rfl := Nat.succ.inj same
      obtain ⟨left, left'⟩ := rest _ (Nat.lt_succ_self i)
      rw [lineBars, lineBars, here, there, ← behind]
      dsimp only
      rw [isLineEnd_of_ne feed plain, if_neg Bool.false_ne_true, if_neg Bool.false_ne_true]
      split
      · exact ih left left'
      · split
        · exact ih left left'
        · exact ih left left'

theorem startsTable_crlf (path : List Container) (line : s.lineEnd? i = none) :
    startsTable s.crlf path (s.shift i) = startsTable s path i := by
  have first : s.feeds (i + 1) = s.feeds i := by
    rcases s.seen i with ⟨here, -⟩ | ⟨here, -, -, -⟩ | @⟨c, here, -, -, feed, -⟩
    · rw [Source.lineEnd?, here] at line
      cases line
    · rw [Source.lineEnd?, here] at line
      cases line
    · exact Source.feeds_of_char here feed
  unfold startsTable
  have bar : s.feeds ((lineBars s (s.stop - i) i false 0 i).2.1 + 1) =
      s.feeds (lineBars s (s.stop - i) i false 0 i).2.1 := feeds_lineBars first
  rw [lineBars_crlf (n := s.stop - i) (by omega) (by omega)]
  generalize lineBars s (s.stop - i) i false 0 i = read at bar ⊢
  obtain ⟨bars, last, next⟩ := read
  dsimp only at bar ⊢
  cases next with
  | none => rfl
  | some next =>
    dsimp only [Option.map_some]
    rw [Margin.ofLine_crlf]
    dsimp only
    rw [place_shiftMargin, delimiterRow?_crlf, headColumns_crlf bar]
    cases delimiterRow? s (Margin.ofLine s path next).2.place <;> rfl

@[simp] theorem interrupts_crlf (path : List Container) (inside : Bool) (i : Nat) :
    interrupts s.crlf path inside (s.shift i) = interrupts s path inside i := by
  rw [interrupts, interrupts, startsBlock_crlf]
  cases starts : startsBlock s inside i with
  | true => rfl
  | false =>
    have line : s.lineEnd? i = none := by
      simp only [startsBlock, Bool.or_eq_false_iff, Option.isSome_eq_false_iff, Option.isNone_iff_eq_none] at starts
      exact starts.1.1.1.1.1.1
    rw [startsTable_crlf path line]

end PublisherConsole.Markdown
