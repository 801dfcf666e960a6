import PublisherConsole.Proofs.Markdown.LineEnds.Shift
import PublisherConsole.Markdown.Margin

/-!
# Margins in a text with carriage returns

A margin stands in one line, so that the columns in it are counted as before: its place comes to stand
where `Source.shift` says, and the place from which columns are counted goes as far
(`Source.shiftMargin`). Reading a margin, the marker of an item or the box of a task gives the same there.

What a margin takes of a line are blanks and signs of quotes, one by one, so that whatever each of them
keeps holds behind it (`Margin.Kept.ofLine`). Reading a margin never goes back (`Margin.le_place_ofLine`),
and at the end of a source it stays there (`Margin.ofLine_of_le`).
-/

namespace PublisherConsole.Markdown

variable {s : Source} {i j n : Nat} {m : Margin} {path : List Container}

/-- Where the reading of a margin comes to stand. -/
def Source.shiftMargin (s : Source) (m : Margin) : Margin :=
  ⟨s.shift m.place, m.origin + s.feeds m.place, m.left⟩

@[simp] theorem place_shiftMargin : (s.shiftMargin m).place = s.shift m.place := rfl

@[simp] theorem left_shiftMargin : (s.shiftMargin m).left = m.left := rfl

@[simp] theorem start_shift : Margin.start (s.shift i) = s.shiftMargin (Margin.start i) := rfl

/-- A margin that goes on in its line. -/
theorem shiftMargin_of_feeds (h : s.feeds j = s.feeds m.place) (k : Nat) :
    s.shiftMargin { m with place := j, left := k } =
      { s.shiftMargin m with place := s.shift j, left := k } := by
  rw [Source.shiftMargin, Source.shiftMargin, h]

/-- Behind a sign the margin goes on in its line. -/
theorem shiftMargin_succ {c : Char} (here : s.char? m.place = some c) (feed : c ≠ '\n') :
    { s.shiftMargin m with place := s.shift m.place + 1 } = s.shiftMargin { m with place := m.place + 1 } := by
  have next := Source.feeds_of_char here feed
  rw [shiftMargin_of_feeds next, Source.shift_add next]
  rfl

/-! ### What reading a margin keeps -/

namespace Margin

/-- Whether a character may stand in a margin. -/
def isSign (c : Char) : Bool := c = ' ' || c = '\t' || c = '>'

/-- A property of margins is kept by reading on: by using up columns of a tab, and by passing over a sign. -/
structure Kept (s : Source) (P : Margin → Prop) : Prop where
  used {m : Margin} {k : Nat} (h : P m) (fewer : k ≤ m.left) : P { m with left := k }
  next {m : Margin} {c : Char} (h : P m) (here : s.char? m.place = some c) (sign : isSign c = true)
    {origin left : Nat} (few : left ≤ max m.left 3) : P ⟨m.place + 1, origin, left⟩

namespace Kept

variable {P : Margin → Prop}

theorem useColumns (kept : Kept s P) (fuel n : Nat) (h : P m) : P (useColumns s fuel n m).2 := by
  fun_induction Margin.useColumns s fuel n m with
  | case1 => exact h
  | case2 => exact h
  | case3 _ _ _ _ here ih => exact ih (kept.next h here rfl (Nat.le_max_left _ _))
  | case4 _ _ m _ here wide used ih =>
    have few : wide - used ≤ max m.left 3 := by omega
    exact ih (kept.next h here rfl few)
  | case5 => exact h

theorem useUpTo (kept : Kept s P) (n : Nat) (h : P m) : P (m.useUpTo s n).2 :=
  kept.useColumns _ _ (kept.used h (Nat.sub_le _ _))

theorem container? (kept : Kept s P) {c : Container} {m' : Margin} (h : P m)
    (read : m.container? s c = some m') : P m' := by
  cases c with
  | quote =>
    unfold Margin.container? quote? at read
    dsimp only at read
    split at read
    next sign =>
      obtain rfl := Option.some.inj read
      refine kept.useUpTo 1 ?_
      exact kept.next (kept.useUpTo 3 h) (of_decide_eq_true sign) rfl (Nat.le_max_left _ _)
    next => cases read
  | item indent =>
    unfold Margin.container? at read
    dsimp only at read
    split at read
    · obtain rfl := Option.some.inj read
      exact kept.useUpTo indent h
    · cases read

theorem containers (kept : Kept s P) (path : List Container) (h : P m) : P (containers s path m).2 := by
  induction path generalizing m with
  | nil => exact h
  | cons c path ih =>
    rw [Margin.containers]
    cases read : m.container? s c with
    | none => exact h
    | some m' => exact ih (kept.container? h read)

/-- **What is kept holds behind the margin of a line** if it holds where the line starts. -/
theorem ofLine (kept : Kept s P) (path : List Container) (h : P (start i)) : P (ofLine s path i).2 :=
  kept.containers path h

end Kept

/-! ### Going on -/

theorem kept_le (i : Nat) : Kept s fun m => i ≤ m.place where
  used h _ := h
  next h _ _ _ _ _ := Nat.le_succ_of_le h

theorem le_place_useUpTo (n : Nat) (m : Margin) : m.place ≤ (m.useUpTo s n).2.place :=
  (kept_le m.place).useUpTo n (Nat.le_refl _)

theorem le_place_use (n : Nat) (m : Margin) : m.place ≤ (m.use s n).2.place := le_place_useUpTo n m

theorem le_place_useAll (m : Margin) : m.place ≤ (m.useAll s).place := Source.le_skip _ _

theorem lt_place_of_quote? {m' : Margin} (read : m.quote? s = some m') : m.place < m'.place := by
  unfold quote? at read
  dsimp only at read
  split at read
  next =>
    obtain rfl := Option.some.inj read
    exact Nat.lt_of_le_of_lt (le_place_useUpTo 3 m)
      (Nat.lt_of_lt_of_le (Nat.lt_succ_self _) (le_place_use 1 { (m.useUpTo s 3).2 with place := _ }))
  next => cases read

theorem le_place_finishMarker (sign : Char) (number indent : Nat) (m : Margin) :
    m.place ≤ (m.finishMarker s sign number indent).2.place := by
  unfold finishMarker
  dsimp only
  split
  · exact Nat.le_refl _
  · split
    · exact le_place_useUpTo 4 m
    · exact Nat.le_refl _

theorem lt_place_of_listMarker? {r : ListMarker × Margin} (read : m.listMarker? s = some r) :
    m.place < r.2.place := by
  have content {i : Nat} (low : m.place < i) (m' : Margin) (sign : Char) (number indent : Nat) :
      m.place < (finishMarker s sign number indent (use s 1 { m' with place := i }).2).2.place :=
    Nat.lt_of_lt_of_le low (Nat.le_trans (le_place_use 1 { m' with place := i }) (le_place_finishMarker ..))
  have blanks := le_place_useUpTo (s := s) 4 m
  unfold listMarker? at read
  generalize m.useUpTo s 4 = used at blanks read
  obtain ⟨indent, m'⟩ := used
  dsimp only at blanks read
  split at read
  · cases read
  · split at read
    · cases read
    · split at read
      · split at read
        · cases read
        · split at read
          · obtain rfl := Option.some.inj read
            exact content (Nat.lt_succ_of_le blanks) ..
          · cases read
      · split at read
        · split at read
          · cases read
          · split at read
            · split at read
              · obtain rfl := Option.some.inj read
                exact content (Nat.lt_succ_of_le (Nat.le_trans blanks (Source.le_skipUpTo ..))) ..
              · cases read
            · cases read
        · cases read

theorem le_place_of_taskMarker? {r : Bool × Margin} (read : m.taskMarker? s = some r) :
    m.place ≤ r.2.place := by
  have blanks := le_place_useUpTo (s := s) 3 m
  unfold taskMarker? at read
  generalize m.useUpTo s 3 = used at blanks read
  obtain ⟨indent, m'⟩ := used
  dsimp only at blanks read
  have behind : m.place ≤ m'.place + 3 := Nat.le_add_right_of_le blanks
  split at read
  · split at read
    · cases read
    · split at read
      · obtain rfl := Option.some.inj read
        exact behind
      · split at read
        · obtain rfl := Option.some.inj read
          exact behind
        · cases read
  · cases read

theorem le_place_of_container? {c : Container} {m' : Margin} (read : m.container? s c = some m') :
    m.place ≤ m'.place := (kept_le m.place).container? (Nat.le_refl _) read

theorem le_place_ofLine (path : List Container) (i : Nat) : i ≤ (ofLine s path i).2.place :=
  (kept_le i).ofLine path (Nat.le_refl i)

/-! ### What stands in it -/

theorem kept_any (j : Nat) : Kept s fun m => ∀ i, j ≤ i → i < m.place → (s.char? i).any isSign = true where
  used h _ := h
  next {m c} h here sign _ _ _ i low high := by
    rcases Nat.eq_or_lt_of_le (Nat.le_of_lt_succ high) with rfl | lt
    · rwa [here]
    · exact h i low lt

/-- A margin consists of blanks and of the signs of quotes. -/
theorem any_ofLine (path : List Container) (low : j ≤ i) (high : i < (ofLine s path j).2.place) :
    (s.char? i).any isSign = true :=
  (kept_any j).ofLine path (fun _ low high => absurd low (Nat.not_le.2 high)) i low high

/-! ### Up to the end -/

theorem kept_le_stop : Kept s fun m => m.place ≤ s.stop where
  used h _ := h
  next _ here _ _ _ _ := Source.lt_stop here

theorem place_ofLine_le (path : List Container) (inside : i ≤ s.stop) : (ofLine s path i).2.place ≤ s.stop :=
  kept_le_stop.ofLine path inside

/-! ### At the end -/

theorem useColumns_of_le (end' : s.stop ≤ m.place) (fuel n : Nat) : useColumns s fuel n m = (n, m) := by
  cases fuel with
  | zero => rfl
  | succ fuel =>
    rw [useColumns]
    split
    next zero => rw [zero]
    next => rw [Source.char?, if_neg (Nat.not_lt.2 end')]

theorem useUpTo_of_le (end' : s.stop ≤ m.place) (none : m.left = 0) (n : Nat) : m.useUpTo s n = (0, m) := by
  have same : { m with left := m.left - min m.left n } = m := by rw [none, Nat.zero_sub, ← none]
  rw [useUpTo]
  dsimp only
  rw [same, useColumns_of_le end', none, Nat.zero_min, Nat.sub_zero, Nat.sub_self]

/-- At the end there is nothing to pass over, and no column to use up. -/
theorem kept_eq (end' : s.stop ≤ m.place) (none : m.left = 0) : Kept s (· = m) where
  used {m' k} h fewer := by
    subst h
    obtain rfl : k = 0 := by omega
    rw [← none]
  next h here _ _ _ _ := absurd (Source.lt_stop here) (Nat.not_lt.2 (h ▸ end'))

theorem ofLine_of_le (end' : s.stop ≤ i) (path : List Container) : (ofLine s path i).2 = start i :=
  (kept_eq end' rfl).ofLine path rfl

/-! ### In the line -/

theorem kept_feeds (b : Nat) : Kept s fun m => s.feeds m.place = b where
  used h _ := h
  next h here sign _ _ _ := (Source.feeds_of_char here (by rintro rfl; cases sign)).trans h

theorem feeds_useUpTo (n : Nat) (m : Margin) : s.feeds (m.useUpTo s n).2.place = s.feeds m.place :=
  (kept_feeds _).useUpTo n rfl

theorem feeds_useAll (m : Margin) : s.feeds (m.useAll s).place = s.feeds m.place := Source.feeds_skip rfl _

theorem feeds_ofLine (path : List Container) (i : Nat) : s.feeds (ofLine s path i).2.place = s.feeds i :=
  (kept_feeds _).ofLine path rfl

/-- The blanks behind a margin are the blanks that are left of it. -/
theorem skipBlanks_useColumns (fuel n : Nat) (m : Margin) :
    s.skipBlanks (useColumns s fuel n m).2.place = s.skipBlanks m.place := by
  have blank {i : Nat} {c : Char} (here : s.char? i = some c) (blank : isInlineBlank c = true) :
      s.skipBlanks (i + 1) = s.skipBlanks i := by
    rw [Source.skipBlanks, Source.skipBlanks, s.skip_eq isInlineBlank i, here, Option.any_some, if_pos blank]
  fun_induction useColumns s fuel n m with
  | case1 => rfl
  | case2 => rfl
  | case3 _ _ _ _ here ih => exact ih.trans (blank here rfl)
  | case4 _ _ _ _ here _ _ ih => exact ih.trans (blank here rfl)
  | case5 => rfl

theorem blankLine?_useUpTo (n : Nat) (m : Margin) :
    s.blankLine? (m.useUpTo s n).2.place = s.blankLine? m.place :=
  congrArg s.lineEnd? (skipBlanks_useColumns _ _ { m with left := m.left - min m.left n })

/-! ### Columns left over from a tab -/

theorem kept_left : Kept s fun m => m.left ≤ 3 where
  used h fewer := Nat.le_trans fewer h
  next h _ _ _ _ few := Nat.le_trans few (Nat.max_le.2 ⟨h, Nat.le_refl 3⟩)

theorem left_useUpTo_le (few : m.left ≤ 3) (n : Nat) : (m.useUpTo s n).2.left ≤ 3 := kept_left.useUpTo n few

theorem left_ofLine_le (path : List Container) (i : Nat) : (ofLine s path i).2.left ≤ 3 :=
  kept_left.ofLine path (Nat.zero_le 3)

/-- At the end of a source there are no four columns any more. -/
theorem use_of_le (end' : s.stop ≤ m.place) (few : m.left ≤ 3) : (m.use s 4).1 = false := by
  have rest := useColumns_of_le (m := { m with left := m.left - min m.left 4 }) end' (4 - min m.left 4)
    (4 - min m.left 4)
  rw [use, useUpTo]
  dsimp only
  rw [rest, decide_eq_false_iff_not]
  omega

end Margin

/-! ### The same margin -/

variable [s.IsPlain]

namespace Margin

theorem useColumns_crlf (fuel n : Nat) (m : Margin) : useColumns s.crlf fuel n (s.shiftMargin m) =
    ((useColumns s fuel n m).1, s.shiftMargin (useColumns s fuel n m).2) := by
  induction fuel generalizing n m with
  | zero => rfl
  | succ fuel ih =>
    rw [useColumns, useColumns]
    split
    · rfl
    · rw [place_shiftMargin]
      rcases s.seen m.place with ⟨here, there⟩ | ⟨here, there, -, -⟩ | @⟨c, here, there, behind, feed, -⟩
      · rw [here, there]
      · rw [here, there]
        rfl
      · have next := Source.feeds_of_char here feed
        rw [here, there]
        split
        next => rw [← behind, ← ih, shiftMargin_of_feeds next]; rfl
        next =>
          have apart : s.shift m.place - (s.shiftMargin m).origin = m.place - m.origin := by
            simp only [Source.shift, Source.shiftMargin]
            omega
          rw [apart, ← behind]
          exact ih _ ⟨m.place + 1, m.place + 1, _⟩
        next => rfl

@[simp] theorem useUpTo_crlf (n : Nat) (m : Margin) : Margin.useUpTo s.crlf n (s.shiftMargin m) =
    ((m.useUpTo s n).1, s.shiftMargin (m.useUpTo s n).2) := by
  rw [useUpTo, useUpTo]
  exact congrArg (fun r : Nat × Margin => (n - r.1, r.2))
    (useColumns_crlf _ _ { m with left := m.left - min m.left n })

@[simp] theorem use_crlf (n : Nat) (m : Margin) : Margin.use s.crlf n (s.shiftMargin m) =
    ((m.use s n).1, s.shiftMargin (m.use s n).2) := by
  rw [use, use, useUpTo_crlf]

@[simp] theorem useAll_crlf (m : Margin) : Margin.useAll s.crlf (s.shiftMargin m) = s.shiftMargin (m.useAll s) := by
  rw [useAll, useAll, place_shiftMargin, Source.skip_crlf rfl]
  simp only [Source.shiftMargin]
  rw [Source.feeds_skip rfl]

@[simp] theorem isAtEnd_crlf (m : Margin) : Margin.isAtEnd s.crlf (s.shiftMargin m) = m.isAtEnd s := by
  rw [isAtEnd, isAtEnd, place_shiftMargin]
  rcases s.seen m.place with ⟨here, there⟩ | ⟨here, there, -, -⟩ | ⟨here, there, -, -, -⟩ <;>
    rw [here, there]
  rfl

@[simp] theorem quote?_crlf (m : Margin) : Margin.quote? s.crlf (s.shiftMargin m) =
    (m.quote? s).map s.shiftMargin := by
  rw [quote?, quote?, useUpTo_crlf]
  dsimp only
  rw [place_shiftMargin, Source.isAt_crlf (by decide) (by decide)]
  split
  next sign =>
    rw [shiftMargin_succ (of_decide_eq_true sign) (by decide), use_crlf]
    rfl
  next => rfl

@[simp] theorem container?_crlf (c : Container) (m : Margin) : Margin.container? s.crlf c (s.shiftMargin m) =
    (m.container? s c).map s.shiftMargin := by
  cases c with
  | quote => exact quote?_crlf m
  | item indent =>
    rw [container?, container?, use_crlf]
    dsimp only
    rw [isAtEnd_crlf]
    split <;> rfl

@[simp] theorem containers_crlf (path : List Container) (m : Margin) :
    containers s.crlf path (s.shiftMargin m) =
      ((containers s path m).1, s.shiftMargin (containers s path m).2) := by
  induction path generalizing m with
  | nil => rfl
  | cons c path ih =>
    rw [containers, containers, container?_crlf]
    cases m.container? s c with
    | none => rfl
    | some m => exact congrArg (fun r : Nat × Margin => (r.1 + 1, r.2)) (ih m)

@[simp] theorem ofLine_crlf (path : List Container) (i : Nat) :
    ofLine s.crlf path (s.shift i) = ((ofLine s path i).1, s.shiftMargin (ofLine s path i).2) := by
  rw [ofLine, ofLine, start_shift, containers_crlf]

end Margin

@[simp] theorem skipMargin_crlf (path : List Container) (i : Nat) :
    skipMargin s.crlf path (s.shift i) = s.shift (skipMargin s path i) := by
  rw [skipMargin, Margin.ofLine_crlf]
  rfl

@[simp] theorem rule?_crlf (i : Nat) : rule? s.crlf (s.shift i) = (rule? s i).map s.shift := by
  unfold rule?
  rcases s.seen i with ⟨here, there⟩ | ⟨here, there, -, -⟩ | @⟨c, here, there, behind, feed, plain⟩
  · rw [here, there]
    rfl
  · rw [here, there]
    rfl
  · rw [here, there]
    dsimp only
    split
    next sign =>
      rw [Source.skip_crlf (by simp [feed.symm, plain.symm]), Source.slice_crlf_of_line, Source.lineEnd?_crlf]
      · split <;> rfl
      · rw [Source.feeds_skip (by simp [feed.symm])]
    next => rfl

namespace Margin

@[simp] theorem finishMarker_crlf (sign : Char) (number indent : Nat) (m : Margin) :
    Margin.finishMarker s.crlf sign number indent (s.shiftMargin m) =
      ((m.finishMarker s sign number indent).1, s.shiftMargin (m.finishMarker s sign number indent).2) := by
  rw [finishMarker, finishMarker, place_shiftMargin, Source.blankLine?_crlf, Option.isSome_map, useUpTo_crlf]
  dsimp only
  split
  · rfl
  · split <;> rfl

@[simp] theorem listMarker?_crlf (m : Margin) : Margin.listMarker? s.crlf (s.shiftMargin m) =
    (m.listMarker? s).map fun r => (r.1, s.shiftMargin r.2) := by
  rw [listMarker?, listMarker?, useUpTo_crlf]
  obtain ⟨indent, m⟩ := m.useUpTo s 4
  dsimp only
  split
  · rfl
  · rw [place_shiftMargin]
    rcases s.seen m.place with ⟨here, there⟩ | ⟨here, there, -, -⟩ | @⟨c, here, there, -, feed, -⟩
    · rw [here, there]
      rfl
    · rw [here, there]
      rfl
    · rw [here, there]
      dsimp only
      split
      next =>
        rw [rule?_crlf, Option.isSome_map, shiftMargin_succ here feed, use_crlf]
        dsimp only
        rw [isAtEnd_crlf, finishMarker_crlf]
        split
        · rfl
        · split <;> rfl
      next =>
        split
        next =>
          rw [Source.decimal_crlf]
          have digits : s.feeds (s.decimal 9 m.place).2 = s.feeds m.place := Source.feeds_skipUpTo rfl _ _
          generalize s.decimal 9 m.place = read at digits ⊢
          obtain ⟨number, behind⟩ := read
          dsimp only at digits ⊢
          rcases s.seen behind with ⟨here, there⟩ | ⟨here, there, -, -⟩ | @⟨d, here, there, -, feed, -⟩
          · rw [here, there]
            rfl
          · rw [here, there]
            rfl
          · have next := Source.feeds_of_char here feed
            have moved : { s.shiftMargin m with place := s.shift behind + 1 } =
                s.shiftMargin { m with place := behind + 1 } := by
              rw [shiftMargin_of_feeds (next.trans digits), Source.shift_add next]
              rfl
            have width : s.shift behind + 1 - s.shift m.place = behind + 1 - m.place := by
              rw [← Source.shift_add next, Source.shift_sub (next.trans digits).symm]
            rw [here, there, width, moved, use_crlf]
            dsimp only
            rw [isAtEnd_crlf, finishMarker_crlf]
            split
            · split <;> rfl
            · rfl
        next => rfl

@[simp] theorem taskMarker?_crlf (m : Margin) : Margin.taskMarker? s.crlf (s.shiftMargin m) =
    (m.taskMarker? s).map fun r => (r.1, s.shiftMargin r.2) := by
  rw [taskMarker?, taskMarker?, useUpTo_crlf]
  obtain ⟨indent, m⟩ := m.useUpTo s 3
  dsimp only
  rw [place_shiftMargin, Source.isAt_crlf (by decide) (by decide)]
  cases bracket : s.isAt m.place '[' with
  | false => rfl
  | true =>
    have first := Source.feeds_of_isAt bracket (by decide)
    have one := Source.shift_add first
    rw [← one, Bool.true_and, Bool.true_and, show s.shift m.place + 2 = s.shift (m.place + 1) + 1 by omega,
      show s.shift m.place + 3 = s.shift (m.place + 1) + 2 by omega]
    rcases s.seen (m.place + 1) with ⟨here, there⟩ | ⟨here, -, next, -⟩ | @⟨c, here, there, -, feed, -⟩
    · simp [here, there]
    · -- Only without a carriage return the bracket could be two places on; but a line end is no box.
      simp [here, Source.isAt, next, isInlineBlank]
    · have second := Source.feeds_of_char here feed
      rw [here, there, ← Source.shift_add second, Source.isAt_crlf (by decide) (by decide)]
      cases closing : s.isAt (m.place + 2) ']' with
      | false => rfl
      | true =>
        have third := Source.feeds_of_isAt closing (by decide)
        have behind : s.shift (m.place + 1) + 2 = s.shift (m.place + 3) :=
          (Source.shift_add (i := m.place + 1) (k := 2) (third.trans second)).symm
        have moved : { s.shiftMargin m with place := s.shift (m.place + 3) } =
            s.shiftMargin { m with place := m.place + 3 } := by
          rw [shiftMargin_of_feeds (third.trans (second.trans first))]
          rfl
        rw [behind, Source.any_crlf rfl, moved]
        dsimp only
        split
        · split
          · rfl
          · split <;> rfl
        · rfl

end Margin

end PublisherConsole.Markdown
