import PublisherConsole.Proofs.Markdown.Cells
import PublisherConsole.Proofs.Markdown.LineEnds.Interrupts

/-!
# Pieces of a text with carriage returns

A line is read step by step (`LineScan.step`), and no step goes beyond the line. So the pieces come to
stand where `Source.shift` says (`scanLine_crlf`). A piece that is no break stands in one line
(`Source.HasPiece`), so that its characters are the same; a break reaches over the line end.
-/

namespace PublisherConsole.Markdown

variable {s : Source} {i j k n n' : Nat} {c : Char} {path : List Container} {mode : LineMode}
  {l : LineScan} {b : Nat} {r : List Piece × Nat × LineBreak}

/-! ### In front of a place -/

namespace Source

/-- A stretch without line ends has no line feed. -/
theorem feeds_of_inLine (h : s.InLine i j) (inside : j ≤ s.stop) : s.feeds j = s.feeds i := by
  induction j with
  | zero => rw [Nat.le_zero.1 h.le]
  | succ j ih =>
    rcases Nat.eq_or_lt_of_le h.le with rfl | lt
    · rfl
    · have before : s.InLine i j := ⟨Nat.le_of_lt_succ lt, fun k c low high => h.plain k c low (by omega)⟩
      have feed : s.chars[j]? ≠ some '\n' := fun feed =>
        absurd (h.plain j '\n' (Nat.le_of_lt_succ lt) (Nat.lt_succ_self j)
          (by rwa [char?, if_pos (show j < s.stop from inside)])) nofun
      rw [← ih before (by omega), feeds_succ, if_neg feed, Nat.add_zero]

theorem lt_skipRun (here : s.char? i = some c) : i < s.skipRun c i := by
  rw [skipRun, skip_eq, here, Option.any_some, if_pos (decide_eq_true rfl)]
  exact s.le_skip _ (i + 1)

/-- What is skipped back over satisfies the condition. -/
theorem any_of_skipBack_lt {p : Char → Bool} {low : Nat} (lt : s.skipBack p low i < i) :
    (s.char? (i - 1)).any p = true := by
  cases i with
  | zero => cases lt
  | succ i =>
    rw [skipBack] at lt
    split at lt
    next skipped => exact (Bool.and_eq_true_iff.1 skipped).2
    next => exact absurd lt (Nat.lt_irrefl _)

theorem shift_before (here : s.char? (i - 1) = some c) (feed : c ≠ '\n') (some : 0 < i) :
    s.shift (i - 1) = s.shift i - 1 := by
  have next := shift_add (feeds_of_char here feed)
  rw [Nat.sub_add_cancel some] at next
  omega

theorem shift_pos (some : 0 < i) : 0 < s.shift i := by
  simp only [shift]
  omega

end Source

theorem isBlank_feed : Unicode.isBlank '\n' = true := by decide

theorem isBlank_return : Unicode.isBlank '\r' = true := by decide

section

variable [s.IsPlain]

@[simp] theorem isBehindBar_crlf (i : Nat) : isBehindBar s.crlf (s.shift i) = isBehindBar s i := by
  rcases Nat.eq_zero_or_pos i with rfl | some
  · rw [Source.shift_zero]
    rfl
  · rw [isBehindBar, isBehindBar, Source.isAt, Source.char?_before some, ← Source.isAt]
    cases bar : s.isAt (i - 1) '|' with
    | false => simp
    | true =>
      have before := Source.shift_before (of_decide_eq_true bar) (by decide) some
      by_cases more : 1 < i
      · have slash := Source.char?_before (s := s) (i := i - 1) (by omega)
        have more' := (Source.shift_lt_iff (s := s)).2 (show i - 1 < i by omega)
        have first := Source.shift_pos (s := s) (i := i - 1) (by omega)
        rw [before, show s.shift i - 1 - 1 = s.shift i - 2 by omega, show i - 1 - 1 = i - 2 by omega] at slash
        simp [Source.isAt, slash, more, some, show 0 < s.shift i by omega, show 1 < s.shift i by omega]
      · obtain rfl : i = 1 := by omega
        have one : s.shift 1 = 1 := by
          have := Source.shift_pos (s := s) some
          rw [Nat.sub_self, Source.shift_zero] at before
          omega
        simp [one]

/-- What stands in front of signs that may open or close emphasis. -/
theorem before_crlf (i : Nat) : (if s.shift i = 0 then none else s.crlf.char? (s.shift i - 1)) =
    if i = 0 then none else s.char? (i - 1) := by
  rcases Nat.eq_zero_or_pos i with rfl | some
  · rw [Source.shift_zero]
    rfl
  · rw [if_neg (Nat.ne_of_gt some), if_neg (Nat.ne_of_gt (Source.shift_pos some)), Source.char?_before some]

theorem canOpen_crlf (sign : Char) {count : Nat} (line : s.feeds (i + count) = s.feeds i) :
    canOpen s.crlf mode sign count (s.shift i) = canOpen s mode sign count i := by
  unfold canOpen
  rw [before_crlf, isBehindBar_crlf, ← Source.shift_add line]
  rcases s.seen (i + count) with ⟨here, there⟩ | ⟨here, there, -, -⟩ | ⟨here, there, -, -, -⟩
  · rw [here, there]
  · rw [here, there]
    dsimp only
    rw [isBlank_feed, isBlank_return, if_pos rfl, if_pos rfl]
  · rw [here, there]

theorem canClose_crlf (sign : Char) {count : Nat} (line : s.feeds (i + count) = s.feeds i) :
    canClose s.crlf mode sign count (s.shift i) = canClose s mode sign count i := by
  unfold canClose
  rw [before_crlf, isBehindBar_crlf, ← Source.shift_add line]
  rcases s.seen (i + count) with ⟨here, there⟩ | ⟨here, there, -, -⟩ | ⟨here, there, -, -, -⟩
  · rw [here, there]
  · have bar : '\n' ≠ '|' ∧ '\r' ≠ '|' := by decide
    rw [here, there]
    dsimp only
    rw [isBlank_feed, isBlank_return, decide_eq_false bar.1, decide_eq_false bar.2, Bool.true_or, Bool.true_or]
  · rw [here, there]

end

/-- An entity is read to behind its semicolon. -/
theorem of_entity? {cs : List Char} (read : entity? s i = some (cs, j)) : i < j ∧ j ≤ s.stop := by
  obtain ⟨k, rfl, semicolon, inside⟩ := exists_of_entity? read
  exact ⟨Nat.lt_succ_of_lt inside.le, Source.lt_stop (of_decide_eq_true semicolon)⟩

/-- A step goes on, and no line feed is in it. -/
theorem Source.StepTo.feeds (h : s.StepTo i c j) (here : s.char? i = some c) (plain : isLineEnd c = false) :
    i < j ∧ s.feeds j = s.feeds i := by
  have feed : c ≠ '\n' := by
    rintro rfl
    cases plain
  have next := Source.feeds_of_char here feed
  cases h with
  | run => exact ⟨Source.lt_skipRun here, Source.feeds_skipRun feed i⟩
  | char => exact ⟨Nat.lt_succ_self i, next⟩
  | bracket behind => exact ⟨by omega, (Source.feeds_of_isAt behind (by decide)).trans next⟩
  | entity ampersand read =>
    obtain ⟨lt, inside⟩ := of_entity? read
    exact ⟨lt, Source.feeds_of_inLine (.entity (decide_eq_true (ampersand ▸ here)) read) inside⟩

/-! ### Where pieces come to stand -/

/-- Where a piece comes to stand. -/
def Source.shiftPiece (s : Source) (p : Piece) : Piece := ⟨s.shift p.start, s.shift p.stop, p.kind⟩

@[simp] theorem start_shiftPiece (p : Piece) : (s.shiftPiece p).start = s.shift p.start := rfl

@[simp] theorem stop_shiftPiece (p : Piece) : (s.shiftPiece p).stop = s.shift p.stop := rfl

@[simp] theorem kind_shiftPiece (p : Piece) : (s.shiftPiece p).kind = p.kind := rfl

/-- Where the break at the end of a line comes to stand. -/
def Source.shiftBreak (s : Source) : LineBreak → LineBreak
  | .soft p => .soft (s.shiftPiece p)
  | .hard p => .hard (s.shiftPiece p)
  | .none => .none
  | .table columns => .table columns

/-- Where the reading of a line comes to stand. -/
def Source.shiftLine (s : Source) (l : LineScan) : LineScan :=
  ⟨l.pieces.map s.shiftPiece, s.shift l.textStart, l.bars, s.shift l.lastBar⟩

@[simp] theorem addText_crlf (pieces : List Piece) (start stop : Nat) :
    addText (pieces.map s.shiftPiece) (s.shift start) (s.shift stop) =
      (addText pieces start stop).map s.shiftPiece := by
  unfold addText
  simp only [gt_iff_lt, Source.shift_lt_iff]
  split
  · cases pieces with
    | nil => rfl
    | cons p rest =>
      have same : ((s.shiftPiece p).isText && decide ((s.shiftPiece p).stop = s.shift start)) =
          (p.isText && decide (p.stop = start)) := congrArg _ (decide_eq_decide.2 Source.shift_inj)
      rw [List.map_cons]
      dsimp only
      rw [same]
      split <;> rfl
  · rfl

theorem sign_shiftLine (i stop : Nat) (kind : PieceKind) :
    (s.shiftLine l).sign (s.shift i) (s.shift stop) kind = s.shiftLine (l.sign i stop kind) := by
  rw [LineScan.sign, LineScan.sign, Source.shiftLine, addText_crlf]
  rfl

/-! ### Steps -/

theorem lineEnd?_of_feed (here : s.char? i = some '\n') : s.lineEnd? i = some (i + 1) := by
  rw [Source.lineEnd?, here]
  rfl

theorem scanFrom_of_feed (here : s.char? i = some '\n') (start n : Nat) :
    scanFrom s path mode start (n + 1) l i =
      if mode = .cell then (l.close s i, i, .none) else l.finish s path mode start i (i + 1) := by
  rw [scanFrom, here, lineEnd?_of_feed here]
  rfl

/-! ### Pieces stand in their lines -/

/-- A piece that is no break stands in one line; a break stands behind a character, or at one that is no line
feed. -/
inductive Source.HasPiece (s : Source) : Piece → Prop
  | inLine {p : Piece} (stop : s.feeds p.stop = s.feeds p.start) (next : s.feeds (p.start + 1) = s.feeds p.start) :
    HasPiece s p
  | lineEnd {p : Piece} (kind : p.kind = .softBreak ∨ p.kind = .hardBreak)
    (front : 0 < p.start ∨ s.feeds (p.start + 1) = s.feeds p.start) : HasPiece s p

/-- Pieces in reverse: each one stands where it should, in the line where the piece in front of it ends, and
the last one ends in line `b`. -/
inductive Source.HasPieces (s : Source) : Nat → List Piece → Prop
  | nil (b : Nat) : HasPieces s b []
  | cons {b : Nat} {p : Piece} {pieces : List Piece} (before : HasPieces s (s.feeds p.start) pieces)
    (here : s.HasPiece p) (stop : s.feeds p.stop = b) : HasPieces s b (p :: pieces)

/-- Between two places of one line there are no others. -/
theorem Source.feeds_between (same : s.feeds k = s.feeds i) (low : i ≤ j) (high : j ≤ k) : s.feeds j = s.feeds i :=
  Nat.le_antisymm (same ▸ s.feeds_le high) (s.feeds_le low)

theorem Source.HasPiece.of_lt (lt : i < j) (line : s.feeds j = s.feeds i) (kind : PieceKind) :
    s.HasPiece ⟨i, j, kind⟩ := .inLine line (Source.feeds_between line (Nat.le_succ i) lt)

theorem Source.HasPieces.addText {pieces : List Piece} (h : s.HasPieces b pieces) (start : s.feeds i = b)
    (stop : s.feeds j = b) : s.HasPieces b (addText pieces i j) := by
  unfold Markdown.addText
  split
  next lt =>
    have fresh : s.HasPiece ⟨i, j, .text⟩ := .of_lt lt (stop.trans start.symm) .text
    cases h with
    | nil => exact .cons (.nil _) fresh stop
    | @cons _ p rest before here last =>
      dsimp only
      split
      next on =>
        simp only [Bool.and_eq_true, decide_eq_true_eq, Piece.isText] at on
        refine .cons before ?_ stop
        cases here with
        | inLine line next => exact .inLine ((stop.trans last.symm).trans line) next
        | lineEnd kind => rcases kind with kind | kind <;> cases on.1.symm.trans kind
      next => exact .cons (.cons before here (last.trans start.symm)) fresh stop
  next => exact h

/-- The last bar that was counted is one. -/
def LineScan.HasBar (s : Source) (l : LineScan) : Prop := 0 < l.bars → s.feeds (l.lastBar + 1) = s.feeds l.lastBar

/-- Line `b` was read to some place: the next text starts in it, and the pieces so far stand where they should. -/
structure LineScan.IsIn (s : Source) (b : Nat) (l : LineScan) : Prop where
  text : s.feeds l.textStart = b
  bar : l.HasBar s
  pieces : s.HasPieces b l.pieces

namespace LineScan.IsIn

theorem addText (h : l.IsIn s b) (line : s.feeds j = b) : s.HasPieces b (addText l.pieces l.textStart j) :=
  h.pieces.addText h.text line

theorem sign (h : l.IsIn s b) (start : s.feeds i = b) (lt : i < j) (stop : s.feeds j = b) (kind : PieceKind) :
    (l.sign i j kind).IsIn s b :=
  ⟨stop, h.bar, .cons (start ▸ h.addText start) (.of_lt lt (stop.trans start.symm) kind) stop⟩

theorem backslash (h : l.IsIn s b) (line : s.feeds i = b) (here : s.char? i = some '\\') :
    i < (l.backslash s mode i).2 ∧ s.feeds (l.backslash s mode i).2 = b ∧
      (l.backslash s mode i).1.IsIn s b := by
  have first := (Source.feeds_of_char here (by decide)).trans line
  unfold LineScan.backslash
  split
  next => exact ⟨Nat.lt_succ_self i, first, h⟩
  next c next =>
    split
    next sign =>
      have second : s.feeds (i + 2) = b :=
        (Source.feeds_of_char next (by rintro rfl; exact absurd sign (by decide))).trans first
      split
      next tick =>
        subst tick
        have lt := Source.lt_skipRun next
        have run := (Source.feeds_skipRun (s := s) (c := '`') (by decide) (i + 1)).trans first
        refine ⟨by dsimp only; omega, run, run, h.bar, .cons ?_ (.of_lt lt (run.trans first.symm) _) run⟩
        exact first.symm ▸ h.addText line
      next =>
        dsimp only
        split
        next bar =>
          have third := (Source.feeds_of_isAt (Bool.and_eq_true_iff.1 bar).2 (by decide)).trans second
          exact ⟨by omega, third, second, h.bar, h.addText line⟩
        next => exact ⟨by omega, second, first, h.bar, h.addText line⟩
    next => exact ⟨Nat.lt_succ_self i, first, h⟩

/-- A step goes on, but not beyond its line. -/
theorem step (h : l.IsIn s b) (line : s.feeds i = b) (here : s.char? i = some c) (plain : isLineEnd c = false)
    {r : LineScan × Nat} (read : l.step s mode i c = some r) :
    i < r.2 ∧ s.feeds r.2 = b ∧ r.1.IsIn s b := by
  cases LineScan.steps_of_eq read with
  | backslash slash => exact h.backslash line (slash ▸ here)
  | sign on =>
    obtain ⟨lt, same⟩ := on.feeds here plain
    exact ⟨lt, same.trans line, h.sign line lt (same.trans line) _⟩
  | text on =>
    obtain ⟨lt, same⟩ := on.feeds here plain
    exact ⟨lt, same.trans line, h⟩
  | bar =>
    obtain ⟨lt, same⟩ := Source.StepTo.char.feeds here plain
    exact ⟨lt, same.trans line, h.text, fun _ => same, h.pieces⟩

end LineScan.IsIn

theorem LineScan.isIn_start {pieces : List Piece} (h : s.HasPieces (s.feeds i) pieces) :
    LineScan.IsIn s (s.feeds i) ⟨pieces, i, 0, i⟩ := ⟨rfl, fun some => absurd some (Nat.lt_irrefl 0), h⟩

/-! ### What was read of a line -/

theorem le_of_delimiterColumns {columns : Nat} {fresh dashed sawDash sawBar : Bool} {r : Nat × Nat}
    (read : delimiterColumns s n i columns fresh dashed sawDash sawBar = some r) : i ≤ r.2 := by
  induction n generalizing i columns fresh dashed sawDash sawBar with
  | zero => cases read
  | succ n ih =>
    rw [delimiterColumns] at read
    cases ended : s.lineEnd? i with
    | some behind =>
      rw [ended] at read
      obtain rfl := Option.some.inj (Option.ite_none_right_eq_some.1 read).2
      exact Source.le_of_lineEnd? ended
    | none =>
      rw [ended] at read
      dsimp only at read
      split at read
      · exact Nat.le_of_succ_le (ih read)
      · exact Nat.le_of_succ_le (ih read)
      · exact Nat.le_of_succ_le (ih read)
      · exact Nat.le_of_succ_le (ih (Option.ite_none_right_eq_some.1 read).2)
      · cases read

theorem le_of_delimiterRow? {r : Nat × Nat} (read : delimiterRow? s i = some r) : i ≤ r.2 := by
  unfold delimiterRow? at read
  dsimp only at read
  split at read
  · cases read
  · have behind := le_of_delimiterColumns read
    have low := Margin.le_place_useUpTo (s := s) 4 (Margin.start i)
    refine Nat.le_trans low (Nat.le_trans ?_ behind)
    split
    · exact Nat.le_succ _
    · exact Nat.le_refl _

theorem le_of_table? {behind start : Nat} {r : Nat × Nat} (read : l.table? s path start behind = some r) :
    behind ≤ r.2 := by
  unfold LineScan.table? at read
  dsimp only at read
  split at read
  · split at read
    · cases read
    next row =>
      obtain rfl := Option.some.inj (Option.ite_none_right_eq_some.1 read).2
      exact Nat.le_trans (Margin.le_place_ofLine path behind) (le_of_delimiterRow? row)
  · cases read

/-- A break behind line `b` stands where it should, in front of a place. -/
def Source.HasBreak (s : Source) (b stop : Nat) : LineBreak → Prop
  | .soft p => s.HasPiece p ∧ s.feeds p.start = b ∧ p.stop = stop
  | .hard p => s.HasPiece p ∧ s.feeds p.start = b ∧ p.stop = stop
  | .none | .table _ => True

/-- Line `b` was read from a place to another: its pieces stand where they should, and its break behind it. -/
structure Source.HasRead (s : Source) (b i : Nat) (r : List Piece × Nat × LineBreak) : Prop where
  le : i ≤ r.2.1
  pieces : s.HasPieces b r.1
  ending : s.HasBreak b r.2.1 r.2.2

theorem Source.HasRead.mono (h : s.HasRead b j r) (le : i ≤ j) : s.HasRead b i r :=
  ⟨Nat.le_trans le h.le, h.pieces, h.ending⟩

namespace LineScan.IsIn

theorem close (h : l.IsIn s b) (line : s.feeds i = b) : s.HasRead b i (l.close s i, i, .none) where
  le := Nat.le_refl i
  pieces := h.addText ((Source.feeds_skipBack rfl _ _).trans line)
  ending := trivial

theorem finish (h : l.IsIn s b) (line : s.feeds i = b) (some : 0 < i) (start : Nat) :
    s.HasRead b (i + 1) (l.finish s path mode start i (i + 1)) := by
  have blanks := (Source.feeds_skipBack (s := s) (p := isInlineBlank) rfl 0 i).trans line
  unfold LineScan.finish
  dsimp only
  split
  next odd =>
    have lt : s.skipBack (fun c => decide (c = '\\')) 0 i < i := by
      simp only [Bool.and_eq_true, decide_eq_true_eq] at odd
      omega
    obtain ⟨c, here, slash⟩ := (Option.any_eq_true _ _).1 (Source.any_of_skipBack_lt lt)
    obtain rfl := of_decide_eq_true slash
    have next := Source.feeds_of_char here (by decide)
    rw [Nat.sub_add_cancel some] at next
    have before := next.symm.trans line
    exact ⟨Nat.le_refl _, h.addText before,
      .lineEnd (.inr rfl) (.inr (by rw [Nat.sub_add_cancel some, next])), before, rfl⟩
  next =>
    split
    next columns stop found =>
      refine ⟨?_, h.pieces, trivial⟩
      split at found
      · exact le_of_table? found
      · cases found
    next =>
      split
      next two =>
        exact ⟨Nat.le_refl _, h.addText blanks, .lineEnd (.inr rfl) (.inr (Source.feeds_between
          (line.trans blanks.symm) (Nat.le_succ _) (by dsimp only; omega))), blanks, rfl⟩
      next => exact ⟨Nat.le_refl _, h.addText blanks, .lineEnd (.inl rfl) (.inl some), line, rfl⟩

end LineScan.IsIn

/-- **What is read of a line stands where it should.** -/
theorem LineScan.IsIn.scanFrom (h : l.IsIn s b) (line : s.feeds i = b) (front : 0 < i ∨ s.char? 0 ≠ some '\n')
    [s.IsPlain] (start n : Nat) : s.HasRead b i (Markdown.scanFrom s path mode start n l i) := by
  induction n generalizing l i with
  | zero => exact h.close line
  | succ n ih =>
    rcases s.seen i with ⟨here, -⟩ | ⟨here, -, -, -⟩ | @⟨c, here, -, -, feed, plain⟩
    · rw [scanFrom_of_end here]
      exact h.close line
    · rw [scanFrom_of_feed here]
      split
      · exact h.close line
      · have some : 0 < i := by
          rcases front with some | other
          · exact some
          · exact Nat.pos_of_ne_zero fun zero => other (zero ▸ here)
        exact (h.finish line some start).mono (Nat.le_succ i)
    · have plain := isLineEnd_of_ne feed plain
      rw [scanFrom_of_char here plain]
      cases read : l.step s mode i c with
      | none => exact h.close line
      | some r =>
        obtain ⟨lt, same, held⟩ := h.step line here plain read
        exact (ih held same (.inl (Nat.lt_of_le_of_lt (Nat.zero_le i) lt))).mono (Nat.le_of_lt lt)

theorem Source.HasPieces.scanLine [s.IsPlain] {pieces : List Piece} (h : s.HasPieces (s.feeds i) pieces)
    (front : 0 < i ∨ s.char? 0 ≠ some '\n') : s.HasRead (s.feeds i) i (scanLine s path mode pieces i) :=
  (LineScan.isIn_start h).scanFrom rfl front i _

/-- A line that can be no head of a table is read to behind its end. -/
theorem LineScan.IsIn.stop_scanFrom (h : l.IsIn s b) (line : s.feeds i = b) [s.IsPlain] (start : Nat)
    (enough : s.stop ≤ i + n) : ∃ k, i ≤ k ∧ s.feeds k = b ∧
      ((s.char? k = none ∧ (Markdown.scanFrom s path .plain start n l i).2.1 = k) ∨
        (s.char? k = some '\n' ∧ (Markdown.scanFrom s path .plain start n l i).2.1 = k + 1)) := by
  induction n generalizing l i with
  | zero => exact ⟨i, Nat.le_refl i, line, .inl ⟨Source.char?_eq_none.2 enough, rfl⟩⟩
  | succ n ih =>
    rcases s.seen i with ⟨here, -⟩ | ⟨here, -, -, -⟩ | @⟨c, here, -, -, feed, plain⟩
    · rw [scanFrom_of_end here]
      exact ⟨i, Nat.le_refl i, line, .inl ⟨here, rfl⟩⟩
    · rw [scanFrom_of_feed here, if_neg nofun]
      refine ⟨i, Nat.le_refl i, line, .inr ⟨here, ?_⟩⟩
      unfold LineScan.finish
      dsimp only
      rw [if_neg (show ¬ LineMode.plain = .mayBeTable by nofun)]
      split
      · rfl
      · dsimp only
        split <;> rfl
    · have plain := isLineEnd_of_ne feed plain
      rw [scanFrom_of_char here plain]
      cases read : l.step s .plain i c with
      | none => exact absurd read (LineScan.step_ne_none (.inl nofun))
      | some r =>
        obtain ⟨lt, same, held⟩ := h.step line here plain read
        obtain ⟨k, low, rest⟩ := ih held same (by omega)
        exact ⟨k, Nat.le_trans (Nat.le_of_lt lt) low, rest⟩

/-- At a character that does not end it, the reading of a line goes on. -/
theorem lt_scanLine [s.IsPlain] {pieces : List Piece} (h : s.HasPieces (s.feeds i) pieces)
    (here : s.char? i = some c) (feed : c ≠ '\n') (open' : mode ≠ .cell ∨ c ≠ '|') :
    i < (scanLine s path mode pieces i).2.1 := by
  have line := isLineEnd_of_ne feed (Source.ne_return here)
  have bound := Source.lt_stop here
  rw [scanLine, show s.stop + 1 - i = s.stop - i + 1 by omega, scanFrom_of_char here line]
  cases read : LineScan.step s mode ⟨pieces, i, 0, i⟩ i c with
  | none => exact absurd read (LineScan.step_ne_none open')
  | some r =>
    obtain ⟨lt, same, held⟩ := (LineScan.isIn_start h).step rfl here line read
    exact Nat.lt_of_lt_of_le lt (held.scanFrom same (.inl (Nat.lt_of_le_of_lt (Nat.zero_le i) lt)) i _).le

section

variable [s.IsPlain]

theorem close_crlf (i : Nat) :
    (s.shiftLine l).close s.crlf (s.shift i) = (l.close s i).map s.shiftPiece := by
  unfold LineScan.close
  rw [← addText_crlf, ← Source.skipBack_crlf rfl]
  rfl

theorem backslash_crlf (here : s.char? i = some '\\') : (s.shiftLine l).backslash s.crlf mode (s.shift i) =
    (s.shiftLine (l.backslash s mode i).1, s.shift (l.backslash s mode i).2) := by
  have first := Source.feeds_of_char here (by decide)
  unfold LineScan.backslash
  rw [← Source.shift_add first]
  rcases s.seen (i + 1) with ⟨here', there⟩ | ⟨here', there, -, -⟩ | @⟨c, here', there, -, feed, -⟩
  · rw [here', there]
  · rw [here', there]
    rfl
  · have second := (Source.feeds_of_char here' feed).trans first
    rw [here', there]
    dsimp only
    split
    · split
      · rw [Source.skipRun_crlf (by decide) (by decide), Source.shiftLine, addText_crlf]
        rfl
      · rw [← Source.shift_add second, Source.isAt_crlf (by decide) (by decide)]
        have next : (if (decide (mode = .cell) && decide (c = '\\') && s.isAt (i + 2) '|') = true then
            s.shift (i + 2) else s.shift (i + 1)) =
              s.shift (if (decide (mode = .cell) && decide (c = '\\') && s.isAt (i + 2) '|') = true then
                i + 2 else i + 1) := by split <;> rfl
        have behind : s.shift (if (decide (mode = .cell) && decide (c = '\\') && s.isAt (i + 2) '|') = true then
            i + 2 else i + 1) + 1 = s.shift ((if (decide (mode = .cell) && decide (c = '\\') &&
              s.isAt (i + 2) '|') = true then i + 2 else i + 1) + 1) := by
          split
          next bar => rw [← Source.shift_add (Source.feeds_of_isAt (Bool.and_eq_true_iff.1 bar).2 (by decide))]
          next => rw [← Source.shift_add (Source.feeds_of_char here' feed)]
        rw [next, behind, Source.shiftLine, addText_crlf]
        rfl
    · rfl

/-- A step goes to where its place comes to stand. -/
theorem step_crlf (here : s.char? i = some c) (feed : c ≠ '\n') (plain : c ≠ '\r') :
    (s.shiftLine l).step s.crlf mode (s.shift i) c =
      (l.step s mode i c).map fun r => (s.shiftLine r.1, s.shift r.2) := by
  have next := Source.feeds_of_char here feed
  have run := Source.feeds_skipRun (s := s) feed i
  have length := Source.shift_sub run.symm
  have count : s.feeds (i + (s.skipRun c i - i)) = s.feeds i := by
    rw [Nat.add_sub_cancel' (Nat.le_of_lt (Source.lt_skipRun here)), run]
  unfold LineScan.step
  by_cases slash : c = '\\'
  · rw [if_pos slash, if_pos slash, backslash_crlf (slash ▸ here)]
    rfl
  rw [if_neg slash, if_neg slash]
  by_cases emphasis : (c = '*' || c = '_' || c = '~') = true
  · rw [if_pos emphasis, if_pos emphasis, Source.skipRun_crlf feed plain]
    dsimp only
    rw [length, canOpen_crlf c count, canClose_crlf c count, sign_shiftLine]
    split <;> rfl
  rw [if_neg emphasis, if_neg emphasis]
  by_cases tick : c = '`'
  · rw [if_pos tick, if_pos tick, Source.skipRun_crlf (by decide) (by decide), sign_shiftLine]
    rfl
  rw [if_neg tick, if_neg tick, ← Source.shift_add next, Source.isAt_crlf (by decide) (by decide),
    Source.isAt_crlf (by decide) (by decide)]
  by_cases angle : (c = '<' && !s.isAt (i + 1) '\\') = true
  · rw [if_pos angle, if_pos angle, sign_shiftLine]
    rfl
  rw [if_neg angle, if_neg angle]
  by_cases image : (c = '!' && s.isAt (i + 1) '[') = true
  · have second : s.feeds (i + 2) = s.feeds i :=
      (Source.feeds_of_isAt (Bool.and_eq_true_iff.1 image).2 (by decide)).trans next
    rw [if_pos image, if_pos image, ← Source.shift_add second, sign_shiftLine]
    rfl
  rw [if_neg image, if_neg image]
  by_cases opening : c = '['
  · rw [if_pos opening, if_pos opening, sign_shiftLine]
    rfl
  rw [if_neg opening, if_neg opening]
  by_cases closing : c = ']'
  · rw [if_pos closing, if_pos closing, sign_shiftLine]
    rfl
  rw [if_neg closing, if_neg closing]
  by_cases ampersand : c = '&'
  · rw [if_pos ampersand, if_pos ampersand, entity?_crlf next]
    cases entity? s i with
    | none => rfl
    | some r => exact congrArg some (congrArg (·, s.shift r.2) (sign_shiftLine i r.2 (.entity r.1)))
  rw [if_neg ampersand, if_neg ampersand]
  by_cases bar : c = '|'
  · rw [if_pos bar, if_pos bar]
    split <;> rfl
  · rw [if_neg bar, if_neg bar]
    rfl

/-! ### The same lines -/

theorem table?_crlf (bar : l.HasBar s) (path : List Container) (start behind : Nat) :
    (s.shiftLine l).table? s.crlf path (s.shift start) (s.shift behind) =
      (l.table? s path start behind).map fun r => (r.1, s.shift r.2) := by
  unfold LineScan.table?
  rw [Margin.ofLine_crlf]
  obtain ⟨continues, m⟩ := Margin.ofLine s path behind
  have same : (s.shiftLine l).bars = l.bars := rfl
  dsimp only
  rw [same]
  split
  next some =>
    have bars : 0 < l.bars := of_decide_eq_true (Bool.and_eq_true_iff.1 some).1
    have columns : headColumns s.crlf l.bars (s.shift start) (s.shiftLine l).lastBar =
        headColumns s l.bars start l.lastBar := headColumns_crlf (bar bars) l.bars start
    rw [place_shiftMargin, delimiterRow?_crlf, columns]
    cases delimiterRow? s m.place with
    | none => rfl
    | some r =>
      dsimp only [Option.map_some]
      split <;> rfl
  next => rfl

/-- Where what was read of a line comes to stand. -/
def Source.shiftRead (s : Source) (r : List Piece × Nat × LineBreak) : List Piece × Nat × LineBreak :=
  (r.1.map s.shiftPiece, s.shift r.2.1, s.shiftBreak r.2.2)

theorem finish_crlf (bar : l.HasBar s) (path : List Container) (mode : LineMode) (start i behind : Nat) :
    (s.shiftLine l).finish s.crlf path mode (s.shift start) (s.shift i) (s.shift behind) =
      s.shiftRead (l.finish s path mode start i behind) := by
  have slashes := Source.skipBack_crlf (s := s) (p := (· = '\\')) rfl 0 i
  have blanks := Source.skipBack_crlf (s := s) (p := isInlineBlank) rfl 0 i
  have line := Source.feeds_skipBack (s := s) (p := (· = '\\')) rfl 0 i
  have line' := Source.feeds_skipBack (s := s) (p := isInlineBlank) rfl 0 i
  rw [Source.shift_zero] at slashes blanks
  unfold LineScan.finish
  dsimp only
  rw [slashes, blanks, Source.shift_sub line, Source.shift_sub line', Source.isEnd_crlf, table?_crlf bar]
  split
  next odd =>
    have some : s.skipBack (fun c => decide (c = '\\')) 0 i < i := by
      simp only [Bool.and_eq_true, decide_eq_true_eq] at odd
      omega
    obtain ⟨c, here, slash⟩ := (Option.any_eq_true _ _).1 (Source.any_of_skipBack_lt some)
    obtain rfl := of_decide_eq_true slash
    rw [← Source.shift_before here (by decide) (Nat.lt_of_le_of_lt (Nat.zero_le _) some), Source.shiftLine,
      addText_crlf]
    rfl
  next =>
    have table : (if mode = .mayBeTable then (l.table? s path start behind).map fun r => (r.1, s.shift r.2)
        else none) = (if mode = .mayBeTable then l.table? s path start behind else none).map
          fun r => (r.1, s.shift r.2) := by split <;> rfl
    rw [table]
    cases (if mode = .mayBeTable then l.table? s path start behind else none) with
    | some r => rfl
    | none =>
      dsimp only [Option.map_none]
      rw [Source.shiftLine, addText_crlf]
      split <;> rfl

/-- **A line is read into the same pieces, at the places where they come to stand.** -/
theorem scanFrom_crlf (h : l.IsIn s b) (line : s.feeds i = b) (start : Nat) (enough : s.stop ≤ i + n)
    (enough' : s.crlf.stop ≤ s.shift i + n') :
    scanFrom s.crlf path mode (s.shift start) n' (s.shiftLine l) (s.shift i) =
      s.shiftRead (scanFrom s path mode start n l i) := by
  induction n using Nat.strong_induction_on generalizing n' i l with
  | h n ih =>
  rcases s.seen i with ⟨here, there⟩ | ⟨here, there, next, behind⟩ | @⟨c, here, there, behind, feed, plain⟩
  · rw [scanFrom_of_end here, scanFrom_of_end there, close_crlf]
    rfl
  · obtain ⟨n, n', rfl, rfl, -⟩ := enough_succ here enough enough'
    rw [scanFrom_of_feed here, scanFrom, there, Source.lineEnd?_crlf, lineEnd?_of_feed here]
    dsimp only [Option.map_some, Option.getD_some]
    rw [isLineEnd_return, if_pos rfl, close_crlf, finish_crlf h.bar]
    split <;> rfl
  · obtain ⟨n, n', rfl, rfl, rest⟩ := enough_succ here enough enough'
    have ends := isLineEnd_of_ne feed plain
    rw [scanFrom_of_char here ends, scanFrom_of_char there ends, step_crlf here feed plain, close_crlf]
    cases read : l.step s mode i c with
    | none => rfl
    | some r =>
      obtain ⟨lt, same, held⟩ := h.step line here ends read
      obtain ⟨left, left'⟩ := rest _ lt
      exact ih n (Nat.lt_succ_self n) held same left left'

theorem scanLine_crlf {pieces : List Piece} (h : s.HasPieces (s.feeds i) pieces) :
    scanLine s.crlf path mode (pieces.map s.shiftPiece) (s.shift i) = s.shiftRead (scanLine s path mode pieces i) :=
  scanFrom_crlf (LineScan.isIn_start h) rfl i (by omega) (by omega)

end

end PublisherConsole.Markdown
