import PublisherConsole.Proofs.Markdown.Inlines
import PublisherConsole.Proofs.Markdown.Places

/-!
# The cells of tables

A row of a table is a line of its source, so that a cell has no line end in it. `Source.InLine` is what
the scanners keep, at each of the steps a line is read in (`LineScan.Steps`). What they read from a cell
(`Leaf.IsCell`) has no breaks, and the HTML in it goes on without a line end. So all events of a cell go
on with the line at hand (`Leaf.IsCell.isInCell`).
-/

namespace PublisherConsole.Markdown

variable {s : Source} {path : List Container} {i j k lo : Nat} {c : Char}

/-! ### Stretches of a line -/

/-- There is no line end from one place up to another. -/
structure Source.InLine (s : Source) (i j : Nat) : Prop where
  le : i ≤ j
  plain : ∀ k c, i ≤ k → k < j → s.char? k = some c → isLineEnd c = false

namespace Source.InLine

theorem refl (s : Source) (i : Nat) : s.InLine i i := ⟨Nat.le_refl i, fun _ _ h h' => by omega⟩

theorem trans (h : s.InLine i j) (h' : s.InLine j k) : s.InLine i k where
  le := Nat.le_trans h.le h'.le
  plain m c low high here := by
    by_cases before : m < j
    · exact h.plain m c low before here
    · exact h'.plain m c (by omega) high here

theorem char (here : s.char? i = some c) (plain : isLineEnd c = false) : s.InLine i (i + 1) where
  le := Nat.le_succ i
  plain m c' low high here' := by
    obtain rfl : m = i := by omega
    rwa [Option.some.inj (here'.symm.trans here)]

theorem isAt (here : s.isAt i c = true) (plain : isLineEnd c = false) : s.InLine i (i + 1) :=
  char (of_decide_eq_true here) plain

theorem skipUpTo {p : Char → Bool} (plain : ∀ c, p c = true → isLineEnd c = false) (fuel i : Nat) :
    s.InLine i (s.skipUpTo p fuel i) := by
  induction fuel generalizing i with
  | zero => exact refl s i
  | succ fuel ih =>
    rw [Source.skipUpTo]
    split
    next here =>
      obtain ⟨c, at', holds⟩ := (Option.any_eq_true _ _).1 here
      exact (char at' (plain c holds)).trans (ih (i + 1))
    next => exact refl s i

theorem skip {p : Char → Bool} (plain : ∀ c, p c = true → isLineEnd c = false) (i : Nat) :
    s.InLine i (s.skip p i) := skipUpTo plain _ i

/-- A run of one character that does not end a line. -/
theorem skipRun (plain : isLineEnd c = false) (i : Nat) : s.InLine i (s.skipRun c i) :=
  skip (fun d here => by rwa [of_decide_eq_true here]) i

end Source.InLine

/-- A class of characters that has neither line end in it. -/
theorem isLineEnd_of_class {p : Char → Bool} (lineFeed : p '\n' = false) (return' : p '\r' = false)
    (c : Char) (h : p c = true) : isLineEnd c = false := by
  by_cases ending : c = '\n' ∨ c = '\r'
  · rcases ending with rfl | rfl
    · exact absurd (h.symm.trans lineFeed) nofun
    · exact absurd (h.symm.trans return') nofun
  · simpa [isLineEnd] using ending

/-- Between the signs around an entity there is no line end. -/
theorem exists_of_entity? {cs : List Char} (read : entity? s i = some (cs, j)) :
    ∃ k, j = k + 1 ∧ s.isAt k ';' = true ∧ s.InLine (i + 1) k := by
  unfold entity? at read
  split at read
  next number =>
    have sharp : s.InLine (i + 1) (i + 2) := .isAt number rfl
    dsimp only at read
    generalize hex : (s.isAt (i + 2) 'x' || s.isAt (i + 2) 'X') = isHex at read
    have start : s.InLine (i + 1) (if isHex then i + 3 else i + 2) := by
      cases isHex with
      | false => exact sharp
      | true =>
        rcases Bool.or_eq_true_iff.1 hex with here | here <;> exact sharp.trans (.isAt here rfl)
    generalize (if isHex then i + 3 else i + 2) = first at read start
    have digits : s.InLine first
        (if isHex then s.skipUpTo isHexDigit 6 first else s.skipUpTo Char.isDigit 7 first) := by
      cases isHex <;> exact .skipUpTo (isLineEnd_of_class rfl rfl) _ _
    generalize (if isHex then s.skipUpTo isHexDigit 6 first else s.skipUpTo Char.isDigit 7 first) =
      last at read digits
    by_cases ends : (decide (last > first) && s.isAt last ';') = true
    · rw [if_pos ends] at read
      obtain ⟨_, -, heq⟩ := Option.map_eq_some_iff.1 read
      obtain ⟨-, rfl⟩ := Prod.mk.inj heq
      exact ⟨last, rfl, (Bool.and_eq_true_iff.1 ends).2, start.trans digits⟩
    · rw [if_neg ends] at read
      cases read
  next =>
    dsimp only at read
    split at read
    next semicolon =>
      obtain ⟨_, -, heq⟩ := Option.map_eq_some_iff.1 read
      obtain ⟨-, rfl⟩ := Prod.mk.inj heq
      exact ⟨_, rfl, semicolon, .skip (isLineEnd_of_class rfl rfl) _⟩
    next => cases read

/-- An entity does not go on over a line end. -/
theorem Source.InLine.entity {cs : List Char} (here : s.isAt i '&' = true)
    (read : entity? s i = some (cs, j)) : s.InLine i j := by
  obtain ⟨k, rfl, semicolon, inside⟩ := exists_of_entity? read
  exact (Source.InLine.isAt here rfl).trans (inside.trans (.isAt semicolon rfl))

/-! ### Steps of a line -/

section

variable {l : LineScan} {mode : LineMode}

namespace LineScan

/-- What a character that does not end the line comes to: the reading of the line and the place to go on
from, or nothing if a cell ends here. -/
def step (s : Source) (mode : LineMode) (l : LineScan) (i : Nat) (c : Char) : Option (LineScan × Nat) :=
  if c = '\\' then some (l.backslash s mode i)
  else if c = '*' || c = '_' || c = '~' then
    let stop := s.skipRun c i
    let count := stop - i
    let opens := canOpen s mode c count i
    let closes := canClose s mode c count i
    if (opens || closes) && (c ≠ '~' || count ≤ 2) then some (l.sign i stop (.run opens closes), stop)
    else some (l, stop)
  else if c = '`' then some (l.sign i (s.skipRun '`' i) (.ticks false), s.skipRun '`' i)
  else if c = '<' && !s.isAt (i + 1) '\\' then some (l.sign i (i + 1) .angle, i + 1)
  else if c = '!' && s.isAt (i + 1) '[' then some (l.sign i (i + 2) .imageOpen, i + 2)
  else if c = '[' then some (l.sign i (i + 1) .linkOpen, i + 1)
  else if c = ']' then some (l.sign i (i + 1) (.linkClose true), i + 1)
  else if c = '&' then
    match entity? s i with
    | some (cs, stop) => some (l.sign i stop (.entity cs), stop)
    | none => some (l, i + 1)
  else if c = '|' then
    if mode = .cell then none else some ({ l with bars := l.bars + 1, lastBar := i }, i + 1)
  else some (l, i + 1)

end LineScan

/-- Reading a line goes on from step to step. -/
theorem scanFrom_of_char (here : s.char? i = some c) (plain : isLineEnd c = false) (start n : Nat) :
    scanFrom s path mode start (n + 1) l i = (l.step s mode i c).elim (l.close s i, i, .none)
      fun r => scanFrom s path mode start n r.1 r.2 := by
  rw [scanFrom, here]
  dsimp only
  rw [plain, if_neg Bool.false_ne_true]
  unfold LineScan.step
  by_cases slash : c = '\\'
  · rw [if_pos slash, if_pos slash]
    rfl
  rw [if_neg slash, if_neg slash]
  by_cases emphasis : (c = '*' || c = '_' || c = '~') = true
  · rw [if_pos emphasis, if_pos emphasis]
    dsimp only
    split <;> rfl
  rw [if_neg emphasis, if_neg emphasis]
  by_cases tick : c = '`'
  · rw [if_pos tick, if_pos tick]
    rfl
  rw [if_neg tick, if_neg tick]
  by_cases angle : (c = '<' && !s.isAt (i + 1) '\\') = true
  · rw [if_pos angle, if_pos angle]
    rfl
  rw [if_neg angle, if_neg angle]
  by_cases image : (c = '!' && s.isAt (i + 1) '[') = true
  · rw [if_pos image, if_pos image]
    rfl
  rw [if_neg image, if_neg image]
  by_cases opening : c = '['
  · rw [if_pos opening, if_pos opening]
    rfl
  rw [if_neg opening, if_neg opening]
  by_cases closing : c = ']'
  · rw [if_pos closing, if_pos closing]
    rfl
  rw [if_neg closing, if_neg closing]
  by_cases ampersand : c = '&'
  · rw [if_pos ampersand, if_pos ampersand]
    cases entity? s i <;> rfl
  rw [if_neg ampersand, if_neg ampersand]
  by_cases bar : c = '|'
  · rw [if_pos bar, if_pos bar]
    split <;> rfl
  · rw [if_neg bar, if_neg bar]
    rfl

theorem scanFrom_of_end (here : s.char? i = none) (start n : Nat) :
    scanFrom s path mode start n l i = (l.close s i, i, .none) := by
  cases n with
  | zero => rfl
  | succ n => rw [scanFrom, here]

/-- Where a step goes on that begins with a character: behind a run of it, behind the character itself or
a bracket that follows it, or behind an entity. -/
inductive Source.StepTo (s : Source) (i : Nat) (c : Char) : Nat → Prop
  | run : StepTo s i c (s.skipRun c i)
  | char : StepTo s i c (i + 1)
  | bracket (behind : s.isAt (i + 1) '[' = true) : StepTo s i c (i + 2)
  | entity {cs : List Char} {stop : Nat} (ampersand : c = '&') (read : entity? s i = some (cs, stop)) :
    StepTo s i c stop

/-- A step stays in the line of the character it begins with. -/
theorem Source.StepTo.inLine (h : s.StepTo i c j) (here : s.char? i = some c) (plain : isLineEnd c = false) :
    s.InLine i j := by
  cases h with
  | run => exact .skipRun plain i
  | char => exact .char here plain
  | bracket behind => exact (Source.InLine.char here plain).trans (.isAt behind rfl)
  | entity ampersand read => exact .entity (decide_eq_true (ampersand ▸ here)) read

namespace LineScan

/-- What a step may come to. Signs are put down that are no breaks, a bar is counted outside of cells, and
other characters are left to the text. -/
inductive Steps (s : Source) (mode : LineMode) (l : LineScan) (i : Nat) (c : Char) :
    Option (LineScan × Nat) → Prop
  | backslash (slash : c = '\\') : Steps s mode l i c (some (l.backslash s mode i))
  | sign {kind : PieceKind} {stop : Nat} (on : s.StepTo i c stop) (soft : kind ≠ .softBreak)
    (hard : kind ≠ .hardBreak) : Steps s mode l i c (some (l.sign i stop kind, stop))
  | text {stop : Nat} (on : s.StepTo i c stop) : Steps s mode l i c (some (l, stop))
  | bar (outside : mode ≠ .cell) :
    Steps s mode l i c (some ({ l with bars := l.bars + 1, lastBar := i }, i + 1))
  | cellEnd (cell : mode = .cell) (bar : c = '|') : Steps s mode l i c none

/-- What a step comes to at a character is one of these. -/
theorem steps (s : Source) (mode : LineMode) (l : LineScan) (i : Nat) (c : Char) :
    l.Steps s mode i c (l.step s mode i c) := by
  unfold step
  by_cases slash : c = '\\'
  · rw [if_pos slash]
    exact .backslash slash
  rw [if_neg slash]
  by_cases emphasis : (c = '*' || c = '_' || c = '~') = true
  · rw [if_pos emphasis]
    dsimp only
    split
    · exact .sign .run nofun nofun
    · exact .text .run
  rw [if_neg emphasis]
  by_cases tick : c = '`'
  · rw [if_pos tick, ← tick]
    exact .sign .run nofun nofun
  rw [if_neg tick]
  by_cases angle : (c = '<' && !s.isAt (i + 1) '\\') = true
  · rw [if_pos angle]
    exact .sign .char nofun nofun
  rw [if_neg angle]
  by_cases image : (c = '!' && s.isAt (i + 1) '[') = true
  · rw [if_pos image]
    exact .sign (.bracket (Bool.and_eq_true_iff.1 image).2) nofun nofun
  rw [if_neg image]
  by_cases opening : c = '['
  · rw [if_pos opening]
    exact .sign .char nofun nofun
  rw [if_neg opening]
  by_cases closing : c = ']'
  · rw [if_pos closing]
    exact .sign .char nofun nofun
  rw [if_neg closing]
  by_cases ampersand : c = '&'
  · rw [if_pos ampersand]
    cases read : entity? s i with
    | none => exact .text .char
    | some found => exact .sign (.entity ampersand read) nofun nofun
  rw [if_neg ampersand]
  by_cases bar : c = '|'
  · rw [if_pos bar]
    split
    next cell => exact .cellEnd cell bar
    next outside => exact .bar outside
  · rw [if_neg bar]
    exact .text .char

theorem steps_of_eq {r : Option (LineScan × Nat)} (read : l.step s mode i c = r) : l.Steps s mode i c r :=
  read ▸ l.steps s mode i c

/-- Only a bar ends a cell. -/
theorem step_ne_none (open' : mode ≠ .cell ∨ c ≠ '|') : l.step s mode i c ≠ none := fun none => by
  cases steps_of_eq none with
  | cellEnd cell bar => exact open'.elim (absurd cell) (absurd bar)

end LineScan

end

/-! ### The pieces of a cell -/

/-- A piece of a cell that starts at a place or behind it. It is no break. -/
structure Piece.IsInCell (lo : Nat) (p : Piece) : Prop where
  start : lo ≤ p.start
  soft : p.kind ≠ .softBreak
  hard : p.kind ≠ .hardBreak

/-- A cell that starts at a place was read up to another, in its line. -/
structure LineScan.IsInCell (s : Source) (lo i : Nat) (l : LineScan) : Prop where
  read : s.InLine lo i
  textStart : lo ≤ l.textStart
  pieces : ∀ p ∈ l.pieces, p.IsInCell lo

/-- A cell that starts at a place was read to its end. -/
structure IsReadInLine (s : Source) (lo : Nat) (r : List Piece × Nat × LineBreak) : Prop where
  read : s.InLine lo r.2.1
  pieces : ∀ p ∈ r.1, p.IsInCell lo

theorem Piece.IsInCell.addText {pieces : List Piece} (h : ∀ p ∈ pieces, p.IsInCell lo) (low : lo ≤ i) :
    ∀ p ∈ addText pieces i j, p.IsInCell lo := by
  have fresh : Piece.IsInCell lo ⟨i, j, .text⟩ := ⟨low, nofun, nofun⟩
  unfold Markdown.addText
  split
  · split
    next p rest =>
      split
      · obtain ⟨here, others⟩ := List.forall_mem_cons.1 h
        exact List.forall_mem_cons.2 ⟨⟨here.start, here.soft, here.hard⟩, others⟩
      · exact List.forall_mem_cons.2 ⟨fresh, h⟩
    next => exact List.forall_mem_singleton.2 fresh
  · exact h

namespace LineScan.IsInCell

variable {l : LineScan}

theorem go (h : l.IsInCell s lo i) (on : s.InLine i j) : l.IsInCell s lo j :=
  ⟨h.read.trans on, h.textStart, h.pieces⟩

theorem sign (h : l.IsInCell s lo i) (on : s.InLine i j) {kind : PieceKind} (soft : kind ≠ .softBreak)
    (hard : kind ≠ .hardBreak) : (l.sign i j kind).IsInCell s lo j where
  read := h.read.trans on
  textStart := (h.read.trans on).le
  pieces := List.forall_mem_cons.2 ⟨⟨h.read.le, soft, hard⟩, Piece.IsInCell.addText h.pieces h.textStart⟩

theorem close (h : l.IsInCell s lo i) : ∀ p ∈ l.close s i, p.IsInCell lo :=
  Piece.IsInCell.addText h.pieces h.textStart

theorem backslash (h : l.IsInCell s lo i) (here : s.isAt i '\\' = true) :
    (l.backslash s .cell i).1.IsInCell s lo (l.backslash s .cell i).2 := by
  have behind : s.InLine i (i + 1) := .isAt here rfl
  unfold LineScan.backslash
  split
  next => exact h.go behind
  next c next =>
    split
    next punctuation =>
      have both : s.InLine i (i + 2) :=
        behind.trans (.char next (isLineEnd_of_class rfl rfl c punctuation))
      split
      next tick =>
        dsimp only
        have ticks : s.InLine (i + 1) (s.skipRun '`' (i + 1)) := .skipRun rfl _
        have all := h.read.trans (behind.trans ticks)
        exact ⟨all, all.le, List.forall_mem_cons.2 ⟨⟨Nat.le_trans h.read.le (Nat.le_succ i), nofun, nofun⟩,
          Piece.IsInCell.addText h.pieces h.textStart⟩⟩
      next =>
        dsimp only
        split
        next escaped =>
          have bar : s.isAt (i + 2) '|' = true := (Bool.and_eq_true_iff.1 escaped).2
          have all := h.read.trans (both.trans (.isAt bar rfl))
          exact ⟨all, (h.read.trans both).le, Piece.IsInCell.addText h.pieces h.textStart⟩
        next =>
          exact ⟨h.read.trans both, (h.read.trans behind).le,
            Piece.IsInCell.addText h.pieces h.textStart⟩
    next => exact h.go behind

theorem step (h : l.IsInCell s lo i) (here : s.char? i = some c) (plain : isLineEnd c = false)
    {r : LineScan × Nat} (read : l.step s .cell i c = some r) : r.1.IsInCell s lo r.2 := by
  cases LineScan.steps_of_eq read with
  | backslash slash => exact h.backslash (decide_eq_true (slash ▸ here))
  | sign on soft hard => exact h.sign (on.inLine here plain) soft hard
  | text on => exact h.go (on.inLine here plain)
  | bar outside => exact absurd rfl outside

/-- **A cell is read in its line, and into pieces that are no breaks.** -/
theorem scanFrom (h : l.IsInCell s lo i) (start fuel : Nat) :
    IsReadInLine s lo (scanFrom s path .cell start fuel l i) := by
  induction fuel generalizing l i with
  | zero => exact ⟨h.read, h.close⟩
  | succ fuel ih =>
    cases here : s.char? i with
    | none =>
      rw [scanFrom_of_end here]
      exact ⟨h.read, h.close⟩
    | some c =>
      cases ending : isLineEnd c with
      | true =>
        rw [Markdown.scanFrom, here]
        dsimp only
        rw [if_pos ending]
        exact ⟨h.read, h.close⟩
      | false =>
        rw [scanFrom_of_char here ending]
        cases read : l.step s .cell i c with
        | none => exact ⟨h.read, h.close⟩
        | some r => exact ih (h.step here ending read)

end LineScan.IsInCell

/-! ### The rows of a table -/

/-- A cell of a row of a table: its pieces are in a line, and no breaks. -/
def Leaf.IsCell (s : Source) (l : Leaf) : Prop :=
  ∃ lo, s.InLine lo l.stop ∧ ∀ p ∈ l.pieces, p.IsInCell lo

theorem isCell_of_mem_cellsFrom {cells : List Leaf} (h : ∀ l ∈ cells, l.IsCell s) (fuel i : Nat) :
    ∀ l ∈ (cellsFrom s path fuel cells i).1, l.IsCell s := by
  induction fuel generalizing cells i with
  | zero => exact fun l hl => h l (List.mem_reverse.1 hl)
  | succ fuel ih =>
    rw [cellsFrom]
    split
    next => exact fun l hl => h l (List.mem_reverse.1 hl)
    next =>
      generalize s.skipBlanks (if s.isAt i '|' then i + 1 else i) = start
      have read : IsReadInLine s start (scanLine s path .cell [] start) :=
        LineScan.IsInCell.scanFrom ⟨.refl s start, Nat.le_refl start, by simp⟩ start _
      refine ih (List.forall_mem_cons.2 ⟨⟨start, read.read, fun p hp => ?_⟩, h⟩) _
      exact read.pieces p (List.mem_reverse.1 hp)

/-- A row has as many cells as there are columns. -/
theorem length_readRow (columns i : Nat) : (readRow s path columns i).1.length = columns := by
  simp [readRow]
  omega

theorem isCell_of_mem_readRow (columns i : Nat) : ∀ l ∈ (readRow s path columns i).1, l.IsCell s := by
  intro l hl
  rcases List.mem_append.1 (List.mem_of_mem_take hl) with hl | hl
  · exact isCell_of_mem_cellsFrom (by simp) _ _ l hl
  · obtain rfl := List.eq_of_mem_replicate hl
    exact ⟨_, .refl s _, by simp⟩

theorem readRow_of_mem_rowsFrom {columns fuel i : Nat} {row : List Leaf}
    (h : row ∈ (rowsFrom s path columns fuel i).1) : ∃ place, row = (readRow s path columns place).1 := by
  induction fuel generalizing i with
  | zero => cases h
  | succ fuel ih =>
    rw [rowsFrom] at h
    dsimp only at h
    split at h
    · cases h
    · rcases List.mem_cons.1 h with rfl | h
      · exact ⟨_, rfl⟩
      · exact ih h

/-! ### HTML in a cell -/

/-- No line ends behind a place. -/
def Source.IsLineFrom (s : Source) (lo : Nat) : Prop :=
  ∀ k c, lo ≤ k → s.char? k = some c → isLineEnd c = false

/-- A tag was read from a place on, and nothing is cut out of it. -/
structure TagScan.IsUncut (lo : Nat) (t : TagScan) : Prop where
  place : lo ≤ t.place
  cuts : t.cuts = []

namespace TagScan.IsUncut

variable {margin : Option (Nat → Nat)} {t t' : TagScan} {fuel : Nat}

theorem go (h : t.IsUncut lo) {j : Nat} (on : t.place ≤ j) : ({ t with place := j } : TagScan).IsUncut lo :=
  ⟨Nat.le_trans h.place on, h.cuts⟩

variable (line : s.IsLineFrom lo)

include line

theorem blanks (h : t.IsUncut lo) (read : t.blanks? s margin fuel = some t') : t'.IsUncut lo := by
  induction fuel generalizing t with
  | zero => exact Option.some.inj read ▸ h
  | succ fuel ih =>
    rw [TagScan.blanks?] at read
    split at read
    next => exact Option.some.inj read ▸ h
    next c here =>
      rw [line _ c h.place here, if_neg Bool.false_ne_true] at read
      split at read
      · exact ih (h.go (Nat.le_succ _)) read
      · exact Option.some.inj read ▸ h

theorem quoted {mark : Char} (h : t.IsUncut lo) (read : t.quoted? s margin mark fuel = some t') :
    t'.IsUncut lo := by
  induction fuel generalizing t with
  | zero => cases read
  | succ fuel ih =>
    rw [TagScan.quoted?] at read
    split at read
    next => cases read
    next c here =>
      rw [line _ c h.place here, if_neg Bool.false_ne_true] at read
      split at read
      · exact Option.some.inj read ▸ h.go (Nat.le_succ _)
      · exact ih (h.go (Nat.le_succ _)) read

theorem value (h : t.IsUncut lo) (read : t.value? s margin = some t') : t'.IsUncut lo := by
  unfold TagScan.value? at read
  split at read
  next => cases read
  next =>
    split at read
    · exact quoted line (h.go (Nat.le_succ _)) read
    · split at read
      · cases read
      · exact Option.some.inj read ▸ h.go (Source.le_skip ..)

theorem oneAttribute (h : t.IsUncut lo) (read : t.attribute? s margin = some t') : t'.IsUncut lo := by
  unfold TagScan.attribute? at read
  split at read
  next =>
    obtain ⟨sign, gap, read⟩ := Option.bind_eq_some_iff.1 read
    have name := blanks line (h.go (s.le_skip _ _)) gap
    split at read
    · obtain ⟨start, gap, read⟩ := Option.bind_eq_some_iff.1 read
      exact value line (blanks line (name.go (Nat.le_succ _)) gap) read
    · exact Option.some.inj read ▸ h.go (s.le_skip _ _)
  next => cases read

theorem gap (h : t.IsUncut lo) (read : t.gap? s margin fuel = some t') : t'.IsUncut lo := by
  cases fuel with
  | zero => exact Option.some.inj read ▸ h
  | succ fuel =>
    have on : lo ≤ s.skipBlanks t.place := Nat.le_trans h.place (s.le_skip _ _)
    rw [TagScan.gap?] at read
    split at read
    next => cases read
    next c here =>
      rw [line _ c on here, if_neg Bool.false_ne_true] at read
      exact Option.some.inj read ▸ ⟨on, h.cuts⟩

theorem attributes (h : t.IsUncut lo) (read : t.attributes? s margin fuel = some t') :
    t'.IsUncut lo := by
  induction fuel generalizing t with
  | zero => cases read
  | succ fuel ih =>
    obtain ⟨next, gap, read⟩ := Option.bind_eq_some_iff.1 read
    have next := IsUncut.gap line h gap
    split at read
    · exact Option.some.inj read ▸ next
    · split at read
      · cases read
      · obtain ⟨behind, name, read⟩ := Option.bind_eq_some_iff.1 read
        exact ih (oneAttribute line next name) read

theorem tag {margin : Option (Nat → Nat)} (low : lo ≤ i + 1) (read : tag? s margin i = some t') :
    t'.IsUncut lo := by
  unfold tag? at read
  generalize s.isAt (i + 1) '/' = closing at read
  dsimp only at read
  have start : lo ≤ if closing then i + 2 else i + 1 := by split <;> omega
  generalize (if closing then i + 2 else i + 1) = first at read start
  have name : TagScan.IsUncut lo ⟨s.skip (fun c => isBasicAlphanumeric c || c = '-') first, []⟩ :=
    ⟨Nat.le_trans start (s.le_skip _ _), rfl⟩
  -- A slash may stand behind the blanks in front of the closing angle.
  have angle {t : TagScan} (inside : t.IsUncut lo) : lo ≤
      if (!closing && s.isAt (s.skipBlanks t.place) '/') = true then s.skipBlanks t.place + 1
      else s.skipBlanks t.place := by
    have on : lo ≤ s.skipBlanks t.place := Nat.le_trans inside.place (s.le_skip _ _)
    split
    · exact Nat.le_succ_of_le on
    · exact on
  have ending {t : TagScan} (inside : t.IsUncut lo) {place : Nat} (on : lo ≤ place)
      (read : (if s.isAt place '>' = true then some { t with place := place + 1 } else none) = some t') :
      t'.IsUncut lo := by
    split at read
    · exact Option.some.inj read ▸ ⟨Nat.le_succ_of_le on, inside.cuts⟩
    · cases read
  split at read
  · split at read
    · exact ending name (angle name) read
    · obtain ⟨t, behind, read⟩ := Option.bind_eq_some_iff.1 read
      have inside := attributes line name behind
      exact ending inside (angle inside) read
  · cases read

end TagScan.IsUncut

/-- HTML in a cell is a stretch of its line. -/
theorem text_of_inlineHtml? (line : s.IsLineFrom lo) {margin : Nat → Nat} {t : TagScan} (low : lo ≤ i)
    (read : inlineHtml? s margin i = some t) (start : Nat) : t.text s start = s.slice start t.place := by
  have uncut : t.cuts = [] := by
    unfold inlineHtml? at read
    split at read
    next => cases read
    next =>
      split at read
      · obtain ⟨_, -, rfl⟩ := Option.map_eq_some_iff.1 read
        rfl
      · split at read
        · obtain ⟨_, -, rfl⟩ := Option.map_eq_some_iff.1 read
          rfl
        · exact (TagScan.IsUncut.tag line (by omega) read).cuts
  simp [TagScan.text, uncut]

theorem lineFeed_notMem_slice (line : s.IsLineFrom lo) (low : lo ≤ i) : '\n' ∉ s.slice i j := by
  intro h
  obtain ⟨k, le, -, here⟩ := Source.exists_of_mem_slice h
  exact absurd (line k '\n' (Nat.le_trans low le) here) (by decide)

/-- What can be seen of a cell is a line. -/
theorem Source.InLine.isLineFrom (h : s.InLine lo j) : (s.upTo j).IsLineFrom lo := by
  intro k c low here
  rw [Source.char?, Source.upTo] at here
  split at here
  next bound =>
    dsimp only at bound
    refine h.plain k c low (by omega) ?_
    rw [Source.char?, if_pos (by omega)]
    exact here
  next => cases here

/-! ### The events of a cell -/

/-- An event that goes on with the line at hand. -/
inductive Event.IsInCell : Event → Prop
  | start {tag : Tag} (h : tag.IsInline) : IsInCell (.start tag)
  | stop {tag : Tag} (h : tag.IsInline) : IsInCell (.stop tag)
  | text (s : String) : IsInCell (.text s)
  | code (s : String) : IsInCell (.code s)
  | inlineHtml {s : String} (h : '\n' ∉ s.toList) : IsInCell (.inlineHtml s)

/-- **A cell goes on with the line at hand.** -/
theorem Leaf.IsCell.isInCell {c : StreamContext} {l : Leaf} (h : l.IsCell c.source) :
    ∀ e ∈ c.leaf true l, e.IsInCell := by
  obtain ⟨lo, line, pieces⟩ := h
  have law : HoldsOfEvents ⟨c.source.upTo l.stop, c.path, true, c.labels⟩ (Piece.IsInCell lo)
      Event.IsInCell :=
    { start := .start
      stop := .stop
      text := .text
      code := .code
      softBreak := fun h kind => absurd kind h.soft
      hardBreak := fun h kind => absurd kind h.hard
      html := fun {piece next} h h' t read => .inlineHtml <| by
        rw [text_of_inlineHtml? line.isLineFrom h'.start read, String.toList_ofList]
        exact lineFeed_notMem_slice line.isLineFrom h.start
      cut := fun h i => ⟨Nat.le_trans h.start (Nat.le_max_left ..), h.soft, h.hard⟩
      stale := fun {piece} h => by
        obtain ⟨start, stop, kind⟩ := piece
        cases kind with
        | linkClose fresh => exact ⟨h.start, nofun, nofun⟩
        | _ => exact h }
  exact law.settle pieces

end PublisherConsole.Markdown
