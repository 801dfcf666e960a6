import PublisherConsole.Proofs.Text.Fill
import PublisherConsole.Screen.Wrap

/-!
# What wrapping keeps of styled lines

Wrapped lines get their styles back by matching their characters with those of the text. A blank is
passed over unless the next line begins with it; that is how the blanks that filling dropped are told
from those that it kept.

* The matching is right when the lines are `Laid` in the text: no line begins with a blank that was
  dropped in front of it, and none begins with a blank behind a line without characters
  (`Laid.restylePieces?`). Even where it is not, nothing is shown that is not there
  (`inkOf_restylePieces?`).
* `IsSteady` is a condition on the text that makes the lines lie so, whatever the width
  (`IsSteady.laid_fill`). Within a row a space is followed by another space or by ink, and a row that
  begins with a blank comes behind one that ends with something else than a space.
* `wrapping_keeps_ink` is the outcome for lists of lines, and `wrapping_trips_over_margins` has lines
  that are not steady: one loses a word, and one cannot be wrapped at all.
-/

namespace PublisherConsole.Screen

open Text (Spaced fill fillRow splitRows)
open Unicode (isBlank)

/-- The characters that can be seen, each with its style. -/
def ink (chars : List (Char × Style)) : List (Char × Style) :=
  chars.filter fun (c, _) => !isBlank c

/-- The characters of lines that can be seen, each with its style. -/
def inkOf (lines : List Line) : List (Char × Style) := lines.flatMap fun l => ink l.chars

variable {chars rest : List (Char × Style)} {piece : List Char} {pieces : List (List Char)}
  {cs gap row tail : List Char} {lines out : List Line} {width : Nat}

@[simp] theorem ink_append (chars rest : List (Char × Style)) :
    ink (chars ++ rest) = ink chars ++ ink rest := List.filter_append ..

theorem ink_of_blank (h : ∀ c ∈ chars.map Prod.fst, isBlank c = true) : ink chars = [] := by
  rw [ink, List.filter_eq_nil_iff]
  rintro ⟨c, s⟩ hmem
  simpa using h c (List.mem_map_of_mem (f := Prod.fst) hmem)

@[simp] theorem inkOf_cons (l : Line) (lines : List Line) :
    inkOf (l :: lines) = ink l.chars ++ inkOf lines := rfl

@[simp] theorem inkOf_append (lines lines' : List Line) :
    inkOf (lines ++ lines') = inkOf lines ++ inkOf lines' := List.flatMap_append ..

/-- Passing over blanks leaves the ink. -/
theorem ink_dropWhile {p : Char × Style → Bool} (hp : ∀ x, p x = true → isBlank x.1 = true) :
    ink (chars.dropWhile p) = ink chars := by
  have hsplit := ink_append (chars.takeWhile p) (chars.dropWhile p)
  have hblank : ink (chars.takeWhile p) = [] := by
    refine ink_of_blank fun c hc => ?_
    obtain ⟨x, hx, rfl⟩ := List.mem_map.1 hc
    exact hp x (List.mem_takeWhile_imp hx)
  rw [List.takeWhile_append_dropWhile, hblank, List.nil_append] at hsplit
  exact hsplit.symm

/-! ### Styles -/

theorem flatMap_styleRuns (chars : List (Char × Style)) :
    ((styleRuns chars).flatMap fun (cs, s) => cs.map fun c => (c, s)) = chars := by
  induction chars with
  | nil => rfl
  | cons x chars ih =>
    obtain ⟨c, s⟩ := x
    simp only [styleRuns]
    split
    next h =>
      rw [h] at ih
      simpa using ih
    next cs t runs h =>
      rw [h] at ih
      split
      next hst =>
        subst hst
        simpa using ih
      next => simpa using ih

/-- Characters that are given their styles again are the same. -/
@[simp] theorem chars_restyle (chars : List (Char × Style)) :
    (restyle (chars.map (·.1)) (chars.map (·.2))).chars = chars := by
  have hzip : (chars.map (·.1)).zip (chars.map (·.2)) = chars := by simp [List.zip_map']
  simp only [restyle, Line.chars, List.flatMap_map, String.toList_ofList, hzip]
  exact flatMap_styleRuns chars

/-! ### Matching characters -/

/-- The blanks that are passed over in front of a piece. -/
def skipped (piece : List Char) (x : Char × Style) : Bool := isBlank x.1 && piece.head? ≠ some x.1

/-- One piece gets the characters behind the blanks that are passed over, and the others get what is
left. -/
theorem restylePieces?_cons (piece : List Char) (pieces : List (List Char))
    (rest : List (Char × Style)) :
    restylePieces? (piece :: pieces) rest =
      if piece.length ≤ (rest.dropWhile (skipped piece)).length || pieces.isEmpty then
        (restylePieces? pieces ((rest.dropWhile (skipped piece)).drop piece.length)).map
          fun lines =>
            restyle (((rest.dropWhile (skipped piece)).take piece.length).map (·.1))
              (((rest.dropWhile (skipped piece)).take piece.length).map (·.2)) :: lines
      else none := rfl

/-- The ink goes to the piece or is left. -/
theorem ink_skipped (piece : List Char) (rest : List (Char × Style)) :
    ink ((rest.dropWhile (skipped piece)).take piece.length) ++
      ink ((rest.dropWhile (skipped piece)).drop piece.length) = ink rest := by
  rw [← ink_append, List.take_append_drop]
  exact ink_dropWhile fun _ hx => (Bool.and_eq_true_iff.1 hx).1

/-- Whatever is shown is there, in this order. -/
theorem inkOf_restylePieces? (h : restylePieces? pieces rest = some lines) :
    inkOf lines <+: ink rest := by
  induction pieces generalizing rest lines with
  | nil =>
    obtain rfl : [] = lines := by simpa [restylePieces?] using h
    exact List.nil_prefix
  | cons piece pieces ih =>
    rw [restylePieces?_cons] at h
    split at h
    · obtain ⟨lines', hlines', rfl⟩ := Option.map_eq_some_iff.1 h
      rw [inkOf_cons, chars_restyle, ← ink_skipped piece rest, List.prefix_append_right_inj]
      exact ih hlines'
    · cases h

/-- Where the pieces lie in a text, so that matching finds them. In front of each are blanks that it
does not begin with; behind a piece without characters all blanks are passed over, so the next piece
begins with ink. -/
inductive Laid : List (List Char) → List Char → Prop
  | nil {cs : List Char} (blank : ∀ c ∈ cs, isBlank c = true) : Laid [] cs
  | cons {gap piece cs : List Char} {pieces : List (List Char)}
      (passed : ∀ c ∈ gap, isBlank c = true ∧ piece.head? ≠ some c)
      (next : piece = [] → ∀ p ∈ pieces.head?, ∀ c ∈ p.head?, isBlank c = false)
      (rest : Laid pieces cs) : Laid (piece :: pieces) (gap ++ piece ++ cs)

/-- A piece with nothing in front of it. -/
theorem Laid.here (next : piece = [] → ∀ p ∈ pieces.head?, ∀ c ∈ p.head?, isBlank c = false)
    (rest : Laid pieces cs) : Laid (piece :: pieces) (piece ++ cs) :=
  have passed : ∀ c ∈ ([] : List Char), isBlank c = true ∧ piece.head? ≠ some c := by simp
  .cons passed next rest

/-- Blanks in front of a piece that begins with ink can be passed over. -/
theorem Laid.dropWhile (h : Laid pieces cs)
    (hink : ∀ p ∈ pieces.head?, ∀ c ∈ p.head?, isBlank c = false) :
    Laid pieces (cs.dropWhile isBlank) := by
  induction h with
  | nil blank =>
    exact .nil fun c hc => blank c ((List.dropWhile_sublist _).subset hc)
  | @cons gap piece cs pieces passed next rest ih =>
    rw [List.append_assoc, List.dropWhile_append_of_pos fun c hc => (passed c hc).1]
    cases piece with
    | nil => exact .here next (ih (next rfl))
    | cons c piece =>
      have hc : isBlank c = false := hink (c :: piece) rfl c rfl
      rw [List.cons_append, List.dropWhile_cons_of_neg (by simp [hc])]
      exact .here next rest

theorem map_dropWhile_fst (p : Char → Bool) (rest : List (Char × Style)) :
    (rest.dropWhile fun x => p x.1).map Prod.fst = (rest.map Prod.fst).dropWhile p := by
  induction rest with
  | nil => rfl
  | cons x rest ih => by_cases hx : p x.1 = true <;> simp [hx, ih]

/-- A piece that lies next in a text is found, and the others lie in what is left. -/
theorem Laid.found (h : Laid (piece :: pieces) (rest.map Prod.fst)) :
    piece.length ≤ (rest.dropWhile (skipped piece)).length ∧
      ((rest.dropWhile (skipped piece)).take piece.length).map Prod.fst = piece ∧
      Laid pieces (((rest.dropWhile (skipped piece)).drop piece.length).map Prod.fst) := by
  have hskip : (rest.dropWhile (skipped piece)).map Prod.fst =
      (rest.map Prod.fst).dropWhile fun c => isBlank c && piece.head? ≠ some c :=
    map_dropWhile_fst (fun c => isBlank c && piece.head? ≠ some c) rest
  rw [← List.length_map (f := Prod.fst), List.map_take, List.map_drop, hskip]
  generalize rest.map Prod.fst = cs at h
  cases h with
  | @cons gap _ cs _ passed next laid =>
    rw [List.append_assoc, List.dropWhile_append_of_pos (by simpa using passed)]
    cases piece with
    | nil => simpa using laid.dropWhile (next rfl)
    | cons c piece =>
      rw [List.cons_append, List.dropWhile_cons_of_neg (by simp)]
      simpa using laid

/-- **Matching finds the pieces that lie in a text**, and all of the ink with them. -/
theorem Laid.restylePieces? (h : Laid pieces (rest.map Prod.fst)) :
    ∃ lines, restylePieces? pieces rest = some lines ∧ inkOf lines = ink rest ∧
      lines.map (fun l => l.chars.map Prod.fst) = pieces := by
  induction pieces generalizing rest with
  | nil =>
    cases h with
    | nil blank => exact ⟨[], rfl, (ink_of_blank blank).symm, rfl⟩
  | cons piece pieces ih =>
    obtain ⟨hlength, hpiece, hlaid⟩ := h.found
    obtain ⟨lines, hlines, hink, hpieces⟩ := ih hlaid
    rw [restylePieces?_cons, if_pos (by simp [hlength]), hlines]
    refine ⟨_, rfl, ?_, ?_⟩
    · rw [inkOf_cons, chars_restyle, hink, ink_skipped]
    · rw [List.map_cons, chars_restyle, hpiece, hpieces]

/-! ### Texts whose pieces lie well -/

/-- Within a row, a space is followed by another space or by ink. -/
def IsEven (row : List Char) : Prop :=
  row.IsChain fun a b => a = ' ' → isBlank b = true → b = ' '

/-- A row that begins with a blank comes behind one that ends with something else than a space. -/
def HasEvenMargin (row next : List Char) : Prop :=
  next.head?.any isBlank = true → row.getLast?.any (· ≠ ' ') = true

/-- A text whose lines are found again, however it is filled. -/
def IsSteady (cs : List Char) : Prop :=
  (∀ row ∈ splitRows cs, IsEven row) ∧ (splitRows cs).IsChain HasEvenMargin

instance : DecidablePred IsEven := fun row =>
  inferInstanceAs (Decidable (row.IsChain fun a b => a = ' ' → isBlank b = true → b = ' '))

instance : DecidableRel HasEvenMargin := fun row next =>
  inferInstanceAs (Decidable (next.head?.any isBlank = true → row.getLast?.any (· ≠ ' ') = true))

instance : DecidablePred IsSteady := fun cs =>
  inferInstanceAs
    (Decidable ((∀ row ∈ splitRows cs, IsEven row) ∧ (splitRows cs).IsChain HasEvenMargin))

theorem head?_of_spaced {c : Char} (h : Spaced (piece :: pieces) row)
    (hc : piece.head? = some c) : row.head? = some c := by
  cases h with
  | last => simp [List.head?_append, hc]
  | cons => simp [List.head?_append, hc]

theorem isBlank_space : isBlank ' ' = true := rfl

/-- Blanks that are in front of a row are in front of what it begins with. -/
theorem passed_of_append {behind : List Char}
    (h : ∀ c ∈ gap, isBlank c = true ∧ (piece ++ behind).head? ≠ some c) :
    ∀ c ∈ gap, isBlank c = true ∧ piece.head? ≠ some c :=
  fun c hc => ⟨(h c hc).1, fun hp => (h c hc).2 (by simp [List.head?_append, hp])⟩

/-- The pieces of an even row lie in it, and with it in a text, if it is so in front of the row and
behind it. -/
theorem laid_of_spaced {more : List (List Char)} (h : Spaced pieces row) (heven : IsEven row)
    (hgap : ∀ c ∈ gap, isBlank c = true ∧ row.head? ≠ some c)
    (hmore : ∀ n, (0 < n → row.getLast? = some ' ') → Laid more (List.replicate n ' ' ++ tail))
    (hnext : row.getLast? = some ' ' → ∀ p ∈ more.head?, ∀ c ∈ p.head?, isBlank c = false) :
    Laid (pieces ++ more) (gap ++ row ++ tail) := by
  induction h generalizing gap with
  | @last piece n hempty =>
    have hlast : 0 < n → (piece ++ List.replicate n ' ').getLast? = some ' ' := by
      intro hn
      simp [List.getLast?_append, List.getLast?_replicate, hn.ne']
    have hlaid : Laid (piece :: more) (gap ++ piece ++ (List.replicate n ' ' ++ tail)) :=
      .cons (passed_of_append hgap) (fun hp => hnext (hlast (hempty hp))) (hmore n hlast)
    simpa using hlaid
  | @cons piece next pieces cs n hempty hbehind spaced ih =>
    have hblank : ∀ c ∈ List.replicate n ' ', isBlank c = true ∧ cs.head? ≠ some c := by
      intro c hc
      obtain ⟨hn, rfl⟩ := List.mem_replicate.1 hc
      obtain ⟨d, hd, hne⟩ := hbehind (Nat.pos_of_ne_zero hn)
      rw [head?_of_spaced spaced hd]
      exact ⟨isBlank_space, by simpa using hne⟩
    have hend : cs.getLast? = some ' ' →
        (piece ++ List.replicate n ' ' ++ cs).getLast? = some ' ' := by
      intro hcs
      simp [List.getLast?_append, hcs]
    have hrest := ih (List.isChain_append.1 heven).2.1 hblank
      (fun m hm => hmore m fun hpos => hend (hm hpos)) fun hcs => hnext (hend hcs)
    rw [List.append_assoc] at hgap
    have hlaid : Laid (piece :: (next :: pieces ++ more))
        (gap ++ piece ++ (List.replicate n ' ' ++ cs ++ tail)) :=
      .cons (passed_of_append hgap) ?_ hrest
    · simpa using hlaid
    · -- Behind a piece without characters there are blanks, and ink behind them.
      intro hp p hmem c hc
      obtain rfl : next = p := by simpa using hmem
      obtain ⟨d, hd, hne⟩ := hbehind (hempty hp)
      obtain rfl : d = c := Option.some.inj (hd.symm.trans hc)
      by_contra hblank
      refine hne ((List.isChain_append.1 heven).2.2 ' ' ?_ d ?_ rfl (by simpa using hblank))
      · have hn := hempty hp
        simp [List.getLast?_append, List.getLast?_replicate, hn.ne']
      · exact head?_of_spaced spaced hd

/-- The lines that a row is filled with lie in it. -/
theorem laid_fillRow {more : List (List Char)} (hwidth : 0 < width) (heven : IsEven row)
    (hgap : ∀ c ∈ gap, isBlank c = true ∧ row.head? ≠ some c)
    (hmore : ∀ n, (0 < n → row.getLast? = some ' ') → Laid more (List.replicate n ' ' ++ tail))
    (hnext : row.getLast?.any (· ≠ ' ') = false →
      ∀ p ∈ more.head?, ∀ c ∈ p.head?, isBlank c = false) :
    Laid (fillRow width row ++ more) (gap ++ row ++ tail) := by
  by_cases hrow : row = []
  · subst hrow
    rw [Text.fillRow_nil hwidth]
    exact .cons (fun c hc => ⟨(hgap c hc).1, by simp⟩) (fun _ => hnext rfl) (hmore 0 (by simp))
  · exact laid_of_spaced (Text.spaced_fillRow width hrow) heven hgap hmore
      fun hlast => hnext (by simp [hlast])

/-- The lines of the first row come first, and begin as the row does. -/
theorem head?_of_fillRow {rows : List (List Char)} {c : Char} (hwidth : 0 < width)
    (hp : piece ∈ ((row :: rows).flatMap (fillRow width)).head?) (hc : piece.head? = some c) :
    row.head? = some c := by
  rw [List.flatMap_cons] at hp
  by_cases hrow : row = []
  · subst hrow
    rw [Text.fillRow_nil hwidth] at hp
    obtain rfl : [] = piece := by simpa using hp
    cases hc
  · have hspaced := Text.spaced_fillRow width hrow
    cases hfill : fillRow width row with
    | nil =>
      rw [hfill] at hspaced
      cases hspaced
    | cons first pieces =>
      rw [hfill] at hp hspaced
      obtain rfl : first = piece := by simpa using hp
      exact head?_of_spaced hspaced hc

/-- The lines of the rows of a text lie in it, behind blanks that the first row does not begin
with. -/
theorem laid_rows {rows : List (List Char)} (hwidth : 0 < width)
    (heven : ∀ row ∈ rows, IsEven row) (hmargin : rows.IsChain HasEvenMargin)
    (hrows : ∀ row ∈ rows, '\n' ∉ row)
    (hgap : ∀ c ∈ gap, isBlank c = true ∧ ∀ row ∈ rows.head?, row.head? ≠ some c) :
    Laid (rows.flatMap (fillRow width)) (gap ++ ['\n'].intercalate rows) := by
  induction rows generalizing gap with
  | nil => exact .nil (by simpa using fun c hc => (hgap c hc).1)
  | cons row rows ih =>
    simp only [List.forall_mem_cons] at heven hrows
    have hgap' : ∀ c ∈ gap, isBlank c = true ∧ row.head? ≠ some c :=
      fun c hc => ⟨(hgap c hc).1, (hgap c hc).2 row rfl⟩
    cases rows with
    | nil =>
      have hlaid : Laid (fillRow width row ++ []) (gap ++ row ++ []) :=
        laid_fillRow hwidth heven.1 hgap' (fun n _ => .nil (by simp [isBlank_space])) (by simp)
      simpa using hlaid
    | cons next rows =>
      obtain ⟨hfirst, hrest⟩ := List.isChain_cons_cons.1 hmargin
      have hlaid : Laid (fillRow width row ++ (next :: rows).flatMap (fillRow width))
          (gap ++ row ++ '\n' :: ['\n'].intercalate (next :: rows)) :=
        laid_fillRow hwidth heven.1 hgap' ?_ ?_
      · simpa [List.intercalate_cons_cons] using hlaid
      · -- The next row comes behind the spaces at the end of this one and the line feed.
        intro n hn
        have hbehind : Laid ((next :: rows).flatMap (fillRow width))
            (List.replicate n ' ' ++ ['\n'] ++ ['\n'].intercalate (next :: rows)) :=
          ih heven.2 hrest hrows.2 ?_
        · simpa using hbehind
        · intro c hc
          rcases List.mem_append.1 hc with hc | hc
          · obtain ⟨hpos, rfl⟩ := List.mem_replicate.1 hc
            refine ⟨isBlank_space, fun r hr hhead => ?_⟩
            obtain rfl : next = r := by simpa using hr
            have := hfirst (by rw [hhead]; rfl)
            rw [hn (Nat.pos_of_ne_zero hpos)] at this
            simp at this
          · obtain rfl := List.mem_singleton.1 hc
            refine ⟨rfl, fun r hr hhead => ?_⟩
            obtain rfl : next = r := by simpa using hr
            exact hrows.2 next (by simp) (List.mem_of_head? hhead)
      · intro hlast p hp c hc
        by_contra hblank
        have := hfirst (by simpa [head?_of_fillRow hwidth hp hc] using hblank)
        rw [hlast] at this
        cases this

theorem IsSteady.laid_fill (h : IsSteady cs) (hwidth : 0 < width) : Laid (fill width cs) cs := by
  have hlaid : Laid (fill width cs) ([] ++ ['\n'].intercalate (splitRows cs)) :=
    laid_rows hwidth h.1 h.2 (fun _ => Text.lineFeed_notMem_row) (by simp)
  rwa [List.nil_append, Text.intercalate_splitRows] at hlaid

/-! ### Wrapping -/

theorem inkOf_wrapLine? {l : Line} (h : wrapLine? width l = some lines) :
    inkOf lines <+: ink l.chars := by
  unfold wrapLine? at h
  dsimp only at h
  split at h
  · obtain rfl := Option.some.inj h
    simp [inkOf]
  · exact inkOf_restylePieces? h

/-- A line that fits or is steady is wrapped, and all of its ink is shown. -/
theorem wrapLine?_of_steady {l : Line} (hwidth : 0 < width)
    (h : l.chars.length ≤ width ∨ IsSteady (l.chars.map Prod.fst)) :
    ∃ lines, wrapLine? width l = some lines ∧ inkOf lines = ink l.chars := by
  unfold wrapLine?
  dsimp only
  split
  · exact ⟨[l], rfl, by simp [inkOf]⟩
  next hlong =>
    obtain ⟨lines, hlines, hink, -⟩ := ((h.resolve_left hlong).laid_fill hwidth).restylePieces?
    exact ⟨lines, hlines, hink⟩

theorem inkOf_wrapAll? (h : wrapAll? width lines = some out) :
    (inkOf out).Sublist (inkOf lines) := by
  induction lines generalizing out with
  | nil =>
    obtain rfl := Option.some.inj h
    exact .refl _
  | cons l lines ih =>
    obtain ⟨first, hfirst, h⟩ := Option.bind_eq_some_iff.1 h
    obtain ⟨others, hothers, h⟩ := Option.bind_eq_some_iff.1 h
    obtain rfl := Option.some.inj h
    rw [inkOf_append, inkOf_cons]
    exact (inkOf_wrapLine? hfirst).sublist.append (ih hothers)

theorem wrapAll?_of_steady (hwidth : 0 < width)
    (h : ∀ l ∈ lines, l.chars.length ≤ width ∨ IsSteady (l.chars.map Prod.fst)) :
    ∃ out, wrapAll? width lines = some out ∧ inkOf out = inkOf lines := by
  induction lines with
  | nil => exact ⟨[], rfl, rfl⟩
  | cons l lines ih =>
    simp only [List.forall_mem_cons] at h
    obtain ⟨first, hfirst, hink⟩ := wrapLine?_of_steady hwidth h.1
    obtain ⟨others, hothers, hinks⟩ := ih h.2
    refine ⟨first ++ others, by simp [wrapAll?, hfirst, hothers], ?_⟩
    rw [inkOf_append, inkOf_cons, hink, hinks]

/-- **Wrapping keeps the ink.** Whatever is shown is part of the text, in its order and its styles;
and lines that fit or are steady are wrapped to any width, and show all of it. -/
theorem wrapping_keeps_ink (lines : List Line) (width : Nat) :
    (∀ out, wrapLines? lines width = some out → (inkOf out).Sublist (inkOf lines)) ∧
      ((∀ l ∈ lines, l.chars.length ≤ width ∨ IsSteady (l.chars.map Prod.fst)) →
        ∃ out, wrapLines? lines width = some out ∧ inkOf out = inkOf lines) := by
  unfold wrapLines?
  split
  · refine ⟨fun out h => ?_, fun _ => ⟨lines, rfl, rfl⟩⟩
    obtain rfl := Option.some.inj h
    exact .refl _
  next hwidth =>
    exact ⟨fun out => inkOf_wrapAll?, wrapAll?_of_steady (Nat.pos_of_ne_zero hwidth)⟩

/-- A steady line of two rows, one that loses a word, and one that cannot be wrapped. -/
theorem wrapping_trips_over_margins :
    (∃ out, wrapLines? [.styled "the quick\nbrown  fox" .plain] 9 = some out ∧
      inkOf out = inkOf [.styled "the quick\nbrown  fox" .plain]) ∧
    (∃ out, wrapLines? [.styled "foo  \n  bar" .plain] 8 = some out ∧
      inkOf out ≠ inkOf [.styled "foo  \n  bar" .plain]) ∧
    wrapLines? [.styled "\n  ab\n" .plain] 5 = none := by
  refine ⟨(wrapping_keeps_ink _ 9).2 ?_, ⟨[.styled "foo" .plain, .styled "  \n  " .plain], ?_, ?_⟩, ?_⟩
  · decide +kernel
  · decide +kernel
  · decide +kernel
  · decide +kernel

end PublisherConsole.Screen
