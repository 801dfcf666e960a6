import PublisherConsole.Proofs.Markdown.LineEnds.Links
import PublisherConsole.Proofs.Unicode.Tables

/-!
# Labels in a text with carriage returns

A label is cut off behind `labelLimit` characters, and carriage returns count. A backslash at the end of a line
escapes the character behind it, which is the carriage return then: such a label reads differently, but no
definition has it, with carriage returns or without, unless a line end is escaped in the label of a definition
itself. `Source.HasPlainLabels` says that carriage returns cut off no label, and that none of the labels of
definitions has such a line end.

* `Source.Relates.reads` goes through a label with and without carriage returns: what each step keeps,
  holds of what is read;
* `definedLabel?_crlf`: the label of a definition is read as before;
* `sameLabel_referenceLabel?`: the label of a reference is read as before, or it is none of a definition in
  either case (`IsOneLine`).
-/

namespace PublisherConsole.Markdown

variable {s : Source} {i j k b n n' count : Nat} {c : Char} {path : List Container}
  {cross cross' : Nat → Option Nat} {acc acc' label label' : List Char}

/-! ### Stretches without brackets -/

namespace Source

/-- Every square bracket of a stretch is behind a backslash. -/
def IsClear (s : Source) (i j : Nat) : Prop :=
  ∀ k, i ≤ k → k < j → s.char? k = some '[' ∨ s.char? k = some ']' → s.char? (k - 1) = some '\\'

namespace IsClear

theorem refl (s : Source) (i : Nat) : s.IsClear i i := fun _ low high => absurd low (Nat.not_le.2 high)

theorem trans (h : s.IsClear i j) (h' : s.IsClear j k) : s.IsClear i k := fun m low high bracket => by
  rcases Nat.lt_or_ge m j with lt | ge
  · exact h m low lt bracket
  · exact h' m ge high bracket

theorem of_any {p : Char → Bool} (opening : p '[' = false) (closing : p ']' = false)
    (h : ∀ k, i ≤ k → k < j → (s.char? k).any p = true) : s.IsClear i j := fun k low high bracket => by
  have holds := h k low high
  rcases bracket with here | here
  · rw [here, Option.any_some, opening] at holds
    cases holds
  · rw [here, Option.any_some, closing] at holds
    cases holds

theorem char (here : s.char? i = some c) (opening : c ≠ '[') (closing : c ≠ ']') : s.IsClear i (i + 1) :=
  of_any (p := (· = c)) (decide_eq_false opening.symm) (decide_eq_false closing.symm) fun k low high => by
    rw [show k = i by omega, here, Option.any_some, decide_eq_true rfl]

theorem lineEnd (ended : s.lineEnd? i = some j) : s.IsClear i j := by
  refine of_any (p := isLineEnd) rfl rfl fun k low high => ?_
  rw [lineEnd?] at ended
  split at ended
  next =>
    obtain rfl := Option.some.inj ended
    omega
  next here =>
    obtain rfl := Option.some.inj ended
    rw [show k = i by omega, here]
    rfl
  next here =>
    obtain rfl := Option.some.inj ended
    split at high
    next feed =>
      rcases Nat.eq_or_lt_of_le low with rfl | lt
      · rw [here]
        rfl
      · rw [show k = i + 1 by omega, of_decide_eq_true feed]
        rfl
    next =>
      rw [show k = i by omega, here]
      rfl
  next => cases ended

/-- A margin has no brackets. -/
theorem ofLine (s : Source) (path : List Container) (i : Nat) : s.IsClear i (Margin.ofLine s path i).2.place :=
  of_any (p := Margin.isSign) rfl rfl fun _ low high => Margin.any_ofLine path low high

end IsClear

end Source

/-- Two ways to go on in the next line that skip no brackets and never go back, and do the same. -/
structure Source.Crosses (s : Source) (cross cross' : Nat → Option Nat) : Prop where
  shift : ∀ i, cross' (s.shift i) = (cross i).map s.shift
  ahead : ∀ i j, cross i = some j → i ≤ j ∧ s.IsClear i j
  ahead' : ∀ i j, cross' i = some j → i ≤ j ∧ s.crlf.IsClear i j

/-- Only blanks and the signs of quotes are between two places. -/
def Source.IsBare (s : Source) (i j : Nat) : Prop :=
  ∀ k, i ≤ k → k < j → (s.char? k).any (fun c => isInlineBlank c || c = '>') = true

/-- Carriage returns make no difference to what the label that starts at a place defines or refers to: if it ends
in time, it does so with carriage returns too; and if a line end is escaped in it, it is not the label of a
definition, and more than a margin is in the next line. -/
def Source.HasPlainLabel (s : Source) (b : Nat) : Prop :=
  ∀ j, b ≤ j → s.char? j = some ']' → s.IsClear b j → j - b ≤ labelLimit →
    s.shift j - s.shift b ≤ labelLimit ∧
      ∀ k, b ≤ k → k < j → s.char? k = some '\\' → s.char? (k + 1) = some '\n' →
        s.char? (j + 1) ≠ some ':' ∧ ∀ m, k + 1 < m → m < j → s.char? m = some '\n' → ¬ s.IsBare (k + 2) m

/-- Carriage returns make no difference to the label behind any bracket of a source. -/
def Source.HasPlainLabels (s : Source) : Prop := ∀ i, s.char? i = some '[' → s.HasPlainLabel (i + 1)

/-- Without brackets there are no labels. -/
theorem Source.HasPlainLabels.of_notMem (h : '[' ∉ s.chars.toList) : s.HasPlainLabels := by
  intro i bracket
  rw [Source.char?, if_pos (Source.lt_stop bracket)] at bracket
  exact absurd (Array.mem_toList_iff.2 (Array.mem_of_getElem? bracket)) h

theorem Source.HasPlainLabels.upTo (h : s.HasPlainLabels) (stop : Nat) : (s.upTo stop).HasPlainLabels := by
  intro i bracket j low close clear near
  have seen (k : Nat) (high : k < j) : (s.upTo stop).char? k = s.char? k := by
    have inside : j < min stop s.stop := Source.lt_stop close
    rw [Source.char?, Source.char?, if_pos (show k < (s.upTo stop).stop from Nat.lt_trans high inside),
      if_pos (show k < s.stop by omega)]
    rfl
  have clear : s.IsClear (i + 1) j := fun k low high => by
    rw [← seen k high, ← seen (k - 1) (Nat.lt_of_le_of_lt (Nat.sub_le k 1) high)]
    exact clear k low high
  obtain ⟨near', escapes⟩ := h i (Source.char?_of_upTo bracket) j low (Source.char?_of_upTo close) clear near
  refine ⟨near', fun k low lt slash feed => ?_⟩
  obtain ⟨colon, text⟩ := escapes k low lt (Source.char?_of_upTo slash) (Source.char?_of_upTo feed)
  refine ⟨fun here => colon (Source.char?_of_upTo here), fun m low high here bare => ?_⟩
  refine text m low high (Source.char?_of_upTo here) fun x low' high' => ?_
  rw [← seen x (Nat.lt_trans high' high)]
  exact bare x low' high'

/-! ### Where labels end -/

theorem labelBlanks?_of_end (here : s.char? i = none) (n : Nat) (crossed : Bool) :
    labelBlanks? s cross n i crossed = some i := by
  cases n with
  | zero => rfl
  | succ n => rw [labelBlanks?, here]

/-- Skipping white space goes on, and skips no brackets. -/
theorem ahead_of_labelBlanks? (ahead : ∀ i j, cross i = some j → i ≤ j ∧ s.IsClear i j) {crossed : Bool}
    (read : labelBlanks? s cross n i crossed = some j) : i ≤ j ∧ s.IsClear i j := by
  have stays {i : Nat} (read : some i = some j) : i ≤ j ∧ s.IsClear i j :=
    Option.some.inj read ▸ ⟨Nat.le_refl _, .refl s _⟩
  induction n generalizing i crossed with
  | zero => exact stays read
  | succ n ih =>
    rw [labelBlanks?] at read
    cases here : s.char? i with
    | none =>
      rw [here] at read
      exact stays read
    | some c =>
      rw [here] at read
      dsimp only at read
      split at read
      · split at read
        · cases read
        · cases ended : s.lineEnd? i with
          | none =>
            rw [ended] at read
            exact stays read
          | some behind =>
            rw [ended] at read
            obtain ⟨next, line, read⟩ := Option.bind_eq_some_iff.1 read
            obtain ⟨low, clear⟩ := ahead _ _ line
            obtain ⟨low', clear'⟩ := ih read
            exact ⟨Nat.le_trans (Nat.le_of_lt (Source.lt_of_lineEnd? here ended)) (Nat.le_trans low low'),
              (Source.IsClear.lineEnd ended).trans (clear.trans clear')⟩
      · split at read
        next blank =>
          obtain ⟨low, clear⟩ := ih read
          have sign : c ≠ '[' ∧ c ≠ ']' := by
            constructor <;> rintro rfl <;> cases blank
          exact ⟨Nat.le_of_succ_le low, (Source.IsClear.char here sign.1 sign.2).trans clear⟩
        next => exact stays read

/-- White space is skipped by at least one place. -/
theorem lt_of_labelBlanks? (ahead : ∀ i j, cross i = some j → i ≤ j ∧ s.IsClear i j) (here : s.char? i = some c)
    (blank : isAnyBlank c = true) (read : labelBlanks? s cross (n + 1) i false = some j) : i < j := by
  rw [labelBlanks?, here] at read
  dsimp only at read
  split at read
  next line =>
    rw [if_neg Bool.false_ne_true] at read
    cases ended : s.lineEnd? i with
    | none =>
      have line : c = '\n' ∨ c = '\r' := by simpa [isLineEnd] using line
      rw [Source.lineEnd?, here] at ended
      rcases line with rfl | rfl <;> cases ended
    | some behind =>
      rw [ended] at read
      obtain ⟨next, line, read⟩ := Option.bind_eq_some_iff.1 read
      exact Nat.lt_of_lt_of_le (Source.lt_of_lineEnd? here ended)
        (Nat.le_trans (ahead _ _ line).1 (ahead_of_labelBlanks? ahead read).1)
  next line =>
    have inside : isInlineBlank c = true := by
      simp only [isAnyBlank, isLineEnd, Bool.or_eq_true, not_or] at blank line
      exact (blank.resolve_right line.2).resolve_right line.1
    rw [if_pos inside] at read
    exact Nat.lt_of_succ_le (ahead_of_labelBlanks? ahead read).1

theorem labelFrom?_of_end (here : s.char? i = none) (n : Nat) : labelFrom? s cross n i count acc = none := by
  cases n with
  | zero => rfl
  | succ n =>
    rw [labelFrom?, here]
    split <;> rfl

theorem labelFrom?_of_lt (late : labelLimit < count) (n : Nat) : labelFrom? s cross n i count acc = none := by
  cases n with
  | zero => rfl
  | succ n => rw [labelFrom?, if_pos late]

theorem labelFrom?_of_blank (early : count ≤ labelLimit) (here : s.char? i = some c) (blank : isAnyBlank c = true) :
    labelFrom? s cross (n + 1) i count acc = (labelBlanks? s cross (s.stop + 1 - i) i false).bind fun next =>
      labelFrom? s cross n next (count + (next - i)) (' ' :: acc) := by
  rw [labelFrom?, if_neg (Nat.not_lt.2 early), here]
  split
  next none => cases none
  next same => cases Option.some.inj same; cases blank
  next same => cases Option.some.inj same; cases blank
  next same => cases Option.some.inj same; cases blank
  next same =>
    obtain rfl := Option.some.inj same
    rw [if_pos blank]

/-- A label ends with the first bracket that is not behind a backslash, and in time. -/
theorem stop_of_labelFrom? (ahead : ∀ i j, cross i = some j → i ≤ j ∧ s.IsClear i j) {r : List Char × Nat}
    (read : labelFrom? s cross n i count acc = some r) :
    ∃ j, r.2 = j + 1 ∧ i ≤ j ∧ s.char? j = some ']' ∧ s.IsClear i j ∧ count + (j - i) ≤ labelLimit := by
  induction n generalizing i count acc with
  | zero => cases read
  | succ n ih =>
    rw [labelFrom?] at read
    split at read
    · cases read
    next few =>
      split at read
      · cases read
      · cases read
      next here =>
        split at read
        · cases read
        · exact ⟨i, congrArg Prod.snd (Option.some.inj read).symm, Nat.le_refl i, here, .refl s i, by omega⟩
      next slash =>
        obtain ⟨c, next, read⟩ := Option.bind_eq_some_iff.1 read
        obtain ⟨j, stop, low, here, clear, limit⟩ := ih read
        have escape : s.IsClear (i + 1) (i + 2) := fun k low high _ => by
          rwa [show k - 1 = i by omega]
        exact ⟨j, stop, by omega, here,
          ((Source.IsClear.char slash (by decide) (by decide)).trans escape).trans clear,
          by omega⟩
      next c opening closing _ same =>
        split at read
        next blank =>
          obtain ⟨next, blanks, read⟩ := Option.bind_eq_some_iff.1 read
          obtain ⟨low, clear⟩ := ahead_of_labelBlanks? ahead blanks
          obtain ⟨j, stop, low', here, clear', limit⟩ := ih read
          exact ⟨j, stop, by omega, here, clear.trans clear', by omega⟩
        next =>
          obtain ⟨j, stop, low, here, clear, limit⟩ := ih read
          have sign : s.IsClear i (i + 1) := .char same opening closing
          exact ⟨j, stop, by omega, here, sign.trans clear, by omega⟩

/-! ### White space in labels -/

theorem isLineEnd_of_isInlineBlank (blank : isInlineBlank c = true) : isLineEnd c = false := by
  refine isLineEnd_of_ne ?_ ?_ <;> rintro rfl <;> cases blank

theorem any_isAnyBlank (o : Option Char) : o.any isAnyBlank = (o.any isInlineBlank || o.any isLineEnd) := by
  cases o with
  | none => rfl
  | some c => exact Bool.or_assoc ..

/-- Skipping white space ends in front of a character that is none, or there. -/
theorem Source.skip_le_of_text (text : (s.char? j).any isAnyBlank = false) (le : i ≤ j) :
    s.skip isInlineBlank i ≤ j := by
  by_contra beyond
  have inside := Source.of_lt_skip (p := isInlineBlank) le (Nat.not_le.1 beyond)
  rw [any_isAnyBlank, inside] at text
  cases text

theorem Source.lt_skip_of_char (here : s.char? i = some c) (blank : isInlineBlank c = true) :
    i < s.skip isInlineBlank i := by
  rw [Source.skip_eq, here, Option.any_some, if_pos blank]
  exact s.le_skip _ _

/-- White space is skipped up to where it ends, but over no second line end. -/
theorem labelBlanks?_eq {crossed : Bool} (enough : s.stop ≤ i + n)
    (h : crossed = true ∨ (s.char? (s.skip isInlineBlank i)).any isLineEnd = false) :
    labelBlanks? s cross n i crossed =
      if (s.char? (s.skip isInlineBlank i)).any isLineEnd then none else some (s.skip isInlineBlank i) := by
  have stay {i : Nat} (here : (s.char? i).any isInlineBlank = false) : s.skip isInlineBlank i = i := by
    rw [Source.skip_eq, here, if_neg Bool.false_ne_true]
  induction n generalizing i with
  | zero =>
    have here : s.char? i = none := by rw [Source.char?, if_neg (by omega)]
    rw [labelBlanks?, stay (by rw [here]; rfl), here]
    rfl
  | succ n ih =>
    rw [labelBlanks?]
    cases here : s.char? i with
    | none =>
      rw [stay (by rw [here]; rfl), here]
      rfl
    | some c =>
      dsimp only
      cases blank : isInlineBlank c with
      | true =>
        have next : s.skip isInlineBlank i = s.skip isInlineBlank (i + 1) := by
          rw [Source.skip_eq, here, Option.any_some, if_pos blank]
        rw [next] at h ⊢
        rw [isLineEnd_of_isInlineBlank blank, if_neg Bool.false_ne_true, if_pos rfl]
        exact ih (by omega) h
      | false =>
        rw [stay (by rw [here]; exact blank), here, Option.any_some] at h ⊢
        cases line : isLineEnd c with
        | true =>
          obtain rfl : crossed = true := h.resolve_right (by simp [line])
          rfl
        | false => rfl

/-- In front of a line end white space goes on in the next line. -/
theorem labelBlanks?_of_feed (here : s.char? i = some '\n') :
    labelBlanks? s cross (n + 1) i false = (cross (i + 1)).bind fun next => labelBlanks? s cross n next true := by
  rw [labelBlanks?, here, Source.lineEnd?, here]
  rfl

/-- White space is one blank of a label, if no line ends behind it. -/
theorem labelFrom?_of_inlineBlank (early : i - b ≤ labelLimit) (low : b ≤ i) (here : s.char? i = some c)
    (blank : isInlineBlank c = true) (line : (s.char? (s.skip isInlineBlank i)).any isLineEnd = false) :
    labelFrom? s cross (n + 1) i (i - b) acc =
      labelFrom? s cross n (s.skip isInlineBlank i) (s.skip isInlineBlank i - b) (' ' :: acc) := by
  have any : isAnyBlank c = true := by rw [isAnyBlank, blank]; rfl
  have low' := s.le_skip isInlineBlank i
  rw [labelFrom?_of_blank early here any, labelBlanks?_eq (by omega) (.inr line), line,
    if_neg Bool.false_ne_true, Option.bind_some, show i - b + (s.skip isInlineBlank i - i) = s.skip isInlineBlank i - b by omega]

/-! ### Bare stretches -/

theorem Source.IsBare.isClear (h : s.IsBare i j) : s.IsClear i j := .of_any rfl rfl h

/-- Up to a character that is not white space, no line ends where all is bare. -/
theorem Source.IsBare.any_isLineEnd (bare : s.IsBare i j) (text : (s.char? j).any isAnyBlank = false) (low : i ≤ k)
    (le : k ≤ j) : (s.char? k).any isLineEnd = false := by
  rcases Nat.eq_or_lt_of_le le with rfl | lt
  · rw [any_isAnyBlank] at text
    exact (Bool.or_eq_false_iff.1 text).2
  · obtain ⟨c, here, sign⟩ := (Option.any_eq_true _ _).1 (bare k low lt)
    rw [here, Option.any_some]
    rcases Bool.or_eq_true_iff.1 sign with blank | quote
    · exact isLineEnd_of_isInlineBlank blank
    · rw [of_decide_eq_true quote]
      rfl

/-- Where the text of a line begins. -/
def Source.textStart (s : Source) (path : List Container) (i : Nat) : Nat :=
  s.skip isInlineBlank (skipMargin s path i)

theorem Source.le_textStart (path : List Container) (i : Nat) : i ≤ s.textStart path i :=
  Nat.le_trans (Margin.le_place_ofLine path i) (s.le_skip _ _)

theorem Source.isBare_textStart (path : List Container) (i : Nat) : s.IsBare i (s.textStart path i) := by
  intro k low high
  rcases Nat.lt_or_ge k (skipMargin s path i) with margin | behind
  · obtain ⟨c, here, sign⟩ := (Option.any_eq_true _ _).1 (Margin.any_ofLine path low margin)
    rw [here, Option.any_some]
    simp only [Margin.isSign, isInlineBlank, Bool.or_eq_true] at sign ⊢
    tauto
  · obtain ⟨c, here, blank⟩ := (Option.any_eq_true _ _).1 (Source.of_lt_skip behind high)
    rw [here, Option.any_some, blank]
    rfl

/-- Where a line end was escaped, the margin of the next line is read as it stands. -/
theorem exists_labelFrom?_of_isBare (cross : Nat → Option Nat) (bare : s.IsBare i j) (le : i ≤ j)
    (text : (s.char? j).any isAnyBlank = false) (low : b ≤ i) (enough : s.stop ≤ i + n) (feed : '\n' ∈ acc) :
    ∃ m acc', '\n' ∈ acc' ∧ s.stop ≤ j + m ∧
      labelFrom? s cross n i (i - b) acc = labelFrom? s cross m j (j - b) acc' := by
  induction left : j - i using Nat.strong_induction_on generalizing i n acc with
  | _ left ih =>
  rcases Nat.eq_or_lt_of_le le with rfl | lt
  · exact ⟨n, acc, feed, enough, rfl⟩
  obtain ⟨c, here, sign⟩ := (Option.any_eq_true _ _).1 (bare i (Nat.le_refl i) lt)
  have bound := Source.lt_stop here
  obtain ⟨n, rfl⟩ : ∃ m, n = m + 1 := ⟨n - 1, by omega⟩
  have rest {k : Nat} (low : i ≤ k) : s.IsBare k j := fun m from' high => bare m (by omega) high
  by_cases late : labelLimit < i - b
  · refine ⟨s.stop, acc, feed, by omega, ?_⟩
    rw [labelFrom?_of_lt late, labelFrom?_of_lt (by omega)]
  rcases Bool.or_eq_true_iff.1 sign with blank | quote
  · -- All the blanks at once, which end in front of `j` or there.
    have next := Source.skip_le_of_text text le
    have line := bare.any_isLineEnd text (s.le_skip isInlineBlank i) next
    have lt' := Source.lt_skip_of_char here blank
    rw [labelFrom?_of_inlineBlank (Nat.not_lt.1 late) low here blank line]
    exact ih _ (by omega) (rest (Nat.le_of_lt lt')) next (by omega) (by omega) (List.mem_cons_of_mem _ feed) rfl
  · obtain rfl := of_decide_eq_true quote
    have read : labelFrom? s cross (n + 1) i (i - b) acc = labelFrom? s cross n (i + 1) (i + 1 - b) ('>' :: acc) := by
      rw [labelFrom?, if_neg late, here, show i + 1 - b = i - b + 1 by omega]
      rfl
    rw [read]
    exact ih _ (by omega) (rest (Nat.le_succ i)) lt (by omega) (by omega) (List.mem_cons_of_mem _ feed) rfl

/-! ### Labels in one line -/

/-- No line end is in a label. -/
def IsOneLine (label : List Char) : Prop := '\n' ∉ label ∧ '\r' ∉ label

theorem IsOneLine.cons (h : IsOneLine acc) (feed : c ≠ '\n') (plain : c ≠ '\r') : IsOneLine (c :: acc) := by
  simp [IsOneLine, feed.symm, plain.symm, h.1, h.2]

theorem mem_dropWhile_blank_iff (h : c ≠ ' ') (cs : List Char) : c ∈ cs.dropWhile (· = ' ') ↔ c ∈ cs := by
  conv_rhs => rw [← List.takeWhile_append_dropWhile (p := (· = ' ')) (l := cs)]
  have notMem : c ∉ cs.takeWhile (· = ' ') := fun mem => h (by simpa using List.mem_takeWhile_imp mem)
  rw [List.mem_append, or_iff_right notMem]

/-- The normal form of a label has the line ends that the label has. -/
theorem mem_normal_iff (h : c = '\n' ∨ c = '\r') (cs : List Char) :
    c ∈ Unicode.foldCase (trimBlanks cs) ↔ c ∈ cs := by
  have blank : c ≠ ' ' := by rcases h with rfl | rfl <;> decide
  rw [Unicode.mem_foldCase_iff h, trimBlanks, List.mem_reverse, mem_dropWhile_blank_iff blank, List.mem_reverse,
    mem_dropWhile_blank_iff blank]

theorem isOneLine_normal_iff (cs : List Char) : IsOneLine (Unicode.foldCase (trimBlanks cs)) ↔ IsOneLine cs := by
  rw [IsOneLine, mem_normal_iff (.inl rfl), mem_normal_iff (.inr rfl), IsOneLine]

/-- A label that is read at a place, without carriage returns and with them: it is the same, or it is in more than
one line in either case. -/
inductive Source.SameLabel (s : Source) : Option (List Char × Nat) → Option (List Char × Nat) → Prop
  | missing : SameLabel s none none
  | same (label : List Char) (j : Nat) : SameLabel s (some (label, j)) (some (label, s.shift j))
  | other {label label' : List Char} (h : ¬ IsOneLine label) (h' : ¬ IsOneLine label') (j : Nat) :
    SameLabel s (some (label, j)) (some (label', s.shift j))

theorem Source.SameLabel.normal {r r' : Option (List Char × Nat)} (h : s.SameLabel r r') :
    s.SameLabel (r.map fun (cs, stop) => (Unicode.foldCase (trimBlanks cs), stop))
      (r'.map fun (cs, stop) => (Unicode.foldCase (trimBlanks cs), stop)) := by
  cases h with
  | missing => exact .missing
  | same label j => exact .same _ j
  | other h h' j => exact .other (mt (isOneLine_normal_iff _).1 h) (mt (isOneLine_normal_iff _).1 h') j

/-! ### Labels that are not read -/

/-- A label whose limit is used up by carriage returns does not end without them either. -/
theorem labelFrom?_of_late (h : s.Crosses cross cross') (plain : s.HasPlainLabel b) (low : b ≤ i)
    (clear : s.IsClear b i) (late : labelLimit < s.shift i - s.shift b) :
    labelFrom? s cross n i (i - b) acc = none := by
  by_contra read
  obtain ⟨r, read⟩ := Option.ne_none_iff_exists'.1 read
  obtain ⟨j, -, further, here, clear', limit⟩ := stop_of_labelFrom? h.ahead read
  have near := (plain j (Nat.le_trans low further) here (clear.trans clear') (by omega)).1
  have := (Source.shift_le_iff (s := s)).2 further
  omega

/-- Nothing is read of a label with an escaped line end if the next line is bare. -/
theorem labelFrom?_of_bare (h : s.Crosses cross cross') (plain : s.HasPlainLabel b) (low : b ≤ i)
    (clear : s.IsClear b (i + 2)) (slash : s.char? i = some '\\') (feed : s.char? (i + 1) = some '\n')
    (bare : s.IsBare (i + 2) j) (le : i + 2 ≤ j) (here : s.char? j = some '\n') :
    labelFrom? s cross n (i + 2) (i + 2 - b) acc = none := by
  by_contra read
  obtain ⟨r, read⟩ := Option.ne_none_iff_exists'.1 read
  obtain ⟨k, -, further, close, clear', limit⟩ := stop_of_labelFrom? h.ahead read
  have before : j < k := by
    rcases Nat.lt_trichotomy k j with lt | rfl | lt
    · have sign := bare k further lt
      rw [close] at sign
      cases sign
    · cases here.symm.trans close
    · exact lt
  exact ((plain k (by omega) close (clear.trans clear') (by omega)).2 i low (by omega) slash feed).2 j (by omega)
    before here bare

/-! ### Labels in step -/

section

variable [s.IsPlain]

theorem Source.eq_feed_of_isLineEnd (ended : (s.char? i).any isLineEnd = true) : s.char? i = some '\n' := by
  obtain ⟨c, here, line⟩ := (Option.any_eq_true _ _).1 ended
  have line : c = '\n' ∨ c = '\r' := by simpa [isLineEnd] using line
  rcases line with rfl | rfl
  · exact here
  · exact absurd rfl (Source.ne_return here)

theorem labelBlanks?_crlf (h : s.Crosses cross cross') {crossed : Bool} (enough : s.stop ≤ i + n)
    (enough' : s.crlf.stop ≤ s.shift i + n') :
    labelBlanks? s.crlf cross' n' (s.shift i) crossed = (labelBlanks? s cross n i crossed).map s.shift := by
  induction n using Nat.strong_induction_on generalizing n' i crossed with
  | h n ih =>
  rcases s.seen i with ⟨here, there⟩ | ⟨here, there, -, -⟩ | @⟨c, here, there, behind, feed, plain⟩
  · rw [labelBlanks?_of_end here, labelBlanks?_of_end there]
    rfl
  · obtain ⟨n, n', rfl, rfl, rest⟩ := enough_succ here enough enough'
    rw [labelBlanks?, labelBlanks?, here, there, Source.lineEnd?_crlf]
    dsimp only
    rw [isLineEnd_feed, isLineEnd_return, if_pos rfl, if_pos rfl]
    split
    · rfl
    · cases ended : s.lineEnd? i with
      | none => rfl
      | some behind =>
        dsimp only [Option.map_some]
        rw [h.shift]
        cases read : cross behind with
        | none => rfl
        | some next =>
          have lt := Nat.lt_of_lt_of_le (Source.lt_of_lineEnd? here ended) (h.ahead _ _ read).1
          exact ih n (Nat.lt_succ_self n) (rest _ lt).1 (rest _ lt).2
  · obtain ⟨n, n', rfl, rfl, rest⟩ := enough_succ here enough enough'
    obtain ⟨left, left'⟩ := rest _ (Nat.lt_succ_self i)
    rw [labelBlanks?, labelBlanks?, here, there, ← behind]
    dsimp only
    rw [isLineEnd_of_ne feed plain, if_neg Bool.false_ne_true, if_neg Bool.false_ne_true]
    split
    · exact ih n (Nat.lt_succ_self n) left left'
    · rfl

/-- Brackets come to stand behind the backslashes in front of them. -/
theorem isClear_of_crlf (h : s.crlf.IsClear k (s.shift j)) (low : k ≤ s.shift i) : s.IsClear i j := by
  intro m from' high bracket
  have place : s.crlf.char? (s.shift m) = s.char? m := by
    rcases s.seen m with ⟨here, there⟩ | ⟨here, -, -, -⟩ | ⟨here, there, -, -, -⟩
    · rw [here, there]
    · rw [here] at bracket
      rcases bracket with same | same <;> cases same
    · rw [here, there]
  have before := h (s.shift m) (Nat.le_trans low (Source.shift_le_iff.2 from')) (Source.shift_lt_iff.2 high)
    (by rwa [place])
  rcases Nat.eq_zero_or_pos m with rfl | some
  · rw [Source.shift_zero] at before place
    exact place.symm.trans before
  · rwa [Source.char?_before some] at before

/-- From every place behind another one on, the labels are read alike: if `A` holds of the characters so far, then
`R` holds of what is read in the end. -/
def Source.ReadsBehind (s : Source) (b : Nat) (cross cross' : Nat → Option Nat) (A : List Char → List Char → Prop)
    (R : Option (List Char × Nat) → Option (List Char × Nat) → Prop) (i : Nat) : Prop :=
  ∀ {j n n' acc acc'}, i < j → s.IsClear b j → A acc acc' → s.stop ≤ j + n → s.crlf.stop ≤ s.shift j + n' →
    R (labelFrom? s cross n j (j - b) acc)
      (labelFrom? s.crlf cross' n' (s.shift j) (s.shift j - s.shift b) acc')

/-- What holds of the labels that are read from a place on, without carriage returns and with them: `A` is kept by
the characters so far, and `R` holds of what is read in the end. Beside this it is asked what becomes of a label
that carriage returns cut off, and of one in which a line end is escaped. -/
structure Source.Relates (s : Source) (b : Nat) (cross cross' : Nat → Option Nat)
    (A : List Char → List Char → Prop) (R : Option (List Char × Nat) → Option (List Char × Nat) → Prop) : Prop where
  missing : R none none
  cons {acc acc' : List Char} (c : Char) (h : A acc acc') : A (c :: acc) (c :: acc')
  found {acc acc' : List Char} (j : Nat) (h : A acc acc') :
    R (if acc.all (· = ' ') then none else some (acc.reverse, j + 1))
      (if acc'.all (· = ' ') then none else some (acc'.reverse, s.shift (j + 1)))
  late {i n : Nat} {acc : List Char} (low : b ≤ i) (clear : s.IsClear b i)
    (late : labelLimit < s.shift i - s.shift b) : R (labelFrom? s cross n i (i - b) acc) none
  escaped {i n n' : Nat} {acc acc' : List Char} (h : A acc acc') (low : b ≤ i) (clear : s.IsClear b (i + 2))
    (slash : s.char? i = some '\\') (feed : s.char? (i + 1) = some '\n') (enough : s.stop ≤ i + 2 + n)
    (enough' : s.crlf.stop ≤ s.shift i + 2 + n') (further : s.ReadsBehind b cross cross' A R (i + 1)) :
    R (labelFrom? s cross n (i + 2) (i + 2 - b) ('\n' :: '\\' :: acc))
      (labelFrom? s.crlf cross' n' (s.shift i + 2) (s.shift i + 2 - s.shift b) ('\r' :: '\\' :: acc'))

namespace Source.Relates

variable {A : List Char → List Char → Prop} {R : Option (List Char × Nat) → Option (List Char × Nat) → Prop}

/-- Where white space is skipped, the labels are read on behind it. -/
theorem blanks (rel : s.Relates b cross cross' A R) (h : s.Crosses cross cross') (same : A acc acc') (low : b ≤ i)
    (clear : s.IsClear b i) (here : s.char? i = some c) (blank : isAnyBlank c = true)
    (rest : ∀ j, i < j → s.stop ≤ j + n ∧ s.crlf.stop ≤ s.shift j + n')
    (further : s.ReadsBehind b cross cross' A R i) :
    R ((labelBlanks? s cross (s.stop + 1 - i) i false).bind fun next =>
        labelFrom? s cross n next (i - b + (next - i)) (' ' :: acc))
      ((labelBlanks? s.crlf cross' (s.crlf.stop + 1 - s.shift i) (s.shift i) false).bind fun next =>
        labelFrom? s.crlf cross' n' next (s.shift i - s.shift b + (next - s.shift i)) (' ' :: acc')) := by
  rw [labelBlanks?_crlf h (n := s.stop + 1 - i) (by omega) (by omega)]
  cases read : labelBlanks? s cross (s.stop + 1 - i) i false with
  | none => exact rel.missing
  | some next =>
    have bound := Source.lt_stop here
    have skipped := (ahead_of_labelBlanks? h.ahead read).2
    rw [show s.stop + 1 - i = (s.stop - i) + 1 by omega] at read
    have lt := lt_of_labelBlanks? h.ahead here blank read
    have lt' := (Source.shift_lt_iff (s := s)).2 lt
    have low' := (Source.shift_le_iff (s := s)).2 low
    have count : i - b + (next - i) = next - b := by omega
    have count' : s.shift i - s.shift b + (s.shift next - s.shift i) = s.shift next - s.shift b := by omega
    rw [Option.map_some, Option.bind_some, Option.bind_some, count, count']
    exact further lt (clear.trans skipped) (rel.cons ' ' same) (rest _ lt).1 (rest _ lt).2

/-- Where a character is escaped, the labels are read on behind it, unless it is a line end. -/
theorem escape (rel : s.Relates b cross cross' A R) (same : A acc acc') (low : b ≤ i) (clear : s.IsClear b i)
    (slash : s.char? i = some '\\') (rest : ∀ j, i < j → s.stop ≤ j + n ∧ s.crlf.stop ≤ s.shift j + n')
    (further : s.ReadsBehind b cross cross' A R i) :
    R ((s.char? (i + 1)).bind fun c => labelFrom? s cross n (i + 2) (i - b + 2) (c :: '\\' :: acc))
      ((s.crlf.char? (s.shift i + 1)).bind fun c =>
        labelFrom? s.crlf cross' n' (s.shift i + 2) (s.shift i - s.shift b + 2) (c :: '\\' :: acc')) := by
  have low' := (Source.shift_le_iff (s := s)).2 low
  have first : s.IsClear i (i + 1) := .char slash (by decide) (by decide)
  have second : s.IsClear (i + 1) (i + 2) := fun k low high _ => by
    rwa [show k - 1 = i by omega]
  have clear' := clear.trans (first.trans second)
  have behind : s.shift (i + 1) = s.shift i + 1 := Source.shift_add (Source.feeds_of_char slash (by decide))
  rw [← behind]
  rcases s.seen (i + 1) with ⟨next, next'⟩ | ⟨next, next', -, -⟩ | @⟨d, next, next', behind', -, -⟩
  · rw [next, next']
    exact rel.missing
  · obtain ⟨enough, enough'⟩ := rest (i + 1) (Nat.lt_succ_self i)
    rw [next, next', Option.bind_some, Option.bind_some, show i - b + 2 = i + 2 - b by omega,
      show s.shift i - s.shift b + 2 = s.shift i + 2 - s.shift b by omega]
    exact rel.escaped same low clear' slash next (by omega) (by omega) fun lt => further (Nat.lt_of_succ_lt lt)
  · have lt : i < i + 2 := by omega
    have place : s.shift (i + 2) = s.shift i + 2 := behind'.trans (by omega)
    rw [next, next', Option.bind_some, Option.bind_some, show i - b + 2 = i + 2 - b by omega,
      show s.shift i - s.shift b + 2 = s.shift (i + 2) - s.shift b by omega, ← place]
    exact further lt clear' (rel.cons d (rel.cons '\\' same)) (rest _ lt).1 (rest _ lt).2

/-- **What every step keeps holds of the labels**, without carriage returns and with them. -/
theorem reads (rel : s.Relates b cross cross' A R) (h : s.Crosses cross cross') (same : A acc acc') (low : b ≤ i)
    (clear : s.IsClear b i) (enough : s.stop ≤ i + n) (enough' : s.crlf.stop ≤ s.shift i + n') :
    R (labelFrom? s cross n i (i - b) acc)
      (labelFrom? s.crlf cross' n' (s.shift i) (s.shift i - s.shift b) acc') := by
  induction left : s.stop - i using Nat.strong_induction_on generalizing i n n' acc acc' with
  | _ left ih =>
  have low' := (Source.shift_le_iff (s := s)).2 low
  by_cases late : labelLimit < s.shift i - s.shift b
  · rw [labelFrom?_of_lt late]
    exact rel.late low clear late
  · have early : ¬ i - b > labelLimit := by
      have := s.feeds_le low
      simp only [Source.shift] at late
      omega
    rcases s.seen i with ⟨here, there⟩ | ⟨here, there, -, -⟩ | @⟨c, here, there, behind, feed, plain⟩
    · rw [labelFrom?_of_end here, labelFrom?_of_end there]
      exact rel.missing
    all_goals
      have bound := Source.lt_stop here
      obtain ⟨n, n', rfl, rfl, rest⟩ := enough_succ here enough enough'
      have further : s.ReadsBehind b cross cross' A R i := fun lt clear same enough enough' =>
        ih _ (by omega) same (by omega) clear enough enough' rfl
      rw [labelFrom?, labelFrom?, if_neg late, if_neg early, here, there]
    · exact rel.blanks h same low clear here rfl rest further
    · split
      next none => cases none
      next => exact rel.missing
      next =>
        rw [← behind]
        exact rel.found i same
      next slash =>
        obtain rfl := Option.some.inj slash
        exact rel.escape same low clear here rest further
      next c' opening closing _ same' =>
        obtain rfl := Option.some.inj same'
        split
        next blank => exact rel.blanks h same low clear here blank rest further
        next =>
          have sign : s.IsClear i (i + 1) := .char here opening closing
          have lt := Nat.lt_succ_self i
          rw [show i - b + 1 = i + 1 - b by omega,
            show s.shift i - s.shift b + 1 = s.shift (i + 1) - s.shift b by omega, ← behind]
          exact further lt (clear.trans sign) (rel.cons c same) (rest _ lt).1 (rest _ lt).2

/-- From the place behind the bracket on. -/
theorem whole (rel : s.Relates b cross cross' A R) (h : s.Crosses cross cross') (same : A [] []) :
    R (labelFrom? s cross (s.stop + 1 - b) b 0 [])
      (labelFrom? s.crlf cross' (s.crlf.stop + 1 - s.shift b) (s.shift b) 0 []) := by
  have read : R (labelFrom? s cross (s.stop + 1 - b) b (b - b) [])
      (labelFrom? s.crlf cross' (s.crlf.stop + 1 - s.shift b) (s.shift b) (s.shift b - s.shift b) []) :=
    rel.reads h same (Nat.le_refl b) (.refl s b) (by omega) (by omega)
  rwa [Nat.sub_self, Nat.sub_self] at read

end Source.Relates

/-! ### Labels of definitions -/

/-- With carriage returns a label ends with a bracket of the source. -/
theorem stop_of_labelFrom?_crlf (h : s.Crosses cross cross') {r : List Char × Nat} (low : k ≤ s.shift i)
    (read : labelFrom? s.crlf cross' n k count acc = some r) :
    ∃ j, r.2 = s.shift (j + 1) ∧ k ≤ s.shift j ∧ s.char? j = some ']' ∧ s.IsClear i j ∧
      count + (s.shift j - k) ≤ labelLimit := by
  obtain ⟨place, stop, further, close, clear, limit⟩ := stop_of_labelFrom? h.ahead' read
  obtain ⟨j, rfl, close'⟩ := Source.exists_of_char?_crlf close (by decide) (by decide)
  have behind : s.shift (j + 1) = s.shift j + 1 := Source.shift_add (Source.feeds_of_char close' (by decide))
  exact ⟨j, stop.trans behind.symm, further, close', isClear_of_crlf clear low, limit⟩

/-- A label with a colon behind it is read as before, for no line end is escaped in it. -/
theorem relates_colon (h : s.Crosses cross cross') (plain : s.HasPlainLabel b) :
    s.Relates b cross cross' (· = ·) fun r r' => ∀ l j, s.char? (j + 1) = some ':' →
      (r = some (l, j + 1) ↔ r' = some (l, s.shift (j + 1))) where
  missing l j _ := iff_of_false nofun nofun
  cons c same := congrArg (c :: ·) same
  found j same l k _ := by
    subst same
    split
    · exact iff_of_false nofun nofun
    · simp
  late low clear late l j _ := by
    rw [labelFrom?_of_late h plain low clear late]
    exact iff_of_false nofun nofun
  escaped {i n n' acc acc'} _ low clear slash feed _ _ _ l j colon := by
    have next := (Source.shift_lt_iff (s := s)).2 (show i + 1 < i + 2 by omega)
    have behind : s.shift (i + 1) = s.shift i + 1 := Source.shift_add (Source.feeds_of_char slash (by decide))
    have low' := (Source.shift_le_iff (s := s)).2 low
    refine iff_of_false (fun read => ?_) fun read => ?_
    · obtain ⟨k, stop, further, close, clear', limit⟩ := stop_of_labelFrom? h.ahead read
      obtain rfl : j = k := Nat.succ.inj stop
      exact ((plain j (by omega) close (clear.trans clear') (by omega)).2 i low (by omega) slash feed).1 colon
    · obtain ⟨k, stop, further, close, clear', limit⟩ :=
        stop_of_labelFrom?_crlf (i := i + 2) h (by omega) read
      obtain rfl : j = k := Nat.succ.inj (Source.shift_inj.1 stop)
      have lt : i < j := (Source.shift_lt_iff (s := s)).1 (by omega)
      have := s.feeds_le (show b ≤ j by omega)
      have near : j - b ≤ labelLimit := by
        simp only [Source.shift] at limit low'
        omega
      exact ((plain j (by omega) close (clear.trans clear') near).2 i low lt slash feed).1 colon

/-- **The label of a definition is read as before.** -/
theorem definedLabel?_crlf (h : s.Crosses cross cross') (plain : s.HasPlainLabel i) :
    (label? s.crlf cross' (s.shift i)).filter (fun r => s.crlf.isAt r.2 ':') =
      ((label? s cross i).filter fun r => s.isAt r.2 ':').map fun r => (r.1, s.shift r.2) := by
  have reads := (relates_colon h plain).whole h rfl
  have colon (j : Nat) : s.crlf.isAt (s.shift j) ':' = s.isAt j ':' := Source.isAt_crlf (by decide) (by decide)
  ext r
  simp only [label?, Option.filter_eq_some_iff, Option.map_eq_some_iff]
  constructor
  · rintro ⟨⟨⟨cs, stop⟩, read, rfl⟩, at'⟩
    obtain ⟨j, rfl, -⟩ := stop_of_labelFrom?_crlf (i := i) h (Nat.le_refl _) read
    rw [colon] at at'
    exact ⟨_, ⟨⟨_, (reads cs j (of_decide_eq_true at')).2 read, rfl⟩, at'⟩, rfl⟩
  · rintro ⟨_, ⟨⟨⟨cs, stop⟩, read, rfl⟩, at'⟩, rfl⟩
    obtain ⟨j, rfl, -⟩ := stop_of_labelFrom? h.ahead read
    exact ⟨⟨_, (reads cs j (of_decide_eq_true at')).1 read, rfl⟩, (colon _).trans at'⟩

/-- A label is in one line, unless a line end is escaped in it. -/
theorem isOneLine_of_labelFrom? (ahead : ∀ i j, cross i = some j → i ≤ j ∧ s.IsClear i j)
    (read : labelFrom? s cross n i count acc = some (label, j + 1))
    (escapes : ∀ k, i ≤ k → k < j → s.char? k = some '\\' → s.char? (k + 1) ≠ some '\n') (h : IsOneLine acc) :
    IsOneLine label := by
  induction n generalizing i count acc with
  | zero => cases read
  | succ n ih =>
    obtain ⟨k, stop, low, -⟩ := stop_of_labelFrom? ahead read
    obtain rfl : j = k := Nat.succ.inj stop
    rw [labelFrom?] at read
    split at read
    · cases read
    · split at read
      · cases read
      · cases read
      · split at read
        · cases read
        · obtain ⟨rfl, -⟩ := Prod.mk.inj (Option.some.inj read)
          simpa [IsOneLine] using h
      next slash =>
        obtain ⟨c, next, read⟩ := Option.bind_eq_some_iff.1 read
        obtain ⟨k, stop, further, -⟩ := stop_of_labelFrom? ahead read
        obtain rfl : j = k := Nat.succ.inj stop
        have feed : c ≠ '\n' := by
          rintro rfl
          exact escapes i (Nat.le_refl i) (by omega) slash next
        exact ih read (fun k low => escapes k (by omega))
          ((h.cons (by decide) (by decide)).cons feed (Source.ne_return next))
      next c opening closing slash here =>
        split at read
        next =>
          obtain ⟨next, blanks, read⟩ := Option.bind_eq_some_iff.1 read
          have skipped := (ahead_of_labelBlanks? ahead blanks).1
          exact ih read (fun k low => escapes k (by omega)) (h.cons (by decide) (by decide))
        next blank =>
          have line : c ≠ '\n' ∧ c ≠ '\r' := by
            constructor <;> rintro rfl <;> exact blank rfl
          exact ih read (fun k low => escapes k (by omega)) (h.cons line.1 line.2)

/-- The label of a definition is in one line. -/
theorem isOneLine_of_label? (ahead : ∀ i j, cross i = some j → i ≤ j ∧ s.IsClear i j) (plain : s.HasPlainLabel i)
    {stop : Nat} (read : label? s cross i = some (label, stop)) (colon : s.isAt stop ':' = true) :
    IsOneLine label := by
  obtain ⟨⟨cs, _⟩, found, heq⟩ := Option.map_eq_some_iff.1 read
  obtain ⟨rfl, rfl⟩ := Prod.mk.inj heq
  obtain ⟨j, stop, low, close, clear, limit⟩ := stop_of_labelFrom? ahead found
  obtain rfl : _ = j + 1 := stop
  refine (isOneLine_normal_iff cs).2 (isOneLine_of_labelFrom? ahead found (fun k low lt slash feed => ?_) ⟨nofun, nofun⟩)
  exact ((plain j (by omega) close clear (by omega)).2 k low lt slash feed).1 (of_decide_eq_true colon)

/-! ### Labels of references -/

theorem crosses_skipMargin (s : Source) [s.IsPlain] (path : List Container) :
    s.Crosses (fun i => some (skipMargin s path i)) (fun i => some (skipMargin s.crlf path i)) where
  shift i := by rw [skipMargin_crlf]; rfl
  ahead i _ h := Option.some.inj h ▸ ⟨Margin.le_place_ofLine path i, .ofLine s path i⟩
  ahead' i _ h := Option.some.inj h ▸ ⟨Margin.le_place_ofLine path i, .ofLine s.crlf path i⟩

/-- A line feed comes to stand behind its carriage return. -/
theorem Source.next_of_feed (feed : s.char? j = some '\n') :
    s.crlf.char? (s.shift j + 1) = some '\n' ∧ s.shift (j + 1) = s.shift j + 2 := by
  rcases s.seen j with ⟨here, -⟩ | ⟨-, -, next, behind⟩ | ⟨here, -, -, other, -⟩
  · cases here.symm.trans feed
  · exact ⟨next, behind⟩
  · exact absurd (Option.some.inj (here.symm.trans feed)) other

/-- Of a line end only the carriage return is escaped: the line feed behind it is white space, and so is the margin
of the next line. -/
theorem labelBlanks?_of_return (feed : s.char? j = some '\n') :
    labelBlanks? s.crlf (fun i => some (skipMargin s.crlf path i)) (s.crlf.stop + 1 - (s.shift j + 1)) (s.shift j + 1)
        false =
      if (s.char? (s.textStart path (j + 1))).any isLineEnd then none else some (s.shift (s.textStart path (j + 1))) := by
  obtain ⟨next, behind⟩ := Source.next_of_feed feed
  have bound := Source.lt_stop next
  have margin := (Source.shift_le_iff (s := s)).2 (Margin.le_place_ofLine (s := s) path (j + 1))
  rw [← skipMargin] at margin
  rw [show s.crlf.stop + 1 - (s.shift j + 1) = s.crlf.stop - (s.shift j + 1) + 1 by omega,
    labelBlanks?_of_feed next, Option.bind_some, show s.shift j + 1 + 1 = s.shift (j + 1) from behind.symm,
    skipMargin_crlf, labelBlanks?_crlf (crosses_skipMargin s path) (n := s.stop) (by omega) (by omega)]
  rw [labelBlanks?_eq (by omega) (.inl rfl), ← Source.textStart, apply_ite (Option.map s.shift)]
  rfl

/-- The characters so far of a label, without carriage returns and with them: the same, or a line end was escaped. -/
def AgreeSoFar (acc acc' : List Char) : Prop := acc = acc' ∨ '\n' ∈ acc ∧ '\r' ∈ acc'

/-- Behind an escaped line end the label is read on from the text of the next line in either case, or not at all. -/
theorem sameLabel_of_escaped (plain : s.HasPlainLabel b) (path : List Container) (low : b ≤ i)
    (clear : s.IsClear b (i + 2)) (slash : s.char? i = some '\\') (feed : s.char? (i + 1) = some '\n')
    (enough : s.stop ≤ i + 2 + n) (enough' : s.crlf.stop ≤ s.shift i + 2 + n')
    (further : s.ReadsBehind b (fun i => some (skipMargin s path i)) (fun i => some (skipMargin s.crlf path i))
      AgreeSoFar s.SameLabel (i + 1)) :
    s.SameLabel (labelFrom? s (fun i => some (skipMargin s path i)) n (i + 2) (i + 2 - b) ('\n' :: '\\' :: acc))
      (labelFrom? s.crlf (fun i => some (skipMargin s.crlf path i)) n' (s.shift i + 2) (s.shift i + 2 - s.shift b)
        ('\r' :: '\\' :: acc')) := by
  obtain ⟨behind, next⟩ := Source.next_of_feed feed
  rw [show i + 1 + 1 = i + 2 from rfl] at next
  have first : s.shift (i + 1) = s.shift i + 1 := Source.shift_add (Source.feeds_of_char slash (by decide))
  have bound := Source.lt_stop behind
  have low' := (Source.shift_le_iff (s := s)).2 low
  have text := s.le_textStart path (i + 2)
  have text' := (Source.shift_le_iff (s := s)).2 text
  have bare := s.isBare_textStart path (i + 2)
  have stops : (s.char? (s.textStart path (i + 2))).any isInlineBlank = false := s.not_any_skip _ _
  obtain ⟨n', rfl⟩ : ∃ m, n' = m + 1 := ⟨n' - 1, by omega⟩
  rw [show s.shift i + 2 = s.shift (i + 1) + 1 by omega]
  by_cases late : labelLimit < s.shift (i + 1) + 1 - s.shift b
  · rw [labelFrom?_of_late (crosses_skipMargin s path) plain (Nat.le_add_right_of_le low) clear (by omega),
      labelFrom?_of_lt late]
    exact .missing
  rw [labelFrom?_of_blank (Nat.not_lt.1 late) behind rfl, labelBlanks?_of_return feed]
  generalize s.textStart path (i + 1 + 1) = e at text text' bare stops ⊢
  cases ended : (s.char? e).any isLineEnd with
  | true =>
    rw [labelFrom?_of_bare (crosses_skipMargin s path) plain low clear slash feed bare text
      (Source.eq_feed_of_isLineEnd ended)]
    exact .missing
  | false =>
    have letter : (s.char? e).any isAnyBlank = false := by
      rw [any_isAnyBlank, stops, ended]
      rfl
    have feed : '\n' ∈ '\n' :: '\\' :: acc := List.mem_cons_self
    obtain ⟨m, acc, mem, enough, read⟩ := exists_labelFrom?_of_isBare (fun i => some (skipMargin s path i)) bare text
      letter (Nat.le_add_right_of_le low) enough feed
    rw [if_neg Bool.false_ne_true, Option.bind_some, read,
      show s.shift (i + 1) + 1 - s.shift b + (s.shift e - (s.shift (i + 1) + 1)) = s.shift e - s.shift b by omega]
    exact further (by omega) (clear.trans bare.isClear) (.inr ⟨mem, by simp⟩) enough (by omega)

/-- The label of a reference is read as before, or a line end is escaped in it. -/
theorem relates_skipMargin (plain : s.HasPlainLabel b) (path : List Container) :
    s.Relates b (fun i => some (skipMargin s path i)) (fun i => some (skipMargin s.crlf path i)) AgreeSoFar
      s.SameLabel where
  missing := .missing
  cons c h := h.imp (congrArg (c :: ·)) (.imp (List.mem_cons_of_mem c) (List.mem_cons_of_mem c))
  found {acc acc'} j h := by
    rcases h with rfl | ⟨feed, ret⟩
    · split
      · exact .missing
      · exact .same _ j.succ
    · have notBlank {cs : List Char} {c : Char} (mem : c ∈ cs) (ne : c ≠ ' ') : ¬ cs.all (· = ' ') = true :=
        fun all => ne (of_decide_eq_true (List.all_eq_true.1 all c mem))
      rw [if_neg (notBlank feed (by decide)), if_neg (notBlank ret (by decide))]
      exact .other (fun h => h.1 (List.mem_reverse.2 feed)) (fun h => h.2 (List.mem_reverse.2 ret)) j.succ
  late low clear late := by
    rw [labelFrom?_of_late (crosses_skipMargin s path) plain low clear late]
    exact .missing
  escaped _ low clear slash feed enough enough' further :=
    sameLabel_of_escaped plain path low clear slash feed enough enough' further

/-- **The label of a reference is read as before**, or it is none of a definition in either case. -/
theorem sameLabel_referenceLabel? (h : s.HasPlainLabels) (path : List Container) (i : Nat) :
    s.SameLabel (referenceLabel? s path i) (referenceLabel? s.crlf path (s.shift i)) := by
  rw [referenceLabel?, referenceLabel?, Source.isAt_crlf (by decide) (by decide)]
  split
  next bracket =>
    have plain := h i (of_decide_eq_true bracket)
    have reads := (relates_skipMargin plain path).whole (crosses_skipMargin s path) (.inl rfl)
    rw [← Source.shift_add (Source.feeds_of_isAt bracket (by decide)), label?, label?]
    exact reads.normal
  next => exact .missing

end

end PublisherConsole.Markdown
