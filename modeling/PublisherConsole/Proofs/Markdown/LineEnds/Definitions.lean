import PublisherConsole.Proofs.Markdown.LineEnds.Interrupts
import PublisherConsole.Proofs.Markdown.LineEnds.Labels
import PublisherConsole.Markdown.Definition

/-!
# Definitions of links in a text with carriage returns

The parts of a definition may stand in several lines; where it goes on in the next line does not depend on
how the line ends (`continueDefinition?_crlf`). So a definition is read to the same place and with the same
label (`definition?_crlf`), given that this holds of the labels of the source; and that label is in one line
(`isOneLine_of_definition?`).
-/

namespace PublisherConsole.Markdown

variable {s : Source} {i j n n' : Nat} {close : Char} {path : List Container}

/-- Going on in the next line skips its margin. -/
theorem ahead_of_continueDefinition? (read : continueDefinition? s path i = some j) : i ≤ j ∧ s.IsClear i j := by
  unfold continueDefinition? at read
  dsimp only at read
  split at read
  · cases read
  · obtain rfl := Option.some.inj read
    exact ⟨Margin.le_place_ofLine path i, .ofLine s path i⟩

theorem definitionTitleFrom?_of_end (here : s.char? i = none) (n : Nat) :
    definitionTitleFrom? s path close n i = none := by
  cases n with
  | zero => rfl
  | succ n => rw [definitionTitleFrom?, here]

/-! ### Going on -/

theorem le_of_bracketedEnd? (read : bracketedEnd? s n i = some j) : i ≤ j := by
  induction n generalizing i with
  | zero => cases read
  | succ n ih =>
    rw [bracketedEnd?] at read
    split at read
    · cases read
    · split at read
      · cases read
      · split at read
        · exact Option.some.inj read ▸ Nat.le_succ i
        · exact Nat.le_trans (Nat.le_of_lt (lt_behindEscape s i)) (ih read)

theorem le_of_bareEnd? {depth : Nat} (read : bareEnd? s n i depth = some j) : i ≤ j := by
  have closed {depth : Nat} (read : (if depth = 0 then some i else none) = some j) : i ≤ j :=
    Nat.le_of_eq (Option.some.inj (Option.ite_none_right_eq_some.1 read).2)
  induction n generalizing i depth with
  | zero => exact closed read
  | succ n ih =>
    have further {k depth : Nat} (low : i ≤ k) (read : bareEnd? s n k depth = some j) : i ≤ j :=
      Nat.le_trans low (ih read fun read => Nat.le_of_eq (Option.some.inj (Option.ite_none_right_eq_some.1 read).2))
    rw [bareEnd?] at read
    split at read
    · exact closed read
    · split at read
      · exact closed read
      · split at read
        · split at read
          · cases read
          · exact further (Nat.le_succ i) read
        · split at read
          · exact further (Nat.le_succ i) read
          · exact further (Nat.le_of_lt (lt_behindEscape s i)) read

theorem le_of_destinationEnd? (read : destinationEnd? s i = some j) : i ≤ j := by
  unfold destinationEnd? at read
  split at read
  · exact Nat.le_of_succ_le (le_of_bracketedEnd? read)
  · exact le_of_bareEnd? read

theorem le_of_definitionGap? {crossed : Bool} {gap : Nat × Bool}
    (read : definitionGap? s path n i crossed = some gap) : i ≤ gap.1 := by
  induction n generalizing i crossed with
  | zero => exact Option.some.inj read ▸ Nat.le_refl i
  | succ n ih =>
    have blanks : i ≤ s.skipBlanks i := s.le_skip _ i
    rw [definitionGap?] at read
    dsimp only at read
    split at read
    next => exact Option.some.inj read ▸ blanks
    next behind ended =>
      split at read
      · cases read
      · split at read
        · cases read
        · exact Nat.le_trans blanks (Nat.le_trans (Source.le_of_lineEnd? ended) (Nat.le_trans
            (Margin.le_place_ofLine path behind) (Nat.le_trans (Margin.le_place_use 4 _) (ih read))))

theorem le_of_definitionTitleFrom? (read : definitionTitleFrom? s path close n i = some j) : i ≤ j := by
  induction n generalizing i with
  | zero => cases read
  | succ n ih =>
    rw [definitionTitleFrom?] at read
    split at read
    · cases read
    next c here =>
      split at read
      · exact Option.some.inj read ▸ Nat.le_succ i
      · split at read
        · cases read
        · split at read
          · split at read
            · cases read
            next behind ended =>
              obtain ⟨next, line, read⟩ := Option.bind_eq_some_iff.1 read
              exact Nat.le_trans (Source.le_of_lineEnd? ended)
                (Nat.le_trans (ahead_of_continueDefinition? line).1 (ih read))
          · split at read
            · exact Nat.le_trans (Nat.le_add_right i 2) (ih read)
            · exact Nat.le_of_succ_le (ih read)

theorem le_of_definitionTitleEnd? (read : definitionTitleEnd? s path i = some j) : i ≤ j := by
  obtain ⟨mark, -, read⟩ := Option.bind_eq_some_iff.1 read
  obtain ⟨close, -, read⟩ := Option.bind_eq_some_iff.1 read
  exact Nat.le_of_succ_le (le_of_definitionTitleFrom? read)

theorem le_of_definitionEnd? (read : definitionEnd? s path i = some j) : i ≤ j := by
  obtain ⟨⟨start, crossed⟩, gap, read⟩ := Option.bind_eq_some_iff.1 read
  obtain ⟨stop, destination, read⟩ := Option.bind_eq_some_iff.1 read
  have low : i ≤ stop := Nat.le_trans (le_of_definitionGap? gap) (le_of_destinationEnd? destination)
  split at read
  · cases read
  · split at read
    · exact Option.some.inj read ▸ low
    next next crossed gap =>
      have further : stop ≤ next := le_of_definitionGap? gap
      split at read
      · cases read
      · split at read
        · exact Option.some.inj (Option.ite_none_right_eq_some.1 read).2 ▸ low
        next behind title =>
          have title := le_of_definitionTitleEnd? title
          split at read
          next behind' blank =>
            have blank : behind ≤ behind' := Nat.le_trans (s.le_skip _ _) (Source.le_of_lineEnd? blank)
            exact Option.some.inj read ▸ Nat.le_trans low (Nat.le_trans further (Nat.le_trans title blank))
          · exact Option.some.inj (Option.ite_none_right_eq_some.1 read).2 ▸ low

theorem lt_of_definition? {found : List Char × Nat} (read : definition? s path i = some found) : i < found.2 := by
  unfold definition? at read
  split at read
  next =>
    obtain ⟨⟨label, behind⟩, labelled, read⟩ := Option.bind_eq_some_iff.1 read
    obtain ⟨⟨text, stop⟩, scanned, heq⟩ := Option.map_eq_some_iff.1 labelled
    obtain ⟨-, rfl⟩ := Prod.mk.inj heq
    obtain ⟨k, same, low, -⟩ := stop_of_labelFrom? (fun _ _ => ahead_of_continueDefinition?) scanned
    dsimp only at same read
    split at read
    next =>
      obtain ⟨stop', ended, heq⟩ := Option.bind_eq_some_iff.1 read
      obtain rfl := Option.some.inj heq
      have := le_of_definitionEnd? ended
      dsimp only
      omega
    next => cases read
  next => cases read

/-! ### The same definitions -/

variable [s.IsPlain]

@[simp] theorem continueDefinition?_crlf (path : List Container) (i : Nat) :
    continueDefinition? s.crlf path (s.shift i) = (continueDefinition? s path i).map s.shift := by
  unfold continueDefinition?
  rw [Margin.ofLine_crlf]
  dsimp only
  rw [place_shiftMargin, interrupts_crlf, underline?_crlf, Option.isSome_map]
  split <;> rfl

theorem crosses_continueDefinition? (s : Source) [s.IsPlain] (path : List Container) :
    s.Crosses (continueDefinition? s path) (continueDefinition? s.crlf path) where
  shift i := continueDefinition?_crlf path i
  ahead _ _ := ahead_of_continueDefinition?
  ahead' _ _ := ahead_of_continueDefinition?

@[simp] theorem definitionGap?_crlf (path : List Container) (n i : Nat) (crossed : Bool) :
    definitionGap? s.crlf path n (s.shift i) crossed =
      (definitionGap? s path n i crossed).map fun r => (s.shift r.1, r.2) := by
  induction n generalizing i crossed with
  | zero => rfl
  | succ n ih =>
    rw [definitionGap?, definitionGap?]
    dsimp only
    rw [Source.skipBlanks_crlf, Source.lineEnd?_crlf]
    cases s.lineEnd? (s.skipBlanks i) with
    | none => rfl
    | some behind =>
      cases crossed with
      | true => rfl
      | false =>
        dsimp only [Option.map_some]
        rw [if_neg Bool.false_ne_true, if_neg Bool.false_ne_true, Margin.ofLine_crlf]
        dsimp only
        rw [Margin.use_crlf]
        dsimp only
        rw [place_shiftMargin, interrupts_crlf, underline?_crlf, Option.isSome_map, ih]
        split <;> rfl

theorem definitionTitleFrom?_crlf (feed : close ≠ '\n') (plain : close ≠ '\r') (enough : s.stop ≤ i + n)
    (enough' : s.crlf.stop ≤ s.shift i + n') :
    definitionTitleFrom? s.crlf path close n' (s.shift i) =
      (definitionTitleFrom? s path close n i).map s.shift := by
  induction n using Nat.strong_induction_on generalizing n' i with
  | h n ih =>
  rcases s.seen i with ⟨here, there⟩ | ⟨here, there, -, -⟩ | @⟨c, here, there, behind, feed', plain'⟩
  · rw [definitionTitleFrom?_of_end here, definitionTitleFrom?_of_end there]
    rfl
  · obtain ⟨n, n', rfl, rfl, rest⟩ := enough_succ here enough enough'
    rw [definitionTitleFrom?, definitionTitleFrom?, here, there, Source.lineEnd?_crlf]
    dsimp only
    rw [if_neg (Ne.symm feed), if_neg (Ne.symm plain), isLineEnd_feed, isLineEnd_return, if_pos rfl, if_pos rfl]
    simp only [(by decide : ¬ '\n' = '('), (by decide : ¬ '\r' = '('), decide_false, Bool.false_and,
      Bool.false_eq_true, if_false]
    cases ended : s.lineEnd? i with
    | none => rfl
    | some behind =>
      dsimp only [Option.map_some]
      rw [continueDefinition?_crlf]
      cases further : continueDefinition? s path behind with
      | none => rfl
      | some next =>
        have low := Nat.lt_of_lt_of_le (Source.lt_of_lineEnd? here ended) (ahead_of_continueDefinition? further).1
        obtain ⟨left, left'⟩ := rest _ low
        exact ih n (Nat.lt_succ_self n) left left'
  · obtain ⟨n, n', rfl, rfl, rest⟩ := enough_succ here enough enough'
    obtain ⟨left, left'⟩ := rest _ (Nat.lt_succ_self i)
    have next := Source.feeds_of_char here feed'
    rw [definitionTitleFrom?, definitionTitleFrom?, here, there, ← behind, Source.any_crlf rfl]
    dsimp only
    rw [isLineEnd_of_ne feed' plain', if_neg Bool.false_ne_true, if_neg Bool.false_ne_true]
    split
    · rfl
    · split
      · rfl
      · split
        next escape =>
          obtain ⟨d, here', other⟩ := (Option.any_eq_true _ _).1 (Bool.and_eq_true_iff.1 escape).2
          have second : s.feeds (i + 2) = s.feeds (i + 1) := by
            refine Source.feeds_of_char here' ?_
            rintro rfl
            cases other
          have two : s.shift i + 2 = s.shift (i + 2) := (Source.shift_add (second.trans next)).symm
          obtain ⟨left, left'⟩ := rest (i + 2) (by omega)
          rw [two]
          exact ih n (Nat.lt_succ_self n) left left'
        next => exact ih n (Nat.lt_succ_self n) left left'

@[simp] theorem definitionTitleEnd?_crlf (path : List Container) (i : Nat) :
    definitionTitleEnd? s.crlf path (s.shift i) = (definitionTitleEnd? s path i).map s.shift := by
  rw [definitionTitleEnd?, definitionTitleEnd?]
  rcases s.seen i with ⟨here, there⟩ | ⟨here, there, -, -⟩ | @⟨c, here, there, behind, feed, plain⟩
  · rw [here, there]
    rfl
  · rw [here, there]
    rfl
  · rw [here, there]
    simp only [Option.bind_eq_bind, Option.bind_some]
    cases mark : titleMark? c with
    | none => rfl
    | some close =>
      obtain ⟨feeds, plains⟩ := titleMark?_plain mark
      rw [Option.bind_some, Option.bind_some, ← behind]
      exact definitionTitleFrom?_crlf feeds.2 plains.2 (by omega) (by omega)

@[simp] theorem definitionEnd?_crlf (path : List Container) (i : Nat) :
    definitionEnd? s.crlf path (s.shift i) = (definitionEnd? s path i).map s.shift := by
  unfold definitionEnd?
  rw [definitionGap?_crlf]
  cases definitionGap? s path 2 i false with
  | none => rfl
  | some r =>
    obtain ⟨start, -⟩ := r
    simp only [Option.map_some, Option.bind_eq_bind, Option.bind_some]
    rw [destinationEnd?_crlf]
    cases destinationEnd? s start with
    | none => rfl
    | some stop =>
      simp only [Option.map_some, Option.bind_some, Source.shift_inj]
      rw [definitionGap?_crlf]
      split
      · rfl
      · cases definitionGap? s path 2 stop false with
        | none => rfl
        | some r =>
          obtain ⟨next, crossed⟩ := r
          dsimp only [Option.map_some]
          simp only [Source.shift_inj, definitionTitleEnd?_crlf]
          split
          · rfl
          · cases definitionTitleEnd? s path next with
            | none =>
              dsimp only [Option.map_none]
              split <;> rfl
            | some behind =>
              dsimp only [Option.map_some]
              rw [Source.blankLine?_crlf]
              cases s.blankLine? behind with
              | none =>
                dsimp only [Option.map_none]
                split <;> rfl
              | some behind => rfl

omit [s.IsPlain] in
/-- A definition is a label with a colon behind it, and what is defined. -/
theorem definition?_eq (path : List Container) (i : Nat) :
    definition? s path i =
      if s.isAt i '[' then
        ((label? s (continueDefinition? s path) (i + 1)).filter fun r => s.isAt r.2 ':').bind fun r =>
          (definitionEnd? s path (r.2 + 1)).map (r.1, ·)
      else none := by
  unfold definition?
  split
  next =>
    cases label? s (continueDefinition? s path) (i + 1) with
    | none => rfl
    | some r =>
      obtain ⟨label, behind⟩ := r
      simp only [Option.bind_eq_bind, Option.bind_some, Option.filter_some]
      split
      next =>
        rw [Option.bind_some]
        cases definitionEnd? s path (behind + 1) <;> rfl
      next => rfl
  next => rfl

/-- With carriage returns a definition has the same label and ends at the same place. -/
theorem definition?_crlf (h : s.HasPlainLabels) (path : List Container) (i : Nat) :
    definition? s.crlf path (s.shift i) = (definition? s path i).map fun r => (r.1, s.shift r.2) := by
  rw [definition?_eq, definition?_eq, Source.isAt_crlf (by decide) (by decide)]
  split
  next bracket =>
    rw [← Source.shift_add (Source.feeds_of_isAt bracket (by decide)),
      definedLabel?_crlf (crosses_continueDefinition? s path) (h i (of_decide_eq_true bracket))]
    cases read : (label? s (continueDefinition? s path) (i + 1)).filter fun r => s.isAt r.2 ':' with
    | none => rfl
    | some r =>
      have colon : s.isAt r.2 ':' = true := (Option.filter_eq_some_iff.1 read).2
      rw [Option.map_some, Option.bind_some, Option.bind_some,
        ← Source.shift_add (Source.feeds_of_isAt colon (by decide)), definitionEnd?_crlf, Option.map_map, Option.map_map]
      rfl
  next => rfl

/-- The label of a definition is in one line. -/
theorem isOneLine_of_definition? (h : s.HasPlainLabels) {found : List Char × Nat}
    (read : definition? s path i = some found) : IsOneLine found.1 := by
  rw [definition?_eq] at read
  obtain ⟨bracket, read⟩ := Option.ite_none_right_eq_some.1 read
  obtain ⟨r, labelled, read⟩ := Option.bind_eq_some_iff.1 read
  obtain ⟨stop, -, rfl⟩ := Option.map_eq_some_iff.1 read
  obtain ⟨labelled, colon⟩ := Option.filter_eq_some_iff.1 labelled
  exact isOneLine_of_label? (fun _ _ => ahead_of_continueDefinition?) (h i (of_decide_eq_true bracket)) labelled colon

end PublisherConsole.Markdown
