import PublisherConsole.Proofs.Markdown.LineEnds.Html
import PublisherConsole.Markdown.Link

/-!
# Links in a text with carriage returns

An entity stands in one line, and so does the destination of a link; its title may go over several. None of
them ends elsewhere because of carriage returns (`entity?_crlf`, `inlineLinkEnd?_crlf`).
-/

namespace PublisherConsole.Markdown

variable {s : Source} {i j n n' depth : Nat} {c mark close : Char} {path : List Container}

/-! ### Entities -/

theorem entity?_crlf [s.IsPlain] (sign : s.feeds (i + 1) = s.feeds i) :
    entity? s.crlf (s.shift i) = (entity? s i).map fun r => (r.1, s.shift r.2) := by
  unfold entity?
  rw [← Source.shift_add sign, Source.isAt_crlf (by decide) (by decide)]
  split
  next sharp =>
    have second : s.feeds (i + 2) = s.feeds i := (Source.feeds_of_isAt sharp (by decide)).trans sign
    have start : (if (s.isAt (i + 2) 'x' || s.isAt (i + 2) 'X') = true then s.shift i + 3 else s.shift (i + 2)) =
        s.shift (if (s.isAt (i + 2) 'x' || s.isAt (i + 2) 'X') = true then i + 3 else i + 2) := by
      split
      next hex =>
        have third : s.feeds (i + 3) = s.feeds (i + 2) := by
          rcases Bool.or_eq_true_iff.1 hex with here | here <;> exact Source.feeds_of_isAt here (by decide)
        rw [Source.shift_add (third.trans second)]
      next => rfl
    rw [← Source.shift_add second, Source.isAt_crlf (by decide) (by decide),
      Source.isAt_crlf (by decide) (by decide)]
    dsimp only
    rw [start]
    generalize (s.isAt (i + 2) 'x' || s.isAt (i + 2) 'X') = hex
    generalize (if hex = true then i + 3 else i + 2) = start
    have closed (stop number : Nat) :
        (if (decide (s.shift stop > s.shift start) && s.crlf.isAt (s.shift stop) ';') = true then
            (charOfNumber? number).map fun c => ([c], s.shift stop + 1) else none) =
          (if (decide (stop > start) && s.isAt stop ';') = true then
            (charOfNumber? number).map fun c => ([c], stop + 1) else none).map fun r => (r.1, s.shift r.2) := by
      simp only [gt_iff_lt, Source.shift_lt_iff]
      rw [Source.isAt_crlf (by decide) (by decide)]
      split
      next close =>
        rw [← Source.shift_add (Source.feeds_of_isAt (Bool.and_eq_true_iff.1 close).2 (by decide))]
        cases charOfNumber? number <;> rfl
      next => rfl
    cases hex with
    | false =>
      simp only [Bool.false_eq_true, if_false]
      rw [Source.skipUpTo_crlf rfl rfl, Source.decimal_crlf]
      exact closed _ _
    | true =>
      simp only [if_true]
      rw [Source.skipUpTo_crlf rfl rfl, Source.slice_crlf_of_line (Source.feeds_skipUpTo rfl _ _).symm]
      exact closed _ _
  next =>
    dsimp only
    rw [Source.skip_crlf rfl, Source.isAt_crlf (by decide) (by decide),
      Source.slice_crlf_of_line (Source.feeds_skip rfl _).symm]
    split
    next close =>
      rw [← Source.shift_add (Source.feeds_of_isAt close (by decide))]
      cases entityTable.lookup (s.slice (i + 1) (s.skip isBasicAlphanumeric (i + 1))) <;> rfl
    next => rfl

/-! ### Escapes and destinations -/

theorem feeds_of_isEscape (here : isEscape s i = true) : s.feeds (i + 2) = s.feeds i := by
  obtain ⟨slash, next⟩ := Bool.and_eq_true_iff.1 here
  obtain ⟨c, at', sign⟩ := (Option.any_eq_true _ _).1 next
  rw [Source.feeds_of_char (i := i + 1) at', Source.feeds_of_isAt slash (by decide)]
  rintro rfl
  exact absurd sign (by decide)

/-- The place behind a character that may be escaped. -/
def behindEscape (s : Source) (i : Nat) : Nat := if isEscape s i then i + 2 else i + 1

theorem lt_behindEscape (s : Source) (i : Nat) : i < behindEscape s i := by
  unfold behindEscape
  split <;> omega

section

variable [s.IsPlain]

@[simp] theorem isEscape_crlf (i : Nat) : isEscape s.crlf (s.shift i) = isEscape s i := by
  rw [isEscape, isEscape, Source.isAt_crlf (by decide) (by decide)]
  cases slash : s.isAt i '\\' with
  | false => rfl
  | true => rw [← Source.shift_add (Source.feeds_of_isAt slash (by decide)), Source.any_crlf rfl]

theorem behindEscape_crlf (here : s.char? i = some c) (feed : c ≠ '\n') :
    behindEscape s.crlf (s.shift i) = s.shift (behindEscape s i) := by
  rw [behindEscape, behindEscape, isEscape_crlf]
  split
  next escape => rw [Source.shift_add (feeds_of_isEscape escape)]
  next => rw [Source.shift_add (Source.feeds_of_char here feed)]

end

theorem bracketedEnd?_of_end (here : s.char? i = none) (n : Nat) : bracketedEnd? s n i = none := by
  cases n with
  | zero => rfl
  | succ n => rw [bracketedEnd?, here]

theorem bareEnd?_of_end (here : s.char? i = none) (n depth : Nat) :
    bareEnd? s n i depth = if depth = 0 then some i else none := by
  cases n with
  | zero => rfl
  | succ n => rw [bareEnd?, here]

theorem titleFrom?_of_end (here : s.char? i = none) (n : Nat) : titleFrom? s mark close n i = none := by
  cases n with
  | zero => rfl
  | succ n => rw [titleFrom?, here]

variable [s.IsPlain]

theorem bracketedEnd?_crlf (enough : s.stop ≤ i + n) (enough' : s.crlf.stop ≤ s.shift i + n') :
    bracketedEnd? s.crlf n' (s.shift i) = (bracketedEnd? s n i).map s.shift := by
  induction n using Nat.strong_induction_on generalizing n' i with
  | h n ih =>
  rcases s.seen i with ⟨here, there⟩ | ⟨here, there, -, -⟩ | @⟨c, here, there, behind, feed, plain⟩
  · rw [bracketedEnd?_of_end here, bracketedEnd?_of_end there]
    rfl
  · obtain ⟨n, n', rfl, rfl, -⟩ := enough_succ here enough enough'
    rw [bracketedEnd?, bracketedEnd?, here, there]
    rfl
  · obtain ⟨n, n', rfl, rfl, rest⟩ := enough_succ here enough enough'
    obtain ⟨left, left'⟩ := rest _ (lt_behindEscape s i)
    have next := behindEscape_crlf here feed
    rw [bracketedEnd?, bracketedEnd?, here, there]
    dsimp only
    split
    · rfl
    · split
      · rw [← behind]
        rfl
      · rw [← behindEscape, ← behindEscape, next]
        exact ih n (Nat.lt_succ_self n) left left'

theorem bareEnd?_crlf (enough : s.stop ≤ i + n) (enough' : s.crlf.stop ≤ s.shift i + n') :
    bareEnd? s.crlf n' (s.shift i) depth = (bareEnd? s n i depth).map s.shift := by
  induction n using Nat.strong_induction_on generalizing n' i depth with
  | h n ih =>
  rcases s.seen i with ⟨here, there⟩ | ⟨here, there, -, -⟩ | @⟨c, here, there, behind, feed, plain⟩
  · rw [bareEnd?_of_end here, bareEnd?_of_end there]
    split <;> rfl
  · obtain ⟨n, n', rfl, rfl, -⟩ := enough_succ here enough enough'
    rw [bareEnd?, bareEnd?, here, there]
    have low : decide ('\n' ≤ ' ') = true := rfl
    have low' : decide ('\r' ≤ ' ') = true := rfl
    dsimp only
    rw [low, low', Bool.true_or, Bool.true_or, if_pos rfl, if_pos rfl]
    split <;> rfl
  · obtain ⟨n, n', rfl, rfl, rest⟩ := enough_succ here enough enough'
    have step := rest _ (Nat.lt_succ_self i)
    have escape := rest _ (lt_behindEscape s i)
    have next := behindEscape_crlf here feed
    rw [bareEnd?, bareEnd?, here, there, ← behindEscape, ← behindEscape, next, ← behind]
    dsimp only
    split
    · split <;> rfl
    · split
      · split
        · rfl
        · exact ih n (Nat.lt_succ_self n) step.1 step.2
      · split
        · exact ih n (Nat.lt_succ_self n) step.1 step.2
        · exact ih n (Nat.lt_succ_self n) escape.1 escape.2

@[simp] theorem destinationEnd?_crlf (i : Nat) :
    destinationEnd? s.crlf (s.shift i) = (destinationEnd? s i).map s.shift := by
  rw [destinationEnd?, destinationEnd?, Source.isAt_crlf (by decide) (by decide)]
  split
  next bracket =>
    have next := Source.shift_add (Source.feeds_of_isAt bracket (by decide))
    rw [← next, bracketedEnd?_crlf (n := s.stop - i) (by omega) (by omega)]
  next => exact bareEnd?_crlf (by omega) (by omega)

theorem titleFrom?_crlf (feeds : mark ≠ '\n' ∧ close ≠ '\n') (plains : mark ≠ '\r' ∧ close ≠ '\r')
    (enough : s.stop ≤ i + n) (enough' : s.crlf.stop ≤ s.shift i + n') :
    titleFrom? s.crlf mark close n' (s.shift i) = (titleFrom? s mark close n i).map s.shift := by
  induction n using Nat.strong_induction_on generalizing n' i with
  | h n ih =>
  rcases s.seen i with ⟨here, there⟩ | ⟨here, there, after, behind⟩ | @⟨c, here, there, behind, feed, plain⟩
  · rw [titleFrom?_of_end here, titleFrom?_of_end there]
    rfl
  · obtain ⟨n, n', rfl, rfl, left, left'⟩ := enough_feed here behind enough enough'
    have step {s : Source} {c : Char} {n i : Nat} (here : s.char? i = some c) (slash : c ≠ '\\')
        (other : close ≠ c) (other' : mark ≠ c) :
        titleFrom? s mark close (n + 1) i = titleFrom? s mark close n (i + 1) := by
      have escape : isEscape s i = false := by simp [isEscape, Source.isAt, here, slash]
      rw [titleFrom?, here, escape]
      dsimp only
      rw [if_neg (Ne.symm other), if_neg (Ne.symm other'), if_neg Bool.false_ne_true]
    rw [step here (by decide) feeds.2 feeds.1, step there (by decide) plains.2 plains.1,
      step after (by decide) feeds.2 feeds.1, ← ih n (Nat.lt_succ_self n) left left', behind]
  · obtain ⟨n, n', rfl, rfl, rest⟩ := enough_succ here enough enough'
    obtain ⟨left, left'⟩ := rest _ (lt_behindEscape s i)
    have next := behindEscape_crlf here feed
    rw [titleFrom?, titleFrom?, here, there]
    dsimp only
    split
    · rw [← behind]
      rfl
    · split
      · rfl
      · rw [← behindEscape, ← behindEscape, next]
        exact ih n (Nat.lt_succ_self n) left left'

theorem titleMark?_plain (h : titleMark? mark = some close) :
    (mark ≠ '\n' ∧ close ≠ '\n') ∧ mark ≠ '\r' ∧ close ≠ '\r' := by
  unfold titleMark? at h
  split at h
  next quote =>
    obtain rfl := Option.some.inj h
    rcases Bool.or_eq_true_iff.1 quote with same | same <;> rw [of_decide_eq_true same] <;> decide
  next =>
    split at h
    next bracket =>
      obtain rfl := Option.some.inj h
      rw [bracket]
      decide
    next => cases h

@[simp] theorem titleEnd?_crlf (i : Nat) : titleEnd? s.crlf (s.shift i) = (titleEnd? s i).map s.shift := by
  rw [titleEnd?, titleEnd?]
  rcases s.seen i with ⟨here, there⟩ | ⟨here, there, -, -⟩ | @⟨c, here, there, behind, feed, plain⟩
  · rw [here, there]
    rfl
  · rw [here, there]
    rfl
  · rw [here, there]
    simp only [Option.bind_eq_bind, Option.bind_some]
    cases mark : titleMark? c with
    | none => rfl
    | some close =>
      obtain ⟨feeds, plains⟩ := titleMark?_plain mark
      rw [Option.bind_some, Option.bind_some, ← behind]
      exact titleFrom?_crlf feeds plains (by omega) (by omega)

@[simp] theorem linkGap_crlf (path : List Container) (i : Nat) :
    linkGap s.crlf path (s.shift i) = s.shift (linkGap s path i) := by
  unfold linkGap
  dsimp only
  rw [Source.skipBlanks_crlf, Source.lineEnd?_crlf]
  cases s.lineEnd? (s.skipBlanks i) with
  | none => rfl
  | some behind =>
    dsimp only [Option.map_some]
    rw [skipMargin_crlf, Source.skipBlanks_crlf]

@[simp] theorem inlineLinkEnd?_crlf (path : List Container) (i : Nat) :
    inlineLinkEnd? s.crlf path (s.shift i) = (inlineLinkEnd? s path i).map s.shift := by
  unfold inlineLinkEnd?
  rw [Source.isAt_crlf (by decide) (by decide)]
  split
  next bracket =>
    rw [← Source.shift_add (Source.feeds_of_isAt bracket (by decide))]
    dsimp only
    rw [linkGap_crlf, destinationEnd?_crlf]
    cases destinationEnd? s (linkGap s path (i + 1)) with
    | none => rfl
    | some stop =>
      simp only [Option.map_some, Option.bind_eq_bind, Option.bind_some]
      rw [linkGap_crlf, titleEnd?_crlf]
      have closed (j : Nat) : (if s.crlf.isAt (s.shift j) ')' = true then some (s.shift j + 1) else none) =
          (if s.isAt j ')' = true then some (j + 1) else none).map s.shift := by
        rw [Source.isAt_crlf (by decide) (by decide)]
        split
        next close => rw [← Source.shift_add (Source.feeds_of_isAt close (by decide)), Option.map_some]
        next => rfl
      cases titleEnd? s (linkGap s path stop) with
      | none => exact closed _
      | some behind =>
        simp only [Option.map_some, linkGap_crlf]
        exact closed _
  next => rfl

end PublisherConsole.Markdown
