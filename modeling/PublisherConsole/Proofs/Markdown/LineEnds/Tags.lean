import PublisherConsole.Proofs.Markdown.LineEnds.Margins
import PublisherConsole.Markdown.Html

/-!
# Tags in a text with carriage returns

A tag may go on in the next line, behind a margin that is cut out of it. Both texts are read with fuel of
their own, and a carriage return is one more blank to skip: so each loop is followed as long as its fuel
lasts on both sides (`enough_succ`, `enough_feed`), and the scans stand where `Source.shiftScan` says after
blanks, quoted values and attributes. So a tag ends where it has ended (`tag?_crlf`).
-/

namespace PublisherConsole.Markdown

variable {s : Source} {i j n n' : Nat} {c : Char} {margin margin' : Option (Nat → Nat)} {t : TagScan}

/-- Where the reading of a tag comes to stand. -/
def Source.shiftScan (s : Source) (t : TagScan) : TagScan :=
  ⟨s.shift t.place, t.cuts.map fun cut => (s.shift cut.1, s.shift cut.2)⟩

@[simp] theorem place_shiftScan : (s.shiftScan t).place = s.shift t.place := rfl

/-- Two ways to skip the margin of a line that never go back, and do the same. -/
structure Source.Skips (s : Source) (margin margin' : Option (Nat → Nat)) : Prop where
  shift : ∀ i, (margin'.map fun skip => skip (s.shift i)) = margin.map fun skip => s.shift (skip i)
  le : ∀ skip i, margin = some skip → i ≤ skip i
  le_stop : ∀ skip i, margin = some skip → i ≤ s.stop → skip i ≤ s.stop

/-- If characters are left, fuel is left on both sides. -/
theorem enough_succ (here : s.char? i = some c) (enough : s.stop ≤ i + n)
    (enough' : s.crlf.stop ≤ s.shift i + n') : ∃ m m', n = m + 1 ∧ n' = m' + 1 ∧
      ∀ j, i < j → s.stop ≤ j + m ∧ s.crlf.stop ≤ s.shift j + m' := by
  have bound := Source.lt_stop here
  have bound' := (Source.shift_lt_iff (s := s)).2 bound
  rw [Source.stop_crlf] at enough'
  refine ⟨n - 1, n' - 1, by omega, by omega, fun j lt => ?_⟩
  have lt' := (Source.shift_lt_iff (s := s)).2 lt
  rw [Source.stop_crlf]
  omega

/-- In front of a line feed there is fuel for the carriage return too. -/
theorem enough_feed (here : s.char? i = some '\n') (behind : s.shift (i + 1) = s.shift i + 2)
    (enough : s.stop ≤ i + n) (enough' : s.crlf.stop ≤ s.shift i + n') :
    ∃ m m', n = m + 1 ∧ n' = m' + 2 ∧ s.stop ≤ i + 1 + m ∧ s.crlf.stop ≤ s.shift (i + 1) + m' := by
  have bound := Source.lt_stop here
  have bound' := (Source.shift_le_iff (s := s)).2 (show i + 1 ≤ s.stop from bound)
  rw [Source.stop_crlf] at enough' ⊢
  exact ⟨n - 1, n' - 2, by omega, by omega, by omega, by omega⟩

namespace TagScan

theorem nextLine?_crlf (h : s.Skips margin margin') (behind : Nat) :
    (s.shiftScan t).nextLine? margin' (s.shift behind) = (t.nextLine? margin behind).map s.shiftScan := by
  have same := h.shift behind
  cases margin with
  | none =>
    rw [Option.map_none, Option.map_eq_none_iff] at same
    rw [same]
    rfl
  | some skip =>
    obtain ⟨skip', rfl, place⟩ := Option.map_eq_some_iff.1 same
    have place : skip' (s.shift behind) = s.shift (skip behind) := place
    rw [nextLine?, nextLine?, Option.map_some, Option.map_some, Option.map_some, place]
    simp only [gt_iff_lt, Source.shift_lt_iff]
    split <;> simp [Source.shiftScan]

theorem lt_place_of_nextLine? (h : s.Skips margin margin') {behind : Nat} {t' : TagScan} (lt : i < behind)
    (read : t.nextLine? margin behind = some t') : i < t'.place := by
  obtain ⟨skip, rfl, rfl⟩ := Option.map_eq_some_iff.1 read
  have le := Nat.lt_of_lt_of_le lt (h.le skip behind rfl)
  dsimp only
  split <;> exact le

theorem place_le_stop_of_nextLine? (h : s.Skips margin margin') {behind : Nat} {t' : TagScan}
    (inside : behind ≤ s.stop) (read : t.nextLine? margin behind = some t') : t'.place ≤ s.stop := by
  obtain ⟨skip, rfl, rfl⟩ := Option.map_eq_some_iff.1 read
  have le := h.le_stop skip behind rfl inside
  dsimp only
  split <;> exact le

theorem blanks?_of_end (here : s.char? t.place = none) (n : Nat) : t.blanks? s margin n = some t := by
  cases n with
  | zero => rfl
  | succ n => rw [blanks?, here]

theorem quoted?_of_end (here : s.char? t.place = none) (mark : Char) (n : Nat) :
    t.quoted? s margin mark n = none := by
  cases n with
  | zero => rfl
  | succ n => rw [quoted?, here]

theorem attributes?_of_end (here : s.char? t.place = none) (n : Nat) : t.attributes? s margin n = none := by
  have isAt (c : Char) : s.isAt t.place c = false := by rw [Source.isAt, here]; rfl
  cases n with
  | zero => rfl
  | succ n =>
    rw [attributes?]
    cases s.stop + 1 - t.place with
    | zero =>
      rw [gap?]
      simp [isAt]
    | succ n =>
      have stays : s.skipBlanks t.place = t.place := by
        rw [Source.skipBlanks, Source.skip_eq, here]
        rfl
      rw [gap?, stays, here]
      rfl

/-! ### Going on -/

section

variable {t' : TagScan} (h : s.Skips margin margin')

include h

theorem le_place_blanks? (read : t.blanks? s margin n = some t') : t.place ≤ t'.place := by
  induction n generalizing t with
  | zero => exact Option.some.inj read ▸ Nat.le_refl _
  | succ n ih =>
    rw [blanks?] at read
    cases here : s.char? t.place with
    | none =>
      rw [here] at read
      exact Option.some.inj read ▸ Nat.le_refl _
    | some c =>
      rw [here] at read
      dsimp only at read
      split at read
      · cases ended : s.lineEnd? t.place with
        | none =>
          rw [ended] at read
          exact Option.some.inj read ▸ Nat.le_refl _
        | some behind =>
          rw [ended] at read
          obtain ⟨next, line, read⟩ := Option.bind_eq_some_iff.1 read
          exact Nat.le_trans (Nat.le_of_lt (lt_place_of_nextLine? h (Source.lt_of_lineEnd? here ended) line))
            (ih read)
      · split at read
        · exact Nat.le_of_succ_le (ih read)
        · exact Option.some.inj read ▸ Nat.le_refl _

theorem le_place_quoted? {mark : Char} (read : t.quoted? s margin mark n = some t') : t.place ≤ t'.place := by
  induction n generalizing t with
  | zero => cases read
  | succ n ih =>
    rw [quoted?] at read
    cases here : s.char? t.place with
    | none =>
      rw [here] at read
      cases read
    | some c =>
      rw [here] at read
      dsimp only at read
      split at read
      · exact Option.some.inj read ▸ Nat.le_succ _
      · split at read
        · cases ended : s.lineEnd? t.place with
          | none =>
            rw [ended] at read
            cases read
          | some behind =>
            rw [ended] at read
            obtain ⟨next, line, read⟩ := Option.bind_eq_some_iff.1 read
            exact Nat.le_trans
              (Nat.le_of_lt (lt_place_of_nextLine? h (Source.lt_of_lineEnd? here ended) line)) (ih read)
        · exact Nat.le_of_succ_le (ih read)

theorem le_place_value? (read : t.value? s margin = some t') : t.place ≤ t'.place := by
  unfold value? at read
  split at read
  · cases read
  · split at read
    · exact Nat.le_of_succ_le (le_place_quoted? h read)
    · split at read
      · cases read
      · exact Option.some.inj read ▸ Source.le_skip _ _

theorem le_place_attribute? (read : t.attribute? s margin = some t') : t.place ≤ t'.place := by
  have name : t.place ≤ s.skip (isNameChar false) t.place := Source.le_skip _ _
  unfold attribute? at read
  split at read
  · obtain ⟨sign, blanks, read⟩ := Option.bind_eq_some_iff.1 read
    have sign := Nat.le_trans name (le_place_blanks? h blanks)
    split at read
    · obtain ⟨start, blanks', read⟩ := Option.bind_eq_some_iff.1 read
      have start := le_place_blanks? h blanks'
      exact Nat.le_trans sign (Nat.le_trans (Nat.le_of_succ_le start) (le_place_value? h read))
    · exact Option.some.inj read ▸ name
  · cases read

theorem le_place_gap? (read : t.gap? s margin n = some t') : t.place ≤ t'.place := by
  induction n generalizing t with
  | zero => exact Option.some.inj read ▸ Nat.le_refl _
  | succ n ih =>
    have blanks : t.place ≤ s.skipBlanks t.place := Source.le_skip _ _
    rw [gap?] at read
    cases here : s.char? (s.skipBlanks t.place) with
    | none =>
      rw [here] at read
      cases read
    | some c =>
      rw [here] at read
      dsimp only at read
      split at read
      · cases ended : s.lineEnd? (s.skipBlanks t.place) with
        | none =>
          rw [ended] at read
          cases read
        | some behind =>
          rw [ended] at read
          obtain ⟨next, line, read⟩ := Option.bind_eq_some_iff.1 read
          have lt := lt_place_of_nextLine? h (Source.lt_of_lineEnd? here ended) line
          exact Nat.le_trans blanks (Nat.le_trans (Nat.le_of_lt lt) (ih read))
      · exact Option.some.inj read ▸ blanks

end

/-! ### The same tag -/

variable [s.IsPlain]

theorem blanks?_crlf_of_le (h : s.Skips margin margin') (enough : s.stop ≤ t.place + n)
    (enough' : s.crlf.stop ≤ s.shift t.place + n') :
    (s.shiftScan t).blanks? s.crlf margin' n' = (t.blanks? s margin n).map s.shiftScan := by
  induction n using Nat.strong_induction_on generalizing n' t with
  | h n ih =>
  rcases s.seen t.place with ⟨here, there⟩ | ⟨here, there, -, -⟩ | @⟨c, here, there, behind, feed, plain⟩
  · rw [blanks?_of_end here, blanks?_of_end there]
    rfl
  · obtain ⟨n, n', rfl, rfl, rest⟩ := enough_succ here enough enough'
    rw [blanks?, blanks?, place_shiftScan, here, there, Source.lineEnd?_crlf]
    dsimp only
    rw [isLineEnd_return, isLineEnd_feed, if_pos rfl, if_pos rfl]
    cases ended : s.lineEnd? t.place with
    | none => rfl
    | some behind =>
      dsimp only [Option.map_some]
      rw [nextLine?_crlf h]
      cases read : t.nextLine? margin behind with
      | none => rfl
      | some t' =>
        obtain ⟨left, left'⟩ := rest _ (lt_place_of_nextLine? h (Source.lt_of_lineEnd? here ended) read)
        exact ih n (Nat.lt_succ_self n) left left'
  · obtain ⟨n, n', rfl, rfl, rest⟩ := enough_succ here enough enough'
    obtain ⟨left, left'⟩ := rest (t.place + 1) (Nat.lt_succ_self _)
    rw [blanks?, blanks?, place_shiftScan, here, there]
    dsimp only
    rw [isLineEnd_of_ne feed plain, if_neg Bool.false_ne_true, if_neg Bool.false_ne_true, ← behind]
    split
    · exact ih n (Nat.lt_succ_self n) (t := { t with place := t.place + 1 }) left left'
    · rfl

theorem blanks?_crlf (h : s.Skips margin margin') (i : Nat) (cuts : List (Nat × Nat)) :
    (s.shiftScan ⟨i, cuts⟩).blanks? s.crlf margin' (s.crlf.stop - s.shift i) =
      (blanks? s margin (s.stop - i) ⟨i, cuts⟩).map s.shiftScan :=
  blanks?_crlf_of_le h (by dsimp only; omega) (by dsimp only; omega)

theorem quoted?_crlf (h : s.Skips margin margin') {mark : Char} (feed : mark ≠ '\n') (plain : mark ≠ '\r')
    (enough : s.stop ≤ t.place + n) (enough' : s.crlf.stop ≤ s.shift t.place + n') :
    (s.shiftScan t).quoted? s.crlf margin' mark n' = (t.quoted? s margin mark n).map s.shiftScan := by
  induction n using Nat.strong_induction_on generalizing n' t with
  | h n ih =>
  rcases s.seen t.place with ⟨here, there⟩ | ⟨here, there, -, -⟩ | @⟨c, here, there, behind, feed', plain'⟩
  · rw [quoted?_of_end here, quoted?_of_end there]
    rfl
  · obtain ⟨n, n', rfl, rfl, rest⟩ := enough_succ here enough enough'
    rw [quoted?, quoted?, place_shiftScan, here, there, Source.lineEnd?_crlf]
    dsimp only
    rw [if_neg feed.symm, if_neg plain.symm, isLineEnd_return, isLineEnd_feed, if_pos rfl, if_pos rfl]
    cases ended : s.lineEnd? t.place with
    | none => rfl
    | some behind =>
      dsimp only [Option.map_some]
      rw [nextLine?_crlf h]
      cases read : t.nextLine? margin behind with
      | none => rfl
      | some t' =>
        obtain ⟨left, left'⟩ := rest _ (lt_place_of_nextLine? h (Source.lt_of_lineEnd? here ended) read)
        exact ih n (Nat.lt_succ_self n) left left'
  · obtain ⟨n, n', rfl, rfl, rest⟩ := enough_succ here enough enough'
    obtain ⟨left, left'⟩ := rest (t.place + 1) (Nat.lt_succ_self _)
    rw [quoted?, quoted?, place_shiftScan, here, there]
    dsimp only
    rw [isLineEnd_of_ne feed' plain', if_neg Bool.false_ne_true, if_neg Bool.false_ne_true, ← behind]
    split
    · rfl
    · exact ih n (Nat.lt_succ_self n) (t := { t with place := t.place + 1 }) left left'

theorem value?_crlf (h : s.Skips margin margin') :
    (s.shiftScan t).value? s.crlf margin' = (t.value? s margin).map s.shiftScan := by
  rw [value?, value?, place_shiftScan]
  rcases s.seen t.place with ⟨here, there⟩ | ⟨here, there, -, -⟩ | @⟨c, here, there, behind, feed, plain⟩
  · rw [here, there]
    rfl
  · rw [here, there]
    rfl
  · rw [here, there, ← behind]
    dsimp only
    split
    · refine quoted?_crlf h feed plain (t := { t with place := t.place + 1 }) ?_ ?_
      · dsimp only
        omega
      · dsimp only
        omega
    · rw [isLineEnd_of_ne feed plain]
      split
      · rfl
      · rw [Source.skip_crlf rfl]
        rfl

theorem attribute?_crlf (h : s.Skips margin margin') :
    (s.shiftScan t).attribute? s.crlf margin' = (t.attribute? s margin).map s.shiftScan := by
  rw [attribute?, attribute?, place_shiftScan, Source.any_crlf rfl]
  split
  next =>
    dsimp only
    rw [Source.skip_crlf rfl]
    have moved (j : Nat) : (⟨s.shift j, (s.shiftScan t).cuts⟩ : TagScan) = s.shiftScan { t with place := j } := rfl
    rw [moved, blanks?_crlf h]
    generalize blanks? s margin _ _ = sign
    cases sign with
    | none => rfl
    | some sign =>
      simp only [Option.map_some, Option.bind_eq_bind, Option.bind_some]
      rw [place_shiftScan, Source.isAt_crlf (by decide) (by decide)]
      split
      next equal =>
        rw [← Source.shift_add (Source.feeds_of_isAt equal (by decide))]
        have moved (j : Nat) : (⟨s.shift j, (s.shiftScan sign).cuts⟩ : TagScan) =
          s.shiftScan { sign with place := j } := rfl
        rw [moved, blanks?_crlf h]
        generalize blanks? s margin _ _ = start
        cases start with
        | none => rfl
        | some start => exact value?_crlf h
      next => rfl
  next => rfl

theorem gap?_crlf_of_lt (h : s.Skips margin margin') (inside : t.place ≤ s.stop)
    (enough : s.stop < t.place + n) (enough' : s.crlf.stop < s.shift t.place + n') :
    (s.shiftScan t).gap? s.crlf margin' n' = (t.gap? s margin n).map s.shiftScan := by
  induction n generalizing n' t with
  | zero => omega
  | succ n ih =>
    have inside' := (Source.shift_le_iff (s := s)).2 inside
    rw [← Source.stop_crlf] at inside'
    obtain ⟨n', rfl⟩ : ∃ m, n' = m + 1 := ⟨n' - 1, by omega⟩
    have blanks : t.place ≤ s.skipBlanks t.place := Source.le_skip _ _
    rw [gap?, gap?, place_shiftScan, Source.skipBlanks_crlf]
    rcases s.seen (s.skipBlanks t.place) with
      ⟨here, there⟩ | ⟨here, there, -, -⟩ | @⟨c, here, there, -, feed, plain⟩
    · rw [here, there]
      rfl
    · rw [here, there]
      dsimp only
      rw [isLineEnd_feed, isLineEnd_return, if_pos rfl, if_pos rfl, Source.lineEnd?_crlf]
      cases ended : s.lineEnd? (s.skipBlanks t.place) with
      | none => rfl
      | some behind =>
        dsimp only [Option.map_some]
        have moved : (⟨s.shift (s.skipBlanks t.place), (s.shiftScan t).cuts⟩ : TagScan) =
          s.shiftScan { t with place := s.skipBlanks t.place } := rfl
        rw [moved, nextLine?_crlf h]
        cases read : nextLine? margin { t with place := s.skipBlanks t.place } behind with
        | none => rfl
        | some t' =>
          have lt := lt_place_of_nextLine? h (Source.lt_of_lineEnd? here ended) read
          have lt' := (Source.shift_lt_iff (s := s)).2 (Nat.lt_of_le_of_lt blanks lt)
          have left := place_le_stop_of_nextLine? h
            (Source.le_stop_of_lineEnd? (Nat.le_of_lt (Source.lt_stop here)) ended) read
          exact ih left (by omega) (by omega)
    · rw [here, there]
      dsimp only
      rw [isLineEnd_of_ne feed plain, if_neg Bool.false_ne_true, if_neg Bool.false_ne_true]
      rfl

theorem gap?_crlf (h : s.Skips margin margin') :
    (s.shiftScan t).gap? s.crlf margin' (s.crlf.stop + 1 - s.shift t.place) =
      (t.gap? s margin (s.stop + 1 - t.place)).map s.shiftScan := by
  by_cases inside : t.place ≤ s.stop
  · exact gap?_crlf_of_lt h inside (by omega) (by omega)
  · have outside := (Source.shift_lt_iff (s := s)).2 (Nat.not_le.1 inside)
    rw [Source.stop_crlf, show s.shift s.stop + 1 - s.shift t.place = 0 by omega,
      show s.stop + 1 - t.place = 0 by omega]
    rfl

theorem attributes?_crlf_of_le (h : s.Skips margin margin') (enough : s.stop ≤ t.place + n)
    (enough' : s.crlf.stop ≤ s.shift t.place + n') :
    (s.shiftScan t).attributes? s.crlf margin' n' = (t.attributes? s margin n).map s.shiftScan := by
  induction n using Nat.strong_induction_on generalizing n' t with
  | h n ih =>
  cases here : s.char? t.place with
  | none =>
    rw [attributes?_of_end here, attributes?_of_end (Source.char?_crlf_eq_none here)]
    rfl
  | some c =>
    obtain ⟨n, n', rfl, rfl, rest⟩ := enough_succ here enough enough'
    rw [attributes?, attributes?, place_shiftScan, gap?_crlf h]
    cases gap : t.gap? s margin (s.stop + 1 - t.place) with
    | none => rfl
    | some next =>
      simp only [Option.map_some, Option.bind_eq_bind, Option.bind_some]
      rw [place_shiftScan, Source.isAt_crlf (by decide) (by decide), Source.isAt_crlf (by decide) (by decide)]
      split
      · rfl
      · simp only [Source.shift_inj]
        split
        next => rfl
        next moved =>
          rw [attribute?_crlf h]
          cases read : next.attribute? s margin with
          | none => rfl
          | some behind =>
            have lt : t.place < behind.place := Nat.lt_of_lt_of_le
              (Nat.lt_of_le_of_ne (le_place_gap? h gap) (Ne.symm moved)) (le_place_attribute? h read)
            exact ih n (Nat.lt_succ_self n) (rest _ lt).1 (rest _ lt).2

end TagScan

variable [s.IsPlain]

/-- The closing bracket of a tag, behind its name and its attributes. -/
def TagScan.close? (s : Source) (closing : Bool) (t : TagScan) : Option TagScan :=
  let place := s.skipBlanks t.place
  let place := if !closing && s.isAt place '/' then place + 1 else place
  if s.isAt place '>' then some { t with place := place + 1 } else none

theorem TagScan.close?_crlf (closing : Bool) :
    (s.shiftScan t).close? s.crlf closing = (t.close? s closing).map s.shiftScan := by
  unfold close?
  rw [place_shiftScan, Source.skipBlanks_crlf]
  generalize s.skipBlanks t.place = place
  dsimp only
  rw [Source.isAt_crlf (by decide) (by decide)]
  have stop : (if (!closing && s.isAt place '/') = true then s.shift place + 1 else s.shift place) =
      s.shift (if (!closing && s.isAt place '/') = true then place + 1 else place) := by
    split
    next slash =>
      rw [Source.shift_add (Source.feeds_of_isAt (Bool.and_eq_true_iff.1 slash).2 (by decide))]
    next => rfl
  rw [stop]
  generalize (if (!closing && s.isAt place '/') = true then place + 1 else place) = place
  rw [Source.isAt_crlf (by decide) (by decide)]
  split
  next close =>
    rw [← Source.shift_add (Source.feeds_of_isAt close (by decide))]
    rfl
  next => rfl

/-- Where the name of a tag starts. -/
def tagStart (s : Source) (i : Nat) : Nat := if s.isAt (i + 1) '/' then i + 2 else i + 1

/-- A closing tag has no attributes. -/
theorem tag?_eq (s : Source) (margin : Option (Nat → Nat)) (i : Nat) : tag? s margin i =
    if (s.char? (tagStart s i)).any Char.isAlpha then
      let behind := s.skip (fun c => isBasicAlphanumeric c || c = '-') (tagStart s i)
      if s.isAt (i + 1) '/' then TagScan.close? s true ⟨behind, []⟩
      else (TagScan.attributes? s margin (s.stop + 1 - behind) ⟨behind, []⟩).bind (TagScan.close? s false)
    else none := by
  unfold tag? tagStart
  cases s.isAt (i + 1) '/' <;> rfl

/-- A tag is read from behind its `<`. -/
theorem tag?_crlf (h : s.Skips margin margin') (same : i + 1 = s.shift (j + 1)) :
    tag? s.crlf margin' i = (tag? s margin j).map s.shiftScan := by
  have slash : s.crlf.isAt (i + 1) '/' = s.isAt (j + 1) '/' := by
    rw [same, Source.isAt_crlf (by decide) (by decide)]
  have start : tagStart s.crlf i = s.shift (tagStart s j) := by
    rw [tagStart, tagStart, slash]
    split
    next slash => rw [Source.shift_add (i := j + 1) (k := 1) (Source.feeds_of_isAt slash (by decide)), ← same]
    next => exact same
  rw [tag?_eq, tag?_eq, start, slash, Source.any_crlf rfl, Source.skip_crlf rfl]
  generalize s.skip (fun c => isBasicAlphanumeric c || c = '-') (tagStart s j) = behind
  dsimp only
  split
  · split
    · exact TagScan.close?_crlf true (t := ⟨behind, []⟩)
    · have read := TagScan.attributes?_crlf_of_le h (t := ⟨behind, []⟩) (n := s.stop + 1 - behind)
        (by dsimp only; omega) (show s.crlf.stop ≤ s.shift behind + (s.crlf.stop + 1 - s.shift behind) by omega)
      refine (congrArg (fun t => Option.bind t (TagScan.close? s.crlf false)) read).trans ?_
      cases TagScan.attributes? s margin (s.stop + 1 - behind) ⟨behind, []⟩ with
      | none => rfl
      | some t => exact TagScan.close?_crlf false
  · rfl

theorem skips_none (s : Source) : s.Skips none none := ⟨fun _ => rfl, nofun, nofun⟩

@[simp] theorem isLoneTag_crlf (i : Nat) (plain : s.isAt i '<' = true) :
    isLoneTag s.crlf (s.shift i) = isLoneTag s i := by
  have same : s.shift i + 1 = s.shift (i + 1) :=
    (Source.shift_add (Source.feeds_of_isAt plain (by decide))).symm
  rw [isLoneTag, isLoneTag, tag?_crlf (skips_none s) same]
  cases tag? s none i with
  | none => rfl
  | some t => simp

end PublisherConsole.Markdown
