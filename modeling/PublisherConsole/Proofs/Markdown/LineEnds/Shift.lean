import PublisherConsole.Proofs.Markdown.LineEnds.Rows
import PublisherConsole.Proofs.Markdown.Places

/-!
# Places in a text with carriage returns

`Source.crlf` is a source with a carriage return in front of every line feed, and `Source.shift` says where
each place comes to stand: as many places on as there are line feeds in front of it. What is seen there is
`Source.seen`. Whatever takes a carriage return as it takes a line feed goes from shifted places to shifted
places; this is what `skip_crlf`, `skipBack_crlf`, `lineEnd?_crlf` and `nextLine_crlf` say.

Two places with the same number of line feeds in front of them (`Source.feeds`) are in one line; they stay
as far apart as they are (`shift_sub`), and so does the stretch between them (`slice_crlf_of_line`).
-/

namespace PublisherConsole.Markdown

theorem isLineEnd_feed : isLineEnd '\n' = true := rfl

theorem isLineEnd_return : isLineEnd '\r' = true := rfl

theorem isLineEnd_of_ne {c : Char} (feed : c ≠ '\n') (plain : c ≠ '\r') : isLineEnd c = false := by
  simp [isLineEnd, feed, plain]

/-! ### Places -/

namespace Source

/-- How many line feeds stand in front of a place. -/
def feeds (s : Source) (i : Nat) : Nat := (s.chars.toList.take i).count '\n'

/-- Where a place comes to stand when every line feed has a carriage return in front of it. -/
def shift (s : Source) (i : Nat) : Nat := i + s.feeds i

/-- The source with a carriage return in front of every line feed. -/
def crlf (s : Source) : Source := ⟨(withReturns s.chars.toList).toArray, s.shift s.stop⟩

/-- There are no carriage returns in a source, and it is not closed off behind the end of its text. -/
class IsPlain (s : Source) : Prop where
  notMem : '\r' ∉ s.chars.toList
  stop_le : s.stop ≤ s.chars.size

variable {s : Source} {i j k : Nat} {c : Char} {p : Char → Bool}

theorem feeds_zero (s : Source) : s.feeds 0 = 0 := by simp [feeds]

theorem feeds_succ (s : Source) (i : Nat) :
    s.feeds (i + 1) = s.feeds i + if s.chars[i]? = some '\n' then 1 else 0 := by
  rw [feeds, feeds, List.take_add_one, List.count_append, Array.getElem?_toList]
  cases s.chars[i]? with
  | none => simp
  | some c => by_cases feed : c = '\n' <;> simp [feed]

theorem feeds_le (h : i ≤ j) : s.feeds i ≤ s.feeds j := by
  induction h with
  | refl => exact Nat.le_refl _
  | step _ ih =>
    rw [feeds_succ]
    omega

@[simp] theorem shift_zero (s : Source) : s.shift 0 = 0 := by rw [shift, feeds_zero]

@[simp] theorem shift_lt_iff : s.shift i < s.shift j ↔ i < j := by
  constructor
  · intro h
    by_contra le
    have := s.feeds_le (Nat.not_lt.1 le)
    simp only [shift] at h
    omega
  · intro h
    have := s.feeds_le (Nat.le_of_lt h)
    simp only [shift]
    omega

@[simp] theorem shift_le_iff : s.shift i ≤ s.shift j ↔ i ≤ j := by
  rw [← Nat.not_lt, shift_lt_iff, Nat.not_lt]

@[simp] theorem shift_inj : s.shift i = s.shift j ↔ i = j := by
  rw [Nat.eq_iff_le_and_ge, shift_le_iff, shift_le_iff, ← Nat.eq_iff_le_and_ge]

@[simp] theorem min_shift (s : Source) (i j : Nat) : min (s.shift i) (s.shift j) = s.shift (min i j) := by
  rcases Nat.le_total i j with h | h
  · rw [Nat.min_eq_left h, Nat.min_eq_left (shift_le_iff.2 h)]
  · rw [Nat.min_eq_right h, Nat.min_eq_right (shift_le_iff.2 h)]

@[simp] theorem max_shift (s : Source) (i j : Nat) : max (s.shift i) (s.shift j) = s.shift (max i j) := by
  rcases Nat.le_total i j with h | h
  · rw [Nat.max_eq_right h, Nat.max_eq_right (shift_le_iff.2 h)]
  · rw [Nat.max_eq_left h, Nat.max_eq_left (shift_le_iff.2 h)]

@[simp] theorem stop_crlf (s : Source) : s.crlf.stop = s.shift s.stop := rfl

@[simp] theorem upTo_crlf (s : Source) (i : Nat) : s.crlf.upTo (s.shift i) = (s.upTo i).crlf := by
  rw [upTo, stop_crlf, min_shift]
  rfl

@[simp] theorem feeds_upTo (s : Source) (k i : Nat) : (s.upTo k).feeds i = s.feeds i := rfl

@[simp] theorem shift_upTo (s : Source) (k i : Nat) : (s.upTo k).shift i = s.shift i := rfl

instance [h : s.IsPlain] : (s.upTo k).IsPlain := ⟨h.notMem, Nat.le_trans (Nat.min_le_right _ _) h.stop_le⟩

theorem char?_of_upTo (here : (s.upTo k).char? i = some c) : s.char? i = some c := by
  rw [char?] at here ⊢
  split at here
  next inside => rwa [if_pos (Nat.lt_of_lt_of_le inside (Nat.min_le_right k s.stop))]
  next => cases here

theorem char?_eq_none [h : s.IsPlain] : s.char? i = none ↔ s.stop ≤ i := by
  rw [char?]
  split
  next bound =>
    rw [Array.getElem?_eq_none_iff]
    have := h.stop_le
    omega
  next bound => simpa using bound

/-! ### Characters -/

theorem getElem?_withReturns (cs : List Char) (i : Nat) :
    (withReturns cs)[i + (cs.take i).count '\n']? = cs[i]?.map fun c => if c = '\n' then '\r' else c := by
  induction cs generalizing i with
  | nil => simp [withReturns]
  | cons c cs ih =>
    rw [withReturns_cons]
    cases i with
    | zero => by_cases feed : c = '\n' <;> simp [feed]
    | succ i =>
      rw [List.take_succ_cons, List.count_cons, List.getElem?_cons_succ, ← ih]
      by_cases feed : c = '\n'
      · simp [feed, show i + 1 + ((cs.take i).count '\n' + 1) = i + (cs.take i).count '\n' + 1 + 1 by omega]
      · simp [feed, show i + 1 + (cs.take i).count '\n' = i + (cs.take i).count '\n' + 1 by omega]

theorem getElem?_withReturns_succ (cs : List Char) (i : Nat) (h : cs[i]? = some '\n') :
    (withReturns cs)[i + (cs.take i).count '\n' + 1]? = some '\n' := by
  induction cs generalizing i with
  | nil => simp at h
  | cons c cs ih =>
    rw [withReturns_cons]
    cases i with
    | zero => simp_all
    | succ i =>
      rw [List.take_succ_cons, List.count_cons]
      rw [List.getElem?_cons_succ] at h
      have next := ih i h
      by_cases feed : c = '\n'
      · simpa [feed, show i + 1 + ((cs.take i).count '\n' + 1) = i + (cs.take i).count '\n' + 1 + 1 by omega]
          using next
      · simpa [feed, show i + 1 + (cs.take i).count '\n' = i + (cs.take i).count '\n' + 1 by omega] using next

theorem take_withReturns (cs : List Char) (n : Nat) :
    (withReturns cs).take (n + (cs.take n).count '\n') = withReturns (cs.take n) := by
  induction cs generalizing n with
  | nil => simp [withReturns]
  | cons c cs ih =>
    cases n with
    | zero => simp [withReturns]
    | succ n =>
      rw [List.take_succ_cons, withReturns_cons, withReturns_cons, ← ih, List.count_cons]
      by_cases feed : c = '\n'
      · simp [feed, show n + 1 + ((cs.take n).count '\n' + 1) = n + (cs.take n).count '\n' + 1 + 1 by omega]
      · simp [feed, show n + 1 + (cs.take n).count '\n' = n + (cs.take n).count '\n' + 1 by omega]

theorem drop_withReturns (cs : List Char) (n : Nat) :
    (withReturns cs).drop (n + (cs.take n).count '\n') = withReturns (cs.drop n) := by
  induction cs generalizing n with
  | nil => simp [withReturns]
  | cons c cs ih =>
    cases n with
    | zero => simp
    | succ n =>
      rw [List.drop_succ_cons, List.take_succ_cons, withReturns_cons, ← ih, List.count_cons]
      by_cases feed : c = '\n'
      · simp [feed, show n + 1 + ((cs.take n).count '\n' + 1) = n + (cs.take n).count '\n' + 1 + 1 by omega]
      · simp [feed, show n + 1 + (cs.take n).count '\n' = n + (cs.take n).count '\n' + 1 by omega]

theorem withReturns_of_notMem {cs : List Char} (h : '\n' ∉ cs) : withReturns cs = cs := by
  induction cs with
  | nil => rfl
  | cons c cs ih =>
    rw [List.mem_cons, not_or] at h
    rw [withReturns_cons, if_neg (Ne.symm h.1), ih h.2]
    rfl

/-- What is seen at a place, and at the place where it comes to stand. -/
inductive Seen (s : Source) (i : Nat) : Prop
  | stop (here : s.char? i = none) (there : s.crlf.char? (s.shift i) = none)
  | feed (here : s.char? i = some '\n') (there : s.crlf.char? (s.shift i) = some '\r')
    (next : s.crlf.char? (s.shift i + 1) = some '\n') (behind : s.shift (i + 1) = s.shift i + 2)
  | char {c : Char} (here : s.char? i = some c) (there : s.crlf.char? (s.shift i) = some c)
    (behind : s.shift (i + 1) = s.shift i + 1) (feed : c ≠ '\n') (plain : c ≠ '\r')

theorem seen (s : Source) [h : s.IsPlain] (i : Nat) : s.Seen i := by
  have there : s.crlf.char? (s.shift i) = (s.char? i).map fun c => if c = '\n' then '\r' else c := by
    rw [char?, char?, stop_crlf]
    simp only [shift_lt_iff]
    split
    · have chars := getElem?_withReturns s.chars.toList i
      rw [crlf, List.getElem?_toArray]
      exact chars.trans (by rw [Array.getElem?_toList])
    · rfl
  cases here : s.char? i with
  | none => exact .stop here (by rw [there, here]; rfl)
  | some c =>
    obtain ⟨bound, char⟩ : i < s.stop ∧ s.chars[i]? = some c := by
      rw [char?] at here
      split at here
      · exact ⟨‹_›, here⟩
      · cases here
    rw [here, Option.map_some] at there
    by_cases feed : c = '\n'
    · subst feed
      have behind : s.shift (i + 1) = s.shift i + 2 := by
        rw [shift, feeds_succ, if_pos char, shift]
        omega
      refine .feed here there ?_ behind
      have inside : s.shift i + 1 < s.crlf.stop := by
        have := (shift_le_iff (s := s) (i := i + 1)).2 bound
        rw [stop_crlf]
        omega
      rw [char?, if_pos inside, crlf, List.getElem?_toArray]
      exact getElem?_withReturns_succ s.chars.toList i (by simpa using char)
    · rw [if_neg feed] at there
      refine .char here there ?_ feed ?_
      · rw [shift, feeds_succ, if_neg (by simpa [char] using feed), shift]
        omega
      · rintro rfl
        exact h.notMem (by simpa using Array.mem_of_getElem? char)

theorem ne_return [s.IsPlain] (here : s.char? i = some c) : c ≠ '\r' := by
  rcases s.seen i with ⟨none, -⟩ | ⟨feed, -, -, -⟩ | ⟨char, -, -, -, plain⟩
  · cases here.symm.trans none
  · rw [Option.some.inj (here.symm.trans feed)]
    decide
  · rwa [Option.some.inj (here.symm.trans char)]

@[simp] theorem isEnd_crlf : s.crlf.isEnd (s.shift i) = s.isEnd i := by simp [isEnd]

theorem lt_stop (here : s.char? i = some c) : i < s.stop := by
  by_contra bound
  rw [char?, if_neg bound] at here
  cases here

/-- Skipping goes on from the next place. -/
theorem skip_eq (s : Source) (p : Char → Bool) (i : Nat) :
    s.skip p i = if (s.char? i).any p then s.skip p (i + 1) else i := by
  rw [skip]
  by_cases bound : i < s.stop
  · rw [show s.stop - i = (s.stop - (i + 1)) + 1 by omega, skipUpTo]
    rfl
  · rw [show s.stop - i = 0 by omega, char?, if_neg bound]
    rfl

theorem skipBack_succ (h : (s.char? i).any p = false) (low : Nat) : s.skipBack p low (i + 1) = i + 1 := by
  rw [skipBack, h, Bool.and_false, if_neg Bool.false_ne_true]

theorem nextLine_of_le (h : s.stop ≤ i) : s.nextLine i = i := by
  have found : s.find '\n' i = i := by
    rw [find, skip_eq, char?, if_neg (Nat.not_lt.2 h)]
    rfl
  simp [nextLine, found, isEnd, h]

theorem nextLine_of_feed (here : s.char? i = some '\n') : s.nextLine i = i + 1 := by
  have found : s.find '\n' i = i := by
    rw [find, skip_eq, here]
    rfl
  simp [nextLine, found, isEnd, lt_stop here]

theorem nextLine_of_char (here : s.char? i = some c) (feed : c ≠ '\n') : s.nextLine i = s.nextLine (i + 1) := by
  have found : s.find '\n' i = s.find '\n' (i + 1) := by
    rw [find, skip_eq, here, Option.any_some, if_pos (by simpa using feed), find]
  rw [nextLine, nextLine, found]

/-- What holds of a place if it holds of the next one, or if the place is the end, holds of every place. -/
theorem forall_of_next {p : Nat → Prop} (s : Source) (h : ∀ i, (i < s.stop → p (i + 1)) → p i) : ∀ i, p i := by
  intro i
  induction left : s.stop - i generalizing i with
  | zero => exact h i fun bound => by omega
  | succ n ih => exact h i fun _ => ih (i + 1) (by omega)

theorem lt_of_lineEnd? (here : s.char? i = some c) (ended : s.lineEnd? i = some j) : i < j := by
  rw [lineEnd?, here] at ended
  split at ended
  next none => cases none
  · obtain rfl := Option.some.inj ended
    exact Nat.lt_succ_self i
  · obtain rfl := Option.some.inj ended
    split <;> omega
  · cases ended

theorem le_of_lineEnd? (ended : s.lineEnd? i = some j) : i ≤ j := by
  cases here : s.char? i with
  | none =>
    rw [lineEnd?, here] at ended
    exact Nat.le_of_eq (Option.some.inj ended)
  | some c => exact Nat.le_of_lt (lt_of_lineEnd? here ended)

theorem le_stop_of_lineEnd? (inside : i ≤ s.stop) (ended : s.lineEnd? i = some j) : j ≤ s.stop := by
  rw [lineEnd?] at ended
  split at ended
  · exact Option.some.inj ended ▸ inside
  next here => exact Option.some.inj ended ▸ lt_stop here
  next here =>
    obtain rfl := Option.some.inj ended
    split
    next feed => exact lt_stop (of_decide_eq_true feed)
    next => exact lt_stop here
  · cases ended

/-! ### Stretches -/

theorem feeds_of_char (here : s.char? i = some c) (feed : c ≠ '\n') : s.feeds (i + 1) = s.feeds i := by
  have char : s.chars[i]? = some c := by rwa [char?, if_pos (lt_stop here)] at here
  rw [feeds_succ, char, if_neg (by simpa using feed), Nat.add_zero]

theorem feeds_of_isAt (here : s.isAt i c = true) (feed : c ≠ '\n') : s.feeds (i + 1) = s.feeds i :=
  feeds_of_char (of_decide_eq_true here) feed

@[simp] theorem feeds_skipUpTo (feed : p '\n' = false) (fuel i : Nat) :
    s.feeds (s.skipUpTo p fuel i) = s.feeds i := by
  induction fuel generalizing i with
  | zero => rfl
  | succ fuel ih =>
    rw [skipUpTo]
    split
    next skipped =>
      obtain ⟨c, here, holds⟩ := (Option.any_eq_true _ _).1 skipped
      rw [ih, feeds_of_char here]
      rintro rfl
      exact absurd (holds.symm.trans feed) Bool.noConfusion
    next => rfl

@[simp] theorem feeds_skip (feed : p '\n' = false) (i : Nat) : s.feeds (s.skip p i) = s.feeds i :=
  feeds_skipUpTo feed _ i

@[simp] theorem feeds_skipRun (feed : c ≠ '\n') (i : Nat) : s.feeds (s.skipRun c i) = s.feeds i :=
  feeds_skip (by simpa using feed.symm) i

theorem feeds_skipBack (feed : p '\n' = false) (low i : Nat) : s.feeds (s.skipBack p low i) = s.feeds i := by
  induction i with
  | zero => rfl
  | succ i ih =>
    rw [skipBack]
    split
    next skipped =>
      obtain ⟨c, here, holds⟩ := (Option.any_eq_true _ _).1 (Bool.and_eq_true_iff.1 skipped).2
      rw [ih, feeds_of_char here]
      rintro rfl
      exact absurd (holds.symm.trans feed) Bool.noConfusion
    next => rfl

/-- Two places of one line stay as far apart as they are. -/
theorem shift_sub (h : s.feeds i = s.feeds j) : s.shift j - s.shift i = j - i := by
  simp only [shift]
  omega

theorem shift_add (h : s.feeds (i + k) = s.feeds i) : s.shift (i + k) = s.shift i + k := by
  simp only [shift]
  omega

theorem slice_crlf (s : Source) (i j : Nat) :
    s.crlf.slice (s.shift i) (s.shift j) = withReturns (s.slice i j) := by
  rw [slice_eq, slice_eq, stop_crlf, min_shift]
  generalize min j s.stop = m
  change ((withReturns s.chars.toList).drop (s.shift i)).take (s.shift m - s.shift i) = _
  rcases Nat.le_total m i with le | le
  · rw [Nat.sub_eq_zero_of_le le, Nat.sub_eq_zero_of_le (shift_le_iff.2 le)]
    rfl
  · have front : (withReturns s.chars.toList).take (s.shift m) = withReturns (s.chars.toList.take m) :=
      take_withReturns _ m
    have same : s.shift i = i + ((s.chars.toList.take m).take i).count '\n' := by
      rw [List.take_take, Nat.min_eq_left le]
      rfl
    rw [← List.drop_take, ← List.drop_take, front, same, drop_withReturns]

theorem slice_subset (s : Source) (i j : Nat) : s.slice i j ⊆ s.chars.toList := by
  intro c mem
  rw [slice_eq] at mem
  exact List.mem_of_mem_drop (List.mem_of_mem_take mem)

theorem lineFeed_notMem_slice (h : s.feeds i = s.feeds j) : '\n' ∉ s.slice i j := by
  intro feed
  obtain ⟨k, low, high, here⟩ := exists_of_mem_slice feed
  have char : s.chars[k]? = some '\n' := by rwa [char?, if_pos (lt_stop here)] at here
  have step := s.feeds_succ k
  rw [char, if_pos rfl] at step
  have before := s.feeds_le low
  have behind := s.feeds_le (Nat.succ_le_of_lt high)
  rw [Nat.succ_eq_add_one] at behind
  omega

theorem slice_crlf_of_line (h : s.feeds i = s.feeds j) : s.crlf.slice (s.shift i) (s.shift j) = s.slice i j := by
  rw [slice_crlf, withReturns_of_notMem (lineFeed_notMem_slice h)]

section

variable [s.IsPlain]

theorem char?_crlf_eq_none (here : s.char? i = none) : s.crlf.char? (s.shift i) = none := by
  rcases s.seen i with ⟨-, there⟩ | ⟨here', -, -, -⟩ | ⟨here', -, -, -, -⟩
  · exact there
  · cases here.symm.trans here'
  · cases here.symm.trans here'

/-- What is no part of a line end stands at a shifted place. -/
theorem exists_of_char?_crlf (there : s.crlf.char? k = some c) (feed : c ≠ '\n') (plain : c ≠ '\r') :
    ∃ j, k = s.shift j ∧ s.char? j = some c := by
  have bound : k < s.shift s.stop := lt_stop there
  have between (n : Nat) (lt : k < s.shift n) : ∃ j, s.shift j ≤ k ∧ k < s.shift (j + 1) := by
    induction n with
    | zero => simp at lt
    | succ n ih =>
      by_cases below : k < s.shift n
      · exact ih below
      · exact ⟨n, Nat.not_lt.1 below, lt⟩
  obtain ⟨j, low, high⟩ := between _ bound
  rcases s.seen j with ⟨here, -⟩ | ⟨-, there', next, behind⟩ | ⟨here, there', behind, -, -⟩
  · have := (shift_le_iff (s := s)).2 (char?_eq_none.1 here)
    omega
  · rcases Nat.eq_or_lt_of_le low with rfl | more
    · exact absurd (Option.some.inj (there.symm.trans there')) plain
    · obtain rfl : k = s.shift j + 1 := by omega
      exact absurd (Option.some.inj (there.symm.trans next)) feed
  · obtain rfl : k = s.shift j := by omega
    exact ⟨j, rfl, here.trans (there'.symm.trans there)⟩

/-- What stands in front of a place is the same, also behind a line feed. -/
theorem char?_before (some : 0 < i) : s.crlf.char? (s.shift i - 1) = s.char? (i - 1) := by
  obtain ⟨i, rfl⟩ : ∃ j, i = j + 1 := ⟨i - 1, by omega⟩
  rw [Nat.add_sub_cancel]
  rcases s.seen i with ⟨here, -⟩ | ⟨here, -, next, behind⟩ | ⟨here, there, behind, -, -⟩
  · have end' := (shift_le_iff (s := s)).2 (char?_eq_none.1 here)
    have next := (shift_lt_iff (s := s)).2 (Nat.lt_add_one i)
    rw [here, char?, stop_crlf, if_neg (by omega)]
  · rw [behind, here]
    exact next
  · rw [behind, here]
    exact there

@[simp] theorem isAt_crlf (feed : c ≠ '\n') (plain : c ≠ '\r') :
    s.crlf.isAt (s.shift i) c = s.isAt i c := by
  unfold isAt
  rcases s.seen i with ⟨here, there⟩ | ⟨here, there, -, -⟩ | ⟨here, there, -, -, -⟩ <;>
    simp [here, there, feed.symm, plain.symm]

theorem any_crlf {p : Char → Bool} (same : p '\r' = p '\n') :
    (s.crlf.char? (s.shift i)).any p = (s.char? i).any p := by
  rcases s.seen i with ⟨here, there⟩ | ⟨here, there, -, -⟩ | ⟨here, there, -, -, -⟩ <;>
    simp [here, there, same]

/-! ### Skipping -/

/-- Skipping stops at the place where the one it stops at comes to stand. -/
@[simp] theorem skip_crlf {p : Char → Bool} (same : p '\r' = p '\n') :
    s.crlf.skip p (s.shift i) = s.shift (s.skip p i) := by
  induction i using s.forall_of_next with
  | h i ih =>
  rw [skip_eq s, skip_eq s.crlf]
  rcases s.seen i with ⟨here, there⟩ | ⟨here, there, next, behind⟩ | ⟨here, there, behind, -, -⟩
  · simp [here, there]
  · rw [here, there, Option.any_some, Option.any_some, same]
    split
    next skipped =>
      rw [skip_eq, next, Option.any_some, if_pos skipped, ← ih (lt_stop here), behind]
    next => rfl
  · rw [here, there, Option.any_some, ← behind]
    split
    · exact ih (lt_stop here)
    · rfl

@[simp] theorem skipBlanks_crlf : s.crlf.skipBlanks (s.shift i) = s.shift (s.skipBlanks i) := skip_crlf rfl

@[simp] theorem skipRun_crlf (feed : c ≠ '\n') (plain : c ≠ '\r') :
    s.crlf.skipRun c (s.shift i) = s.shift (s.skipRun c i) :=
  skip_crlf (by simp [feed.symm, plain.symm])

@[simp] theorem find_crlf (feed : c ≠ '\n') (plain : c ≠ '\r') :
    s.crlf.find c (s.shift i) = s.shift (s.find c i) :=
  skip_crlf (by simp [feed.symm, plain.symm])

@[simp] theorem skipUpTo_crlf {p : Char → Bool} (feed : p '\n' = false) (plain : p '\r' = false) (fuel : Nat) :
    s.crlf.skipUpTo p fuel (s.shift i) = s.shift (s.skipUpTo p fuel i) := by
  induction fuel generalizing i with
  | zero => rfl
  | succ fuel ih =>
    rw [skipUpTo, skipUpTo, any_crlf (plain.trans feed.symm)]
    split
    next skipped =>
      rcases s.seen i with ⟨here, there⟩ | ⟨here, -, -, -⟩ | ⟨-, -, behind, -, -⟩
      · rw [here] at skipped
        cases skipped
      · rw [here, Option.any_some, feed] at skipped
        cases skipped
      · rw [← behind, ih]
    next => rfl

@[simp] theorem skipBack_crlf (same : p '\r' = p '\n') (low i : Nat) :
    s.crlf.skipBack p (s.shift low) (s.shift i) = s.shift (s.skipBack p low i) := by
  induction i with
  | zero => rw [shift_zero, skipBack, skipBack, shift_zero]
  | succ i ih =>
    rcases s.seen i with ⟨here, -⟩ | ⟨here, there, next, behind⟩ | ⟨here, there, behind, -, -⟩
    · obtain ⟨k, heq⟩ : ∃ k, s.shift (i + 1) = k + 1 := ⟨s.shift (i + 1) - 1, by simp only [shift]; omega⟩
      have there : s.crlf.char? k = none := by
        have end' := (shift_le_iff (s := s)).2 (char?_eq_none.1 here)
        have next := (shift_lt_iff (s := s)).2 (Nat.lt_add_one i)
        rw [char?, stop_crlf, if_neg (by omega)]
      rw [heq, skipBack_succ (by rw [there]; rfl), skipBack_succ (by rw [here]; rfl), heq]
    · have above : s.shift low ≤ s.shift i + 1 ↔ low ≤ i := by
        rw [← Nat.lt_add_one_iff, Nat.add_assoc, ← behind, shift_lt_iff, Nat.lt_add_one_iff]
      rw [behind, skipBack, skipBack, skipBack, next, there, here]
      simp only [above, shift_le_iff, Option.any_some, same]
      split
      · exact ih
      · rw [behind]
    · rw [behind, skipBack, skipBack, there, here]
      simp only [shift_le_iff, Option.any_some]
      split
      · exact ih
      · rw [behind]

/-! ### Line ends -/

@[simp] theorem lineEnd?_crlf : s.crlf.lineEnd? (s.shift i) = (s.lineEnd? i).map s.shift := by
  unfold lineEnd?
  rcases s.seen i with ⟨here, there⟩ | ⟨here, there, next, behind⟩ | ⟨here, there, behind, feed, plain⟩
  · simp [here, there]
  · simp [here, there, isAt, next, behind]
  · simp [here, there]

@[simp] theorem blankLine?_crlf : s.crlf.blankLine? (s.shift i) = (s.blankLine? i).map s.shift := by
  simp [blankLine?]

@[simp] theorem nextLine_crlf : s.crlf.nextLine (s.shift i) = s.shift (s.nextLine i) := by
  induction i using s.forall_of_next with
  | h i ih =>
  rcases s.seen i with ⟨here, -⟩ | ⟨here, there, next, behind⟩ | ⟨here, there, behind, feed, -⟩
  · have bound := char?_eq_none.1 here
    rw [nextLine_of_le bound, nextLine_of_le (shift_le_iff.2 bound)]
  · rw [nextLine_of_feed here, nextLine_of_char there (by decide), nextLine_of_feed next, behind]
  · rw [nextLine_of_char here feed, nextLine_of_char there feed, ← behind, ih (lt_stop here)]

theorem startsWith_crlf {text : List Char} (feed : '\n' ∉ text) (plain : '\r' ∉ text) :
    s.crlf.startsWith (s.shift i) text = s.startsWith i text := by
  induction text generalizing i with
  | nil => rfl
  | cons c cs ih =>
    rw [List.mem_cons, not_or] at feed plain
    rw [startsWith, startsWith, isAt_crlf (Ne.symm feed.1) (Ne.symm plain.1)]
    cases here : s.isAt i c with
    | false => rfl
    | true => rw [Bool.true_and, Bool.true_and, ← shift_add (feeds_of_isAt here (Ne.symm feed.1)), ih feed.2 plain.2]

@[simp] theorem decimal_crlf (limit i : Nat) :
    s.crlf.decimal limit (s.shift i) = ((s.decimal limit i).1, s.shift (s.decimal limit i).2) := by
  rw [decimal, decimal, skipUpTo_crlf rfl rfl, slice_crlf_of_line (feeds_skipUpTo rfl _ _).symm]

end

end Source

end PublisherConsole.Markdown
