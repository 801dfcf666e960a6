import PublisherConsole.Markdown.Source

/-!
# Stretches of a source

What is between two places of a source, and where skipping stops.
-/

namespace PublisherConsole.Markdown

namespace Source

variable {s : Source} {i j k : Nat} {c : Char}

theorem le_skipUpTo (p : Char → Bool) (fuel i : Nat) : i ≤ s.skipUpTo p fuel i := by
  induction fuel generalizing i with
  | zero => exact Nat.le_refl i
  | succ fuel ih =>
    rw [skipUpTo]
    split
    · exact Nat.le_trans (Nat.le_succ i) (ih (i + 1))
    · exact Nat.le_refl i

theorem le_skip (p : Char → Bool) (i : Nat) : i ≤ s.skip p i := s.le_skipUpTo p _ i

/-- Skipping stops at a character that does not satisfy the condition, or at the end. -/
theorem not_any_skipUpTo (p : Char → Bool) {fuel i : Nat} (enough : s.stop ≤ i + fuel) :
    (s.char? (s.skipUpTo p fuel i)).any p = false := by
  induction fuel generalizing i with
  | zero =>
    rw [skipUpTo, char?, if_neg (by omega)]
    rfl
  | succ fuel ih =>
    rw [skipUpTo]
    split
    · exact ih (by omega)
    · next h => simpa using h

theorem not_any_skip (p : Char → Bool) (i : Nat) : (s.char? (s.skip p i)).any p = false :=
  not_any_skipUpTo p (by omega)

/-- All characters that are skipped satisfy the condition. -/
theorem of_lt_skipUpTo {p : Char → Bool} {fuel i : Nat} (low : i ≤ k) (high : k < s.skipUpTo p fuel i) :
    (s.char? k).any p = true := by
  induction fuel generalizing i with
  | zero => exact absurd (Nat.lt_of_le_of_lt low high) (Nat.lt_irrefl _)
  | succ fuel ih =>
    rw [skipUpTo] at high
    split at high
    next here =>
      rcases Nat.eq_or_lt_of_le low with rfl | more
      · exact here
      · exact ih more high
    next => exact absurd (Nat.lt_of_le_of_lt low high) (Nat.lt_irrefl _)

theorem of_lt_skip {p : Char → Bool} (low : i ≤ k) (high : k < s.skip p i) : (s.char? k).any p = true :=
  of_lt_skipUpTo low high

/-! ### Slices -/

/-- The characters of a stretch are at its places. -/
theorem exists_of_mem_slice (h : c ∈ s.slice i j) : ∃ k, i ≤ k ∧ k < j ∧ s.char? k = some c := by
  rw [slice, Array.mem_toList_iff, Array.mem_extract_iff_getElem] at h
  obtain ⟨k, bound, here⟩ := h
  refine ⟨i + k, by omega, by omega, ?_⟩
  rw [char?, if_pos (by omega), ← here]
  exact Array.getElem?_eq_getElem _

theorem slice_eq (s : Source) (i j : Nat) :
    s.slice i j = (s.chars.toList.drop i).take (min j s.stop - i) := by
  rw [slice, Array.toList_extract, List.extract_eq_take_drop]

theorem slice_of_le (h : j ≤ i) : s.slice i j = [] := by
  rw [slice_eq, show min j s.stop - i = 0 by omega, List.take_zero]

/-- A stretch of one more place has one more character. -/
theorem slice_succ (low : i ≤ j) (here : s.char? j = some c) :
    s.slice i (j + 1) = s.slice i j ++ [c] := by
  rw [char?] at here
  split at here
  next bound =>
    rw [slice_eq, slice_eq, show min (j + 1) s.stop - i = (j - i) + 1 by omega,
      show min j s.stop - i = j - i by omega, List.take_add_one, List.getElem?_drop,
      Array.getElem?_toList, show i + (j - i) = j by omega, here]
    rfl
  next => cases here

end Source

end PublisherConsole.Markdown
