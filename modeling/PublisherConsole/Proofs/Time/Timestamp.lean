import Mathlib.Tactic
import PublisherConsole.Time.Timestamp

/-!
# Written timestamps are read back

Reading is more liberal than writing, so each part of a timestamp is followed here from the form in
which it is written: digits (`number_padded`), numbers between bounds (`bounded_padded`), years
(`yearPart_yearText`) and fractions (`fractionPart_fractionText`). The main statement is
`Instant.ofText_text`: every instant of the calendar is read back from its text.
-/

namespace PublisherConsole.Time

variable {rest : List Char}

/-! ### Digits -/

/-- Text that does not go on with a digit. -/
def NoDigit (cs : List Char) : Prop := ∀ c ∈ cs.head?, c.isDigit = false

theorem noDigit_cons {c : Char} (h : c.isDigit = false) : NoDigit (c :: rest) := by
  simpa [NoDigit] using h

theorem isBlank_of_isDigit {c : Char} (h : c.isDigit = true) : Unicode.isBlank c = false := by
  simp only [Char.isDigit, Bool.and_eq_true, decide_eq_true_eq] at h
  have h₁ : 48 ≤ c.toNat := by simpa using UInt32.le_iff_toNat_le.1 h.1
  have h₂ : c.toNat ≤ 57 := by simpa using UInt32.le_iff_toNat_le.1 h.2
  simp only [Unicode.isBlank, Bool.or_eq_false_iff, Bool.and_eq_false_iff, decide_eq_false_iff_not]
  omega

theorem digit_lt_ten {c : Char} (h : c.isDigit = true) : c.toNat - '0'.toNat < 10 := by
  simp only [Char.isDigit, Bool.and_eq_true, decide_eq_true_eq] at h
  have h₂ : c.toNat ≤ 57 := by simpa using UInt32.le_iff_toNat_le.1 h.2
  have : '0'.toNat = 48 := rfl
  omega

/-- Blanks are only dropped where there are some. -/
theorem dropBlanks_cons {c : Char} (h : Unicode.isBlank c = false) :
    dropBlanks (c :: rest) = c :: rest := by
  simp [dropBlanks, h]

/-- Digits are read up to the given number of them, or to the first character that is none. At most
eighteen of them stay below the bound of numbers. -/
theorem digitsUpTo_append {most n k : Nat} {ds : List Char} (hd : ∀ c ∈ ds, c.isDigit = true)
    (hn : n < 10 ^ k) (hk : k + ds.length ≤ 18) (hm : ds.length ≤ most)
    (hr : ds.length = most ∨ NoDigit rest) :
    digitsUpTo most n (ds ++ rest) = .ok (Nat.ofDigitChars 10 ds n, rest) := by
  induction ds generalizing n k most with
  | nil =>
    cases most with
    | zero => simp [digitsUpTo]
    | succ most =>
      have hr : NoDigit rest := by simpa using hr
      cases rest with
      | nil => simp [digitsUpTo]
      | cons c cs => simp [digitsUpTo, hr c (by simp)]
  | cons c ds ih =>
    obtain ⟨most, rfl⟩ : ∃ m, most = m + 1 := ⟨most - 1, by simp at hm; omega⟩
    have hc : c.isDigit = true := hd c (by simp)
    have hlt := digit_lt_ten hc
    -- The number read so far has at most `k` digits, and each round adds one.
    have hm' : n * 10 + (c.toNat - '0'.toNat) < 10 ^ (k + 1) := by
      rw [pow_succ]; omega
    have hbound : n * 10 + (c.toNat - '0'.toNat) < 9223372036854775808 := by
      have : 10 ^ (k + 1) ≤ 10 ^ 18 :=
        Nat.pow_le_pow_right (by omega) (by simp at hk; omega)
      omega
    simp only [List.cons_append, digitsUpTo, hc, if_true, hbound]
    rw [ih (fun x hx => hd x (by simp [hx])) hm' (by simp at hk; omega) (by simpa using hm)
      (by simpa using hr), Nat.ofDigitChars_cons, Nat.mul_comm]

/-! ### Numbers of a fixed width -/

theorem isDigit_padded {width n : Nat} : ∀ c ∈ padded width n, c.isDigit = true := by
  intro c hc
  simp only [padded, List.mem_append, List.mem_replicate] at hc
  rcases hc with ⟨-, rfl⟩ | hc
  · rfl
  · exact Nat.isDigit_of_mem_toDigits (by omega) (by omega) hc

theorem ofDigitChars_padded (width n : Nat) : Nat.ofDigitChars 10 (padded width n) 0 = n := by
  rw [padded, Nat.ofDigitChars_append, Nat.ofDigitChars_replicate_zero, Nat.mul_zero,
    Nat.ofDigitChars_ten_toDigits]

theorem length_padded {width n : Nat} (hw : 0 < width) (hn : n < 10 ^ width) :
    (padded width n).length = width := by
  have := (Nat.length_toDigits_le_iff (b := 10) (by omega) hw).2 hn
  simp only [padded, List.length_append, List.length_replicate]
  omega

theorem length_padded_le {width k n : Nat} (hw : width ≤ k) (hk : 0 < k) (hn : n < 10 ^ k) :
    (padded width n).length ≤ k := by
  have := (Nat.length_toDigits_le_iff (b := 10) (by omega) hk).2 hn
  simp only [padded, List.length_append, List.length_replicate]
  omega

/-- Written digits begin with one. -/
theorem padded_eq_cons (width n : Nat) : ∃ c cs, padded width n = c :: cs ∧ c.isDigit = true := by
  have hne : padded width n ≠ [] := fun h => Nat.toDigits_ne_nil (List.append_eq_nil_iff.1 h).2
  obtain ⟨c, cs, h⟩ := List.exists_cons_of_ne_nil hne
  have hc : c ∈ padded width n := by simp [h]
  exact ⟨c, cs, h, isDigit_padded c hc⟩

/-- A written number is read back. -/
theorem number_padded {most width n : Nat} (h18 : (padded width n).length ≤ 18)
    (hm : (padded width n).length ≤ most)
    (hr : (padded width n).length = most ∨ NoDigit rest) :
    number most (padded width n ++ rest) = .ok (n, rest) := by
  obtain ⟨c, cs, hcons, hc⟩ := padded_eq_cons width n
  have hread : digitsUpTo most 0 (padded width n ++ rest) = .ok (n, rest) := by
    rw [digitsUpTo_append (k := 0) isDigit_padded (by omega) (by omega) hm hr, ofDigitChars_padded]
  rw [hcons] at hread ⊢
  simpa [number, hc] using hread

theorem dropBlanks_padded (width n : Nat) :
    dropBlanks (padded width n ++ rest) = padded width n ++ rest := by
  obtain ⟨c, cs, hcons, hc⟩ := padded_eq_cons width n
  rw [hcons, List.cons_append, dropBlanks_cons (isBlank_of_isDigit hc)]

/-- A number of two digits between bounds is read back. -/
theorem bounded_padded {low high n : Nat} (hl : low ≤ n) (hh : n ≤ high) (hn : n < 100) :
    bounded low high (padded 2 n ++ rest) = .ok (n, rest) := by
  have hlength : (padded 2 n).length = 2 := length_padded (by omega) hn
  simp only [bounded, dropBlanks_padded]
  rw [number_padded (by omega) (by omega) (.inl hlength)]
  simp [bind, Except.bind, hl, hh]

theorem mark_cons {x : Char} (h : Unicode.isBlank x = false) :
    mark x (dropBlanks (x :: rest)) = .ok ((), rest) := by
  simp [dropBlanks_cons h, mark]

/-! ### Parts -/

/-- A year of the calendar is read back. -/
theorem yearPart_yearText {year : Int} (hmin : minYear ≤ year) (hmax : year ≤ maxYear)
    (hr : NoDigit rest) : yearPart (yearText year ++ rest) = .ok (year, rest) := by
  unfold minYear at hmin
  unfold maxYear at hmax
  have range : -2147483648 ≤ year ∧ year < 2147483648 := by omega
  -- Only years of four digits are written without a sign.
  by_cases hplain : 0 ≤ year ∧ year ≤ 9999
  · obtain ⟨n, rfl⟩ : ∃ n : Nat, year = n := ⟨year.toNat, by omega⟩
    have hlength : (padded 4 n).length = 4 := length_padded (by omega) (by omega)
    have hnumber : number 4 (padded 4 n ++ rest) = .ok (n, rest) :=
      number_padded (by omega) (by omega) (.inl hlength)
    obtain ⟨c, cs, hcons, hc⟩ := padded_eq_cons 4 n
    simp only [yearText, if_pos hplain, Int.toNat_natCast, yearPart, dropBlanks_padded]
    rw [hcons, List.cons_append] at hnumber ⊢
    split
    next heq => obtain ⟨rfl, -⟩ := List.cons.inj heq; simp at hc
    next heq => obtain ⟨rfl, -⟩ := List.cons.inj heq; simp at hc
    next => simp [hnumber, bind, Except.bind, range]
  · have hlength : (padded 4 year.natAbs).length ≤ 6 :=
      length_padded_le (by omega) (by omega) (by omega)
    have hnumber : number (padded 4 year.natAbs ++ rest).length (padded 4 year.natAbs ++ rest) =
        .ok (year.natAbs, rest) :=
      number_padded (by omega) (by simp) (.inr hr)
    simp only [yearText, if_neg hplain, yearPart, List.cons_append]
    by_cases hneg : year < 0
    · have habs : -(year.natAbs : Int) = year := by omega
      rw [if_pos hneg, dropBlanks_cons (by decide)]
      simp only [hnumber, bind, Except.bind, habs, range, and_self, if_true]
    · have habs : (year.natAbs : Int) = year := by omega
      rw [if_neg hneg, dropBlanks_cons (by decide)]
      simp only [hnumber, bind, Except.bind, habs, range, and_self, if_true]

/-- A date of the calendar is read back. -/
theorem datePart_text {d : Date} (h : d.isValid = true) :
    datePart (yearText d.year ++ '-' :: padded 2 d.month ++ '-' :: padded 2 d.day ++ rest) =
      .ok (d, rest) := by
  obtain ⟨year, month, day⟩ := d
  simp only [Date.isValid, Bool.and_eq_true, decide_eq_true_eq] at h
  obtain ⟨⟨⟨⟨⟨hmin, hmax⟩, hm⟩, hm'⟩, hd⟩, hd'⟩ := h
  have hday : day ≤ 31 := by
    have : daysInMonth year month ≤ 31 := by unfold daysInMonth; split <;> (try split) <;> omega
    omega
  simp only [List.append_assoc, List.cons_append, datePart]
  rw [yearPart_yearText hmin hmax (noDigit_cons rfl)]
  simp only [bind, Except.bind]
  rw [mark_cons (by decide)]
  simp only
  rw [bounded_padded hm hm' (by omega)]
  simp only
  rw [mark_cons (by decide)]
  simp only
  rw [bounded_padded hd hday (by omega)]

/-- Some digits of a fraction are read back, scaled to nanoseconds. -/
theorem fractionPart_padded {width n : Nat} (hw : 0 < width) (hw' : width ≤ 9) (hn : n < 10 ^ width)
    (hr : NoDigit rest) :
    fractionPart ('.' :: padded width n ++ rest) = .ok (n * 10 ^ (9 - width), rest) := by
  have hlength := length_padded hw hn
  have hrest : rest.dropWhile Char.isDigit = rest := by
    cases rest with
    | nil => rfl
    | cons c cs => simp [hr c (by simp)]
  simp only [List.cons_append, fractionPart]
  rw [number_padded (by omega) (by omega) (.inr hr)]
  simp [bind, Except.bind, hlength, hrest]

/-- A fraction of a second is read back. -/
theorem fractionPart_fractionText {nano : Nat} (h : nano < 1000000000) (hr : NoDigit rest)
    (hp : rest.head? ≠ some '.') :
    fractionPart (fractionText nano ++ rest) = .ok (nano, rest) := by
  unfold fractionText
  split
  · subst nano
    unfold fractionPart
    split
    next heq => simp only [List.nil_append] at heq; simp [heq] at hp
    next => rfl
  · split
    · rw [fractionPart_padded (by omega) (by omega) (by omega) hr]
      congr 2
      omega
    · split
      · rw [fractionPart_padded (by omega) (by omega) (by omega) hr]
        congr 2
        omega
      · rw [fractionPart_padded (by omega) (by omega) (by omega) hr]
        simp

/-! ### Whole timestamps -/

/-- All parts of an instant are read back, and its offset is none. -/
theorem parts_text {t : Instant} (h : t.isValid = true) :
    parts (t.localText ++ ['Z']) = .ok ((t, 0), []) := by
  obtain ⟨date, hour, minute, second, nano⟩ := t
  simp only [Instant.isValid, Bool.and_eq_true, decide_eq_true_eq] at h
  obtain ⟨⟨⟨⟨hdate, hhour⟩, hminute⟩, hsecond⟩, hnano⟩ := h
  have happend : (Instant.localText ⟨date, hour, minute, second, nano⟩) ++ ['Z'] =
      yearText date.year ++ '-' :: padded 2 date.month ++ '-' :: padded 2 date.day ++
        ('T' :: (padded 2 hour ++ ':' :: (padded 2 minute ++ ':' :: (padded 2 second ++
          (fractionText nano ++ ['Z']))))) := by
    simp [Instant.localText, List.append_assoc]
  rw [happend, parts, datePart_text hdate]
  simp only [bind, Except.bind, separator, true_or, if_true]
  rw [bounded_padded (by omega) (by omega) (by omega)]
  simp only
  rw [mark_cons (by decide)]
  simp only
  rw [bounded_padded (by omega) (by omega) (by omega)]
  simp only
  rw [mark_cons (by decide)]
  simp only
  rw [bounded_padded (by omega) hsecond (by omega)]
  simp only
  rw [fractionPart_fractionText hnano (noDigit_cons rfl) (by decide)]
  rfl

/-- No offset changes nothing. -/
theorem minus?_zero {t : Instant} (h : t.isValid = true) : t.minus? 0 = some t := by
  obtain ⟨date, hour, minute, second, nano⟩ := t
  simp only [Instant.isValid, Bool.and_eq_true, decide_eq_true_eq] at h
  obtain ⟨⟨⟨⟨-, hhour⟩, hminute⟩, -⟩, -⟩ := h
  have hlow : ¬((hour : Int) * 60 + minute - 0 < 0) := by omega
  have hhigh : ¬(1440 ≤ (hour : Int) * 60 + minute - 0) := by omega
  simp only [Instant.minus?, if_neg hlow, if_neg hhigh, Option.some.injEq, Instant.mk.injEq,
    true_and, and_true]
  omega

/-- **Written timestamps are read back.** -/
theorem Instant.ofText_text {t : Instant} (h : t.isValid = true) :
    Instant.ofText t.text = .ok t := by
  have hdate : t.date.isValid = true := by
    simp only [Instant.isValid, Bool.and_eq_true] at h
    exact h.1.1.1.1
  simp only [Instant.ofText, Instant.text, String.toList_ofList, parts_text h]
  simp [bind, Except.bind, dropBlanks, hdate, minus?_zero h]

end PublisherConsole.Time
