import PublisherConsole.Proofs.Outcome
import PublisherConsole.Proofs.Time.Timestamp
import PublisherConsole.Time.Instant

/-!
# Where instants come from

An instant is read from a text or told by a clock. Either way its parts are in their ranges:

* what is read is bounded digit by digit (`digitsUpTo_lt`, `fractionPart_lt`), and an offset leads to
  a neighbouring day at most (`Instant.isValid_of_minus?`), so texts give instants of the calendar
  (`Instant.isValid_of_ofText`);
* a clock counts days, which are divided into years (`yearOfDay_eq`) and months (`monthOfDay_range`);
  up to the end of the calendar it gives instants of it (`Instant.isValid_ofClock`).

`Instant.arises_iff` says that these are all the instants of the calendar.
-/

namespace PublisherConsole.Time

variable {cs rest : List Char} {n : Nat}

/-! ### Numbers that are read -/

/-- Each digit that is read multiplies the bound by ten. -/
theorem digitsUpTo_lt {most m : Nat} (h : digitsUpTo most m cs = .ok (n, rest)) :
    ∃ k ≤ most, cs.length = rest.length + k ∧ n < (m + 1) * 10 ^ k := by
  induction most generalizing m cs with
  | zero =>
    obtain ⟨rfl, rfl⟩ : m = n ∧ cs = rest := by simpa [digitsUpTo] using h
    exact ⟨0, le_rfl, rfl, by omega⟩
  | succ most ih =>
    cases cs with
    | nil =>
      obtain ⟨rfl, rfl⟩ : m = n ∧ [] = rest := by simpa [digitsUpTo] using h
      exact ⟨0, by omega, rfl, by omega⟩
    | cons c cs =>
      unfold digitsUpTo at h
      split at h
      next hc =>
        dsimp only at h
        split at h
        next =>
          obtain ⟨k, hk, hlength, hn⟩ := ih h
          have hdigit := digit_lt_ten hc
          refine ⟨k + 1, by omega, by simp [hlength]; omega, ?_⟩
          calc n < (m * 10 + (c.toNat - '0'.toNat) + 1) * 10 ^ k := hn
            _ ≤ ((m + 1) * 10) * 10 ^ k := Nat.mul_le_mul_right _ (by omega)
            _ = (m + 1) * 10 ^ (k + 1) := by rw [pow_succ]; ring
        next => cases h
      next =>
        obtain ⟨rfl, rfl⟩ : m = n ∧ c :: cs = rest := by simpa using h
        exact ⟨0, by omega, rfl, by omega⟩

theorem number_lt {most : Nat} (h : number most cs = .ok (n, rest)) :
    ∃ k ≤ most, cs.length = rest.length + k ∧ n < 10 ^ k := by
  unfold number at h
  split at h
  · cases h
  · split at h
    · obtain ⟨k, hk, hlength, hn⟩ := digitsUpTo_lt h
      exact ⟨k, hk, hlength, by simpa using hn⟩
    · cases h

theorem bounded_range {low high : Nat} (h : bounded low high cs = .ok (n, rest)) :
    low ≤ n ∧ n ≤ high := by
  obtain ⟨⟨m, cs'⟩, -, h⟩ := bind_eq_ok h
  dsimp only at h
  split at h
  next hm =>
    obtain ⟨rfl, -⟩ : m = n ∧ cs' = rest := by simpa using h
    exact hm
  next => cases h

/-- A fraction is less than a second: with fewer than nine digits it is scaled, and no digit behind
the ninth is counted. -/
theorem fractionPart_lt (h : fractionPart cs = .ok (n, rest)) : n < 1000000000 := by
  unfold fractionPart at h
  split at h
  next cs =>
    obtain ⟨⟨m, cs'⟩, hm, h⟩ := bind_eq_ok h
    obtain ⟨k, hk, hlength, hlt⟩ := number_lt hm
    obtain ⟨hn, -⟩ : m * Nat.pow 10 (9 - (cs.length - cs'.length)) = n ∧ _ = rest := by
      simpa using h
    have hk' : cs.length - cs'.length = k := by omega
    rw [hk'] at hn
    calc n = m * 10 ^ (9 - k) := hn.symm
      _ < 10 ^ k * 10 ^ (9 - k) := Nat.mul_lt_mul_of_pos_right hlt (by positivity)
      _ = 1000000000 := by rw [← pow_add, show k + (9 - k) = 9 by omega]; rfl
  next =>
    obtain ⟨rfl, -⟩ : 0 = n ∧ _ = rest := by simpa using h
    omega

/-! ### Neighbouring days -/

variable {d d' : Date} {t t' : Instant}

theorem Date.isValid_iff :
    d.isValid = true ↔ (minYear ≤ d.year ∧ d.year ≤ maxYear) ∧ (1 ≤ d.month ∧ d.month ≤ 12) ∧
      1 ≤ d.day ∧ d.day ≤ daysInMonth d.year d.month := by
  simp only [Date.isValid, Bool.and_eq_true, decide_eq_true_eq]
  tauto

theorem Instant.isValid_iff :
    t.isValid = true ↔ t.date.isValid = true ∧ t.hour < 24 ∧ t.minute < 60 ∧ t.second ≤ 60 ∧
      t.nano < 1000000000 := by
  simp only [Instant.isValid, Bool.and_eq_true, decide_eq_true_eq]
  tauto

theorem daysInMonth_range (year : Int) (month : Nat) :
    28 ≤ daysInMonth year month ∧ daysInMonth year month ≤ 31 := by
  unfold daysInMonth
  split
  · split <;> omega
  all_goals omega

theorem Date.isValid_of_next? (h : d.isValid = true) (hn : d.next? = some d') :
    d'.isValid = true := by
  rw [Date.isValid_iff] at h ⊢
  have hpos := daysInMonth_range
  unfold Date.next? at hn
  split_ifs at hn with hday hmonth hyear
  · cases hn
    dsimp only
    omega
  · cases hn
    have := hpos d.year (d.month + 1)
    dsimp only
    omega
  · cases hn
    have := hpos (d.year + 1) 1
    dsimp only
    unfold minYear maxYear at *
    omega

theorem Date.isValid_of_previous? (h : d.isValid = true) (hp : d.previous? = some d') :
    d'.isValid = true := by
  rw [Date.isValid_iff] at h ⊢
  have hpos := daysInMonth_range
  unfold Date.previous? at hp
  split_ifs at hp with hday hmonth hyear
  · cases hp
    dsimp only
    omega
  · cases hp
    have := hpos d.year (d.month - 1)
    dsimp only
    omega
  · cases hp
    have : daysInMonth (d.year - 1) 12 = 31 := rfl
    dsimp only
    unfold minYear maxYear at *
    omega

/-- Less than a day away from an instant of the calendar there is one on the same or a neighbouring
day. -/
theorem Instant.isValid_of_minus? (h : t.isValid = true) {minutes : Int}
    (hm : minutes.natAbs < 1440) (hs : t.minus? minutes = some t') : t'.isValid = true := by
  rw [Instant.isValid_iff] at h ⊢
  obtain ⟨hdate, hhour, hminute, hsecond, hnano⟩ := h
  unfold Instant.minus? at hs
  dsimp only at hs
  split_ifs at hs with hlow hhigh
  · obtain ⟨date, hd, rfl⟩ := Option.map_eq_some_iff.1 hs
    have := Date.isValid_of_previous? hdate hd
    refine ⟨this, ?_, ?_, hsecond, hnano⟩ <;> dsimp only <;> omega
  · obtain ⟨date, hd, rfl⟩ := Option.map_eq_some_iff.1 hs
    have := Date.isValid_of_next? hdate hd
    refine ⟨this, ?_, ?_, hsecond, hnano⟩ <;> dsimp only <;> omega
  · cases hs
    refine ⟨hdate, ?_, ?_, hsecond, hnano⟩ <;> dsimp only <;> omega

/-! ### Instants that are read -/

/-- The time of day that is read is in its ranges; the date is looked at later. -/
theorem parts_range {offset : Int} (h : parts cs = .ok ((t, offset), rest)) :
    t.hour < 24 ∧ t.minute < 60 ∧ t.second ≤ 60 ∧ t.nano < 1000000000 := by
  obtain ⟨⟨date, _⟩, -, h⟩ := bind_eq_ok h
  obtain ⟨⟨_, _⟩, -, h⟩ := bind_eq_ok h
  obtain ⟨⟨hour, _⟩, hhour, h⟩ := bind_eq_ok h
  obtain ⟨⟨_, _⟩, -, h⟩ := bind_eq_ok h
  obtain ⟨⟨minute, _⟩, hminute, h⟩ := bind_eq_ok h
  obtain ⟨⟨_, _⟩, -, h⟩ := bind_eq_ok h
  obtain ⟨⟨second, _⟩, hsecond, h⟩ := bind_eq_ok h
  obtain ⟨⟨nano, _⟩, hnano, h⟩ := bind_eq_ok h
  obtain ⟨⟨offset', _⟩, -, h⟩ := bind_eq_ok h
  cases h
  have hhour := bounded_range hhour
  have hminute := bounded_range hminute
  have hsecond := bounded_range hsecond
  have hnano := fractionPart_lt hnano
  dsimp only
  omega

/-- **Texts give instants of the calendar.** -/
theorem Instant.isValid_of_ofText {text : String} (h : Instant.ofText text = .ok t) :
    t.isValid = true := by
  obtain ⟨⟨⟨t₀, offset⟩, rest⟩, hparts, h⟩ := bind_eq_ok h
  have htime := parts_range hparts
  dsimp only at h
  split_ifs at h with htrailing hdate hoffset
  have hvalid : t₀.isValid = true := Instant.isValid_iff.2 ⟨by simpa using hdate, htime⟩
  split at h
  next t' hminus =>
    cases h
    exact Instant.isValid_of_minus? hvalid (by omega) hminus
  next => cases h

/-! ### Clocks -/

/-- The days of the months that remain: `n` more behind the given one. -/
def daysInMonths (year : Int) : Nat → Nat → Nat
  | 0, month => daysInMonth year month
  | n + 1, month => daysInMonth year month + daysInMonths year n (month + 1)

theorem daysInMonths_year (year : Int) : daysInMonths year 11 1 = daysInYear year := by
  simp only [daysInMonths, daysInMonth, daysInYear]
  split <;> rfl

/-- A day of the remaining months is in one of them. -/
theorem monthOfDay_range (year : Int) (n month day : Nat) (h : day < daysInMonths year n month) :
    month ≤ (monthOfDay year n month day).1 ∧ (monthOfDay year n month day).1 ≤ month + n ∧
      1 ≤ (monthOfDay year n month day).2 ∧
      (monthOfDay year n month day).2 ≤ daysInMonth year (monthOfDay year n month day).1 := by
  induction n generalizing month day with
  | zero =>
    simp only [daysInMonths] at h
    simp only [monthOfDay]
    omega
  | succ n ih =>
    simp only [daysInMonths] at h
    unfold monthOfDay
    split
    · dsimp only
      omega
    · have := ih (month + 1) (day - daysInMonth year month) (by omega)
      omega

/-- The days from the first one of year 1 to the first one of the given year. -/
def daysBefore (year : Int) : Int :=
  365 * (year - 1) + (year - 1) / 4 - (year - 1) / 100 + (year - 1) / 400

theorem daysBefore_succ (year : Int) : daysBefore (year + 1) = daysBefore year + daysInYear year := by
  unfold daysBefore daysInYear isLeapYear
  split
  next h =>
    simp only [Bool.and_eq_true, Bool.or_eq_true, decide_eq_true_eq] at h
    omega
  next h =>
    simp only [Bool.and_eq_true, Bool.or_eq_true, decide_eq_true_eq, not_and_or, not_or] at h
    omega

theorem daysBefore_mono : Monotone daysBefore := by
  apply monotone_int_of_le_succ
  intro year
  rw [daysBefore_succ]
  omega

/-- Years are taken off from the front as long as there are days for them. -/
theorem yearOfDay_eq (n : Nat) (year : Int) (day : Nat) (h : day < 365 * n) :
    daysBefore (yearOfDay n year day).1 + (yearOfDay n year day).2 = daysBefore year + day ∧
      year ≤ (yearOfDay n year day).1 ∧
      (yearOfDay n year day).2 < daysInYear (yearOfDay n year day).1 := by
  induction n generalizing year day with
  | zero => omega
  | succ n ih =>
    unfold yearOfDay
    split
    next hday => exact ⟨rfl, le_rfl, hday⟩
    next hday =>
      have hlong : 365 ≤ daysInYear year := by unfold daysInYear; split <;> omega
      have hnext := ih (year + 1) (day - daysInYear year) (by omega)
      have hsucc := daysBefore_succ year
      omega

/-- The number of days from the start of 1970 to the end of the calendar. -/
def clockDays : Nat := 95026237

theorem Date.isValid_ofDays {days : Nat} (h : days < clockDays) : (Date.ofDays days).isValid = true := by
  obtain ⟨hdays, hfrom, hday⟩ := yearOfDay_eq (days / 365 + 1) 1970 days (by omega)
  unfold Date.ofDays
  dsimp only
  generalize yearOfDay (days / 365 + 1) 1970 days = p at hdays hfrom hday
  have hmonth := monthOfDay_range p.1 11 1 p.2 (by rw [daysInMonths_year]; exact hday)
  have hlast : p.1 ≤ maxYear := by
    by_contra hlate
    have hle : daysBefore (maxYear + 1) ≤ daysBefore p.1 := daysBefore_mono (by omega)
    have hend : daysBefore (maxYear + 1) = daysBefore 1970 + clockDays := by decide
    omega
  rw [Date.isValid_iff]
  dsimp only
  unfold minYear
  omega

/-- **Clocks give instants of the calendar**, up to its end. -/
theorem Instant.isValid_ofClock {seconds nano : Nat} (h : seconds < 86400 * clockDays)
    (hn : nano < 1000000000) : (Instant.ofClock seconds nano).isValid = true := by
  rw [Instant.isValid_iff]
  refine ⟨Date.isValid_ofDays ?_, ?_, ?_, ?_, hn⟩
  · unfold clockDays at *
    omega
  all_goals
    simp only [Instant.ofClock]
    omega

/-! ### All instants -/

/-- The instants that there are: those that are read from a text, and those that a clock tells up to
the end of the calendar. -/
inductive Instant.Arises : Instant → Prop
  | read {text : String} {t : Instant} (h : Instant.ofText text = .ok t) : Arises t
  | clock {seconds nano : Nat} (h : seconds < 86400 * clockDays) (hn : nano < 1000000000) :
    Arises (.ofClock seconds nano)

/-- **The instants that there are, are those of the calendar.** -/
theorem Instant.arises_iff : t.Arises ↔ t.isValid = true := by
  constructor
  · intro h
    cases h with
    | read h => exact isValid_of_ofText h
    | clock h hn => exact isValid_ofClock h hn
  · intro h
    exact .read (ofText_text h)

end PublisherConsole.Time
