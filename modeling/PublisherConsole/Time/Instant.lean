/-!
# Instants

An instant is a calendar date and a time of day in universal time, to the nanosecond. A minute may
have a leap second, numbered sixty. Dates follow the Gregorian calendar in both directions from
year `-262143` to year `262142`.

A clock counts seconds from the start of 1970 and knows no leap seconds (`Instant.ofClock`).
-/

namespace PublisherConsole.Time

/-- Whether a year has a leap day. -/
def isLeapYear (year : Int) : Bool :=
  year % 4 = 0 && (year % 100 ≠ 0 || year % 400 = 0)

/-- The length of a month; months count from one. -/
def daysInMonth (year : Int) (month : Nat) : Nat :=
  match month with
  | 2 => if isLeapYear year then 29 else 28
  | 4 | 6 | 9 | 11 => 30
  | _ => 31

/-- The first year of the calendar. -/
def minYear : Int := -262143

/-- The last year of the calendar. -/
def maxYear : Int := 262142

/-- A calendar date. -/
structure Date where
  year : Int
  month : Nat
  day : Nat
  deriving DecidableEq, Repr, Inhabited

/-- Whether a date is in the calendar. -/
def Date.isValid (d : Date) : Bool :=
  minYear ≤ d.year && d.year ≤ maxYear && 1 ≤ d.month && d.month ≤ 12 && 1 ≤ d.day
    && d.day ≤ daysInMonth d.year d.month

/-- The day after, if the calendar has it. -/
def Date.next? (d : Date) : Option Date :=
  if d.day < daysInMonth d.year d.month then some { d with day := d.day + 1 }
  else if d.month < 12 then some { d with month := d.month + 1, day := 1 }
  else if d.year < maxYear then some ⟨d.year + 1, 1, 1⟩
  else none

/-- The day before, if the calendar has it. -/
def Date.previous? (d : Date) : Option Date :=
  if 1 < d.day then some { d with day := d.day - 1 }
  else if 1 < d.month then
    some { d with month := d.month - 1, day := daysInMonth d.year (d.month - 1) }
  else if minYear < d.year then some ⟨d.year - 1, 12, 31⟩
  else none

/-- A date and a time of day in universal time. -/
structure Instant where
  date : Date
  hour : Nat
  minute : Nat
  /-- Sixty is the leap second. -/
  second : Nat
  nano : Nat
  deriving DecidableEq, Repr, Inhabited

/-- Whether all parts of an instant are in their ranges. -/
def Instant.isValid (t : Instant) : Bool :=
  t.date.isValid && t.hour < 24 && t.minute < 60 && t.second ≤ 60 && t.nano < 1000000000

/-- The instant a number of minutes, less than a day, before `t`; none when it leaves the
calendar. -/
def Instant.minus? (t : Instant) (minutes : Int) : Option Instant :=
  let total : Int := t.hour * 60 + t.minute - minutes
  let clock (date : Date) (n : Int) : Instant :=
    { t with date := date, hour := (n / 60).toNat, minute := (n % 60).toNat }
  if total < 0 then t.date.previous?.map (clock · (total + 1440))
  else if 1440 ≤ total then t.date.next?.map (clock · (total - 1440))
  else some (clock t.date total)

/-! ### Clocks -/

/-- The length of a year. -/
def daysInYear (year : Int) : Nat := if isLeapYear year then 366 else 365

/-- The month and the day behind a number of days of a year, beginning with the given month. The
first argument bounds the months to try. -/
def monthOfDay (year : Int) : Nat → Nat → Nat → Nat × Nat
  | 0, month, day => (month, day + 1)
  | n + 1, month, day =>
    if day < daysInMonth year month then (month, day + 1)
    else monthOfDay year n (month + 1) (day - daysInMonth year month)

/-- The year and the days of it behind a number of days, beginning with the given year. The first
argument bounds the years to try. -/
def yearOfDay : Nat → Int → Nat → Int × Nat
  | 0, year, day => (year, day)
  | n + 1, year, day =>
    if day < daysInYear year then (year, day)
    else yearOfDay n (year + 1) (day - daysInYear year)

/-- The date a number of days after the first one of 1970. -/
def Date.ofDays (days : Nat) : Date :=
  let (year, day) := yearOfDay (days / 365 + 1) 1970 days
  let (month, day) := monthOfDay year 11 1 day
  ⟨year, month, day⟩

/-- The instant of a clock. -/
def Instant.ofClock (seconds nano : Nat) : Instant :=
  { date := .ofDays (seconds / 86400)
    hour := seconds / 3600 % 24
    minute := seconds / 60 % 60
    second := seconds % 60
    nano := nano }

end PublisherConsole.Time
