import PublisherConsole.Time.Instant
import PublisherConsole.Unicode.Punctuation

/-!
# Timestamps

The text form of an instant is a date, a `T`, a time of day and an offset from universal time. It
is written in one way and read in several: reading allows blanks between the parts, short numbers,
a blank or a lower-case letter between date and time, offsets without a colon, and the names `Z`
and `UTC` for no offset.
-/

namespace PublisherConsole.Time

/-! ## Writing -/

/-- A number with at least `width` digits. -/
def padded (width n : Nat) : List Char :=
  let digits := Nat.toDigits 10 n
  List.replicate (width - digits.length) '0' ++ digits

/-- A year: four digits, with a sign when four digits cannot hold it. -/
def yearText (year : Int) : List Char :=
  if 0 ≤ year ∧ year ≤ 9999 then padded 4 year.toNat
  else (if year < 0 then '-' else '+') :: padded 4 year.natAbs

/-- A fraction of a second: none, three, six or nine digits, the fewest that suffice. -/
def fractionText (nano : Nat) : List Char :=
  if nano = 0 then []
  else if nano % 1000000 = 0 then '.' :: padded 3 (nano / 1000000)
  else if nano % 1000 = 0 then '.' :: padded 6 (nano / 1000)
  else '.' :: padded 9 nano

/-- An instant without its offset. -/
def Instant.localText (t : Instant) : List Char :=
  yearText t.date.year ++ '-' :: padded 2 t.date.month ++ '-' :: padded 2 t.date.day
    ++ 'T' :: padded 2 t.hour ++ ':' :: padded 2 t.minute ++ ':' :: padded 2 t.second
    ++ fractionText t.nano

/-- An instant with the offset `Z`. -/
def Instant.text (t : Instant) : String := String.ofList (t.localText ++ ['Z'])

/-- An instant with its offset in digits. -/
def Instant.offsetText (t : Instant) : String :=
  String.ofList (t.localText ++ ['+', '0', '0', ':', '0', '0'])

/-! ## Reading -/

/-- Why a text is no timestamp. -/
inductive Fault
  | tooShort
  | invalid
  | outOfRange
  | impossible
  | tooLong
  deriving DecidableEq, Repr

/-- The wording of a fault. -/
def Fault.message : Fault → String
  | .tooShort => "premature end of input"
  | .invalid => "input contains invalid characters"
  | .outOfRange => "input is out of range"
  | .impossible => "no possible date and time matching input"
  | .tooLong => "trailing input"

/-- Text without its leading blanks. -/
def dropBlanks (cs : List Char) : List Char := cs.dropWhile Unicode.isBlank

/-- At most `most` digits, added to a number read so far; the number must stay below `2 ^ 63`. -/
def digitsUpTo : Nat → Nat → List Char → Except Fault (Nat × List Char)
  | 0, n, cs => .ok (n, cs)
  | most + 1, n, c :: cs =>
    if c.isDigit then
      let m := n * 10 + (c.toNat - '0'.toNat)
      if m < 9223372036854775808 then digitsUpTo most m cs else .error .outOfRange
    else .ok (n, c :: cs)
  | _ + 1, n, [] => .ok (n, [])

/-- A number of one to `most` digits. -/
def number (most : Nat) (cs : List Char) : Except Fault (Nat × List Char) :=
  match cs with
  | [] => .error .tooShort
  | c :: _ => if c.isDigit then digitsUpTo most 0 cs else .error .invalid

/-- A number of one or two digits between bounds, after blanks. -/
def bounded (low high : Nat) (cs : List Char) : Except Fault (Nat × List Char) := do
  let (n, cs) ← number 2 (dropBlanks cs)
  if low ≤ n ∧ n ≤ high then .ok (n, cs) else .error .outOfRange

/-- A fixed character. -/
def mark (x : Char) (cs : List Char) : Except Fault (Unit × List Char) :=
  match cs with
  | [] => .error .tooShort
  | c :: cs => if c = x then .ok ((), cs) else .error .invalid

/-- A year, after blanks: up to four digits, or any number of digits behind a sign. -/
def yearPart (cs : List Char) : Except Fault (Int × List Char) := do
  let cs := dropBlanks cs
  let (year, cs) ← (match cs with
    | '-' :: cs => do
      let (n, cs) ← number cs.length cs
      .ok (-(n : Int), cs)
    | '+' :: cs => do
      let (n, cs) ← number cs.length cs
      .ok ((n : Int), cs)
    | cs => do
      let (n, cs) ← number 4 cs
      .ok ((n : Int), cs) : Except Fault (Int × List Char))
  if -2147483648 ≤ year ∧ year < 2147483648 then .ok (year, cs) else .error .outOfRange

/-- A date, whose day may still be missing from its month. -/
def datePart (cs : List Char) : Except Fault (Date × List Char) := do
  let (year, cs) ← yearPart cs
  let ((), cs) ← mark '-' (dropBlanks cs)
  let (month, cs) ← bounded 1 12 cs
  let ((), cs) ← mark '-' (dropBlanks cs)
  let (day, cs) ← bounded 1 31 cs
  .ok (⟨year, month, day⟩, cs)

/-- A fraction of a second in nanoseconds; digits behind the ninth are dropped. -/
def fractionPart (cs : List Char) : Except Fault (Nat × List Char) :=
  match cs with
  | '.' :: cs => do
    let (n, rest) ← number 9 cs
    .ok (n * Nat.pow 10 (9 - (cs.length - rest.length)), rest.dropWhile Char.isDigit)
  | cs => .ok (0, cs)

/-- The two digits at the front, if both are digits. -/
def twoDigits (cs : List Char) : Except Fault (Nat × List Char) :=
  match cs with
  | a :: b :: cs =>
    if a.isDigit && b.isDigit then
      .ok ((a.toNat - '0'.toNat) * 10 + (b.toNat - '0'.toNat), cs)
    else .error .invalid
  | [a] => if a.utf8Size < 2 then .error .tooShort else .error .invalid
  | [] => .error .tooShort

/-- The digits of an offset, in minutes. -/
def offsetDigits (cs : List Char) : Except Fault (Nat × List Char) := do
  let (hours, cs) ← twoDigits cs
  let cs := cs.dropWhile fun c => c = ':' || Unicode.isBlank c
  let (minutes, cs) ← twoDigits cs
  if minutes < 60 then .ok (hours * 60 + minutes, cs) else .error .outOfRange

/-- An offset in minutes, after blanks. -/
def offsetPart (cs : List Char) : Except Fault (Int × List Char) :=
  match dropBlanks cs with
  | u :: t :: c :: cs' =>
    if [u, t, c].map Char.toLower = ['u', 't', 'c'] then .ok (0, cs')
    else signed (u :: t :: c :: cs')
  | cs => signed cs
where
  /-- An offset that is no name longer than a letter. -/
  signed (cs : List Char) : Except Fault (Int × List Char) :=
    match cs with
    | [] => .error .tooShort
    | c :: cs =>
      if c = 'Z' ∨ c = 'z' then .ok (0, cs)
      else if c = '+' then do
        let (n, cs) ← offsetDigits cs
        .ok ((n : Int), cs)
      else if c = '-' ∨ c = '\u2212' then do
        let (n, cs) ← offsetDigits cs
        .ok (-(n : Int), cs)
      else .error .invalid

/-- The letter between date and time. -/
def separator (cs : List Char) : Except Fault (Unit × List Char) :=
  match cs with
  | [] => .error .tooShort
  | c :: cs => if c = 'T' ∨ c = 't' ∨ c = ' ' then .ok ((), cs) else .error .invalid

/-- All parts of a timestamp: the local date and time, and the offset in minutes. -/
def parts (cs : List Char) : Except Fault ((Instant × Int) × List Char) := do
  let (date, cs) ← datePart cs
  let ((), cs) ← separator cs
  let (hour, cs) ← bounded 0 23 cs
  let ((), cs) ← mark ':' (dropBlanks cs)
  let (minute, cs) ← bounded 0 59 cs
  let ((), cs) ← mark ':' (dropBlanks cs)
  let (second, cs) ← bounded 0 60 cs
  let (nano, cs) ← fractionPart cs
  let (offset, cs) ← offsetPart cs
  .ok ((⟨date, hour, minute, second, nano⟩, offset), cs)

/-- Read a timestamp. -/
def Instant.ofText (text : String) : Except Fault Instant := do
  let ((t, offset), cs) ← parts text.toList
  if dropBlanks cs ≠ [] then .error .tooLong
  else if !t.date.isValid then .error .outOfRange
  else if offset.natAbs ≥ 1440 then .error .outOfRange
  else
    match t.minus? offset with
    | some t => .ok t
    | none => .error .impossible

end PublisherConsole.Time
