/-!
# Spans of time

A span counts nanoseconds. Its text uses the largest unit that it fills, with a decimal fraction
down to the nanosecond and without trailing zeros.
-/

namespace PublisherConsole.Time

/-- A span of time. -/
structure Span where
  nanos : Nat
  deriving DecidableEq, Repr, Inhabited

namespace Span

/-- A number of seconds. -/
def seconds (n : Nat) : Span := ⟨n * 1000000000⟩

/-- A number of milliseconds. -/
def milliseconds (n : Nat) : Span := ⟨n * 1000000⟩

/-- A fraction with the given number of places, without trailing zeros. -/
def fraction (places n : Nat) : List Char :=
  let digits := Nat.toDigits 10 n
  let all := List.replicate (places - digits.length) '0' ++ digits
  match (all.reverse.dropWhile (· = '0')).reverse with
  | [] => []
  | shown => '.' :: shown

/-- A span as a multiple of a unit that has `10 ^ places` nanoseconds. -/
def inUnit (s : Span) (places : Nat) (unit : String) : String :=
  let size := Nat.pow 10 places
  toString (s.nanos / size) ++ String.ofList (fraction places (s.nanos % size)) ++ unit

/-- The text of a span. -/
def text (s : Span) : String :=
  if s.nanos ≥ 1000000000 then s.inUnit 9 "s"
  else if s.nanos ≥ 1000000 then s.inUnit 6 "ms"
  else if s.nanos ≥ 1000 then s.inUnit 3 "µs"
  else toString s.nanos ++ "ns"

end Span

end PublisherConsole.Time
