/-!
# The shortest decimal that reads back

A binary floating-point number stands for every real number that rounds to it. `ofFloat?` finds,
among the decimals in that interval, one with the fewest significant digits and, of those, the
nearest to the number itself. `Layout.render` then writes the digits either positionally or with an
exponent.
-/

namespace PublisherConsole.Decimal

/-- A positive decimal `digits · 10 ^ exponent`. -/
structure Scaled where
  digits : Nat
  exponent : Int
  deriving DecidableEq, Repr

/-- The reals that round to a number, as fractions over one denominator: the number lies between
`low` and `high`, and the two ends belong to the interval when `closed` holds. -/
structure Interval where
  low : Nat
  value : Nat
  high : Nat
  denominator : Nat
  closed : Bool

/-- Whether the fraction `numerator / 1` over the interval's own denominator lies in the interval. -/
def Interval.holds (i : Interval) (numerator : Nat) : Bool :=
  if i.closed then i.low ≤ numerator && numerator ≤ i.high
  else i.low < numerator && numerator < i.high

/-- The interval of the positive finite number with the given significand and binary exponent.
Below a power of two the neighbour is half as far away. -/
def Interval.ofParts (significand : Nat) (exponent : Int) (powerOfTwo : Bool) : Interval :=
  let low := if powerOfTwo then 4 * significand - 1 else 4 * significand - 2
  let up := Nat.pow 2 (exponent - 2).toNat
  { low := low * up
    value := 4 * significand * up
    high := (4 * significand + 2) * up
    denominator := Nat.pow 2 (2 - exponent).toNat
    closed := significand % 2 = 0 }

/-- The least `k`, counted from `k₀`, with `value · 10 ^ k ≥ denominator`. -/
def leadingShift (i : Interval) : Nat → Nat → Nat
  | 0, k => k
  | fuel + 1, k => if i.value * Nat.pow 10 k ≥ i.denominator then k else leadingShift i fuel (k + 1)

/-- The exponent of the leading decimal digit. -/
def Interval.magnitude (i : Interval) : Int :=
  if i.value ≥ i.denominator then
    ((Nat.toDigits 10 (i.value / i.denominator)).length : Int) - 1
  else
    -(leadingShift i 400 1 : Int)

/-- The best decimal with `n` digits in the interval, if there is one. -/
def Interval.onGrid (i : Interval) (n : Nat) : Option Scaled :=
  let k := i.magnitude - n + 1
  let grow := Nat.pow 10 k.toNat
  let shrink := Nat.pow 10 (-k).toNat
  let value := i.value * shrink
  let unit := i.denominator * grow
  let scaled : Interval :=
    { i with low := i.low * shrink, high := i.high * shrink, value := value }
  let below := value / unit
  let above := below + 1
  match scaled.holds (below * unit), scaled.holds (above * unit) with
  | true, true => some ⟨if 2 * (value - below * unit) ≤ unit then below else above, k⟩
  | true, false => some ⟨below, k⟩
  | false, true => some ⟨above, k⟩
  | false, false => none

/-- The decimal with the fewest digits; seventeen always suffice. -/
def Interval.shortest (i : Interval) : Scaled :=
  ((List.range 17).findSome? fun n => i.onGrid (n + 1)).getD ⟨i.value / i.denominator, 0⟩

/-- Digits without trailing zeros. -/
def Scaled.trim : Nat → Scaled → Scaled
  | 0, d => d
  | fuel + 1, d =>
    if d.digits ≠ 0 ∧ d.digits % 10 = 0 then Scaled.trim fuel ⟨d.digits / 10, d.exponent + 1⟩ else d

/-- The shortest decimal of the magnitude of a finite non-zero number. -/
def ofFloat? (x : Float) : Option Scaled :=
  let bits : Nat := x.toBits.toNat
  let fraction : Nat := bits % Nat.pow 2 52
  let biased : Nat := bits / Nat.pow 2 52 % Nat.pow 2 11
  if biased = 2047 ∨ (biased = 0 ∧ fraction = 0) then none
  else if biased = 0 then some ((Interval.ofParts fraction (-1074) false).shortest.trim 20)
  else
    let powerOfTwo := fraction = 0 ∧ biased > 1
    let significand := fraction + Nat.pow 2 52
    some ((Interval.ofParts significand ((biased : Int) - 1075) powerOfTwo).shortest.trim 20)

/-- How a decimal is laid out: exponents of the leading digit in `plainFrom ≤ e < plainBelow` are
written positionally, and an exponent has a sign and at least `exponentWidth` digits. -/
structure Layout where
  plainFrom : Int
  plainBelow : Int
  exponentWidth : Nat

/-- The text of a positive decimal. A positional number always shows a point. -/
def Layout.render (l : Layout) (d : Scaled) : String :=
  let digits := Nat.toDigits 10 d.digits
  let lead : Int := d.exponent + digits.length - 1
  let zeros (n : Int) : List Char := List.replicate n.toNat '0'
  if l.plainFrom ≤ lead ∧ lead < l.plainBelow then
    if d.exponent ≥ 0 then String.ofList (digits ++ zeros d.exponent ++ ['.', '0'])
    else if lead ≥ 0 then
      let whole := lead.toNat + 1
      String.ofList (digits.take whole ++ ['.'] ++ digits.drop whole)
    else String.ofList (['0', '.'] ++ zeros (-lead - 1) ++ digits)
  else
    let body := match digits with
      | [c] => [c]
      | c :: cs => c :: '.' :: cs
      | [] => []
    let size := Nat.toDigits 10 lead.natAbs
    let exponent := List.replicate (l.exponentWidth - size.length) '0' ++ size
    String.ofList (body ++ ['e', if lead < 0 then '-' else '+'] ++ exponent)

/-- The text of any number, with a sign for negative numbers and negative zero. -/
def Layout.text (l : Layout) (x : Float) : String :=
  let sign := if x.toBits.toNat / Nat.pow 2 63 = 1 then "-" else ""
  match ofFloat? x with
  | some d => sign ++ l.render d
  | none => if x.isNaN then "NaN" else if x.isInf then sign ++ "inf" else sign ++ "0.0"

end PublisherConsole.Decimal
