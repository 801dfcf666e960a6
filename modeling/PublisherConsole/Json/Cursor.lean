import PublisherConsole.Json.Fault

/-!
# Reading JSON from left to right

A `Cursor` is the text that is still unread together with its place. Readers take a cursor and
return what they read with the cursor behind it, or the error at which they stopped. This module
holds the readers for characters, literals, numbers and strings.
-/

namespace PublisherConsole.Json

/-- The unread text and its place. -/
structure Cursor where
  rest : List Char
  place : Place
  deriving Repr, Inhabited

/-- A reader consumes text from the front. -/
abbrev Reader (α : Type) := Cursor → Except Error (α × Cursor)

/-- The place behind the character. -/
def Place.after (p : Place) (c : Char) : Place :=
  if c = '\n' then ⟨p.line + 1, 0⟩ else ⟨p.line, p.column + c.utf8Size⟩

/-- The place behind a run of characters. -/
def Place.afterAll (p : Place) (cs : List Char) : Place := cs.foldl Place.after p

namespace Cursor

/-- The cursor at the start of a text. -/
def start (text : String) : Cursor := ⟨text.toList, ⟨1, 0⟩⟩

/-- Fail at the cursor's own place. -/
def fail {α : Type} (c : Cursor) (fault : Fault) : Except Error α := .error ⟨fault, c.place⟩

/-- The place one byte on: a fault about the next character is reported there. -/
def peekPlace (c : Cursor) : Place :=
  match c.rest with
  | [] => c.place
  | x :: _ => if x = '\n' then ⟨c.place.line + 1, 0⟩ else ⟨c.place.line, c.place.column + 1⟩

/-- Fail because of the next character. -/
def failNext {α : Type} (c : Cursor) (fault : Fault) : Except Error α :=
  .error ⟨fault, c.peekPlace⟩

/-- The next character, if any. -/
def peek? (c : Cursor) : Option Char := c.rest.head?

/-- The cursor behind the next character. -/
def next (c : Cursor) : Cursor :=
  match c.rest with
  | [] => c
  | x :: xs => ⟨xs, c.place.after x⟩

/-- Whether a character may stand between two JSON tokens. -/
def isBlank (x : Char) : Bool := x = ' ' || x = '\n' || x = '\t' || x = '\r'

/-- Move past blanks, starting at the given place. -/
def skipBlanksFrom : List Char → Place → Cursor
  | [], p => ⟨[], p⟩
  | x :: xs, p => if isBlank x then skipBlanksFrom xs (p.after x) else ⟨x :: xs, p⟩

/-- Move past blanks. -/
def skipBlanks (c : Cursor) : Cursor := skipBlanksFrom c.rest c.place

/-- The place at most `n` bytes on. A place inside a character counts the bytes passed. -/
def bytesOn : Nat → List Char → Place → Place
  | _, [], p => p
  | n, x :: xs, p =>
    if n = 0 then p
    else if x.utf8Size ≤ n then bytesOn (n - x.utf8Size) xs (p.after x)
    else ⟨p.line, p.column + n⟩

/-- Whether at least `n` bytes are unread. -/
def hasBytes : Nat → List Char → Bool
  | 0, _ => true
  | _ + 1, [] => false
  | n + 1, x :: xs => hasBytes (n + 1 - x.utf8Size) xs

end Cursor

/-! ## Literals -/

/-- The rest of a literal such as `null`, letter by letter. -/
def readLetters : List Char → Reader Unit
  | [], c => .ok ((), c)
  | l :: ls, c =>
    match c.rest with
    | [] => c.fail .endOfValue
    | x :: _ =>
      if x = l then readLetters ls c.next
      else .error ⟨.expectedLiteral, Cursor.bytesOn 1 c.rest c.place⟩

/-! ## Numbers -/

/-- Move past decimal digits. -/
def skipDigitsFrom : List Char → Place → Cursor
  | [], p => ⟨[], p⟩
  | x :: xs, p => if x.isDigit then skipDigitsFrom xs (p.after x) else ⟨x :: xs, p⟩

/-- The value of a decimal digit. -/
def digitValue (x : Char) : Nat := x.toNat - '0'.toNat

/-- A number as it was written: integers that fit 64 bits stay exact. -/
inductive Number
  | natural (value : Nat)
  | negative (value : Int)
  | float (value : Float)
  deriving Repr

/-- How a message names a number. -/
def Number.found : Number → Found
  | .natural n => .integer n
  | .negative n => .integer n
  | .float x => .float x

/-- The bound of exact integers, `2 ^ 64 - 1`. -/
def maxExact : Nat := 18446744073709551615

/-- The magnitude of the least exact integer, `2 ^ 63`. -/
def maxNegated : Nat := 9223372036854775808

/-- The bound of exponents that are still counted, `2 ^ 31 - 1`. -/
def maxExponent : Nat := 2147483647

/-- The power of ten as a floating-point number. -/
def powerOfTen (n : Nat) : Float := Float.ofScientific 1 false n

/-- Scale by a power of ten in steps of at most `10 ^ 308`; none when the value leaves the range. -/
def scaleByTen : Nat → Float → Int → Option Float
  | 0, x, _ => some x
  | fuel + 1, x, e =>
    if e.natAbs ≤ 308 then
      if e ≥ 0 then
        let y := x * powerOfTen e.natAbs
        if y.isInf then none else some y
      else some (x / powerOfTen e.natAbs)
    else if x == 0.0 then some x
    else if e ≥ 0 then none
    else scaleByTen fuel (x / powerOfTen 308) (e + 308)

/-- The floating-point number with the given sign, significand and exponent. -/
def floatOfParts (positive : Bool) (significand : Nat) (exponent : Int) (c : Cursor) :
    Except Error (Number × Cursor) :=
  match scaleByTen 10 (UInt64.ofNat significand).toFloat exponent with
  | none => c.fail .numberOutOfRange
  | some x => .ok (.float (if positive then x else -x), c)

/-- The digits of an exponent after the first one; none when it exceeds `maxExponent`. -/
def exponentDigits : List Char → Place → Nat → Option Nat × Cursor
  | [], p, e => (some e, ⟨[], p⟩)
  | x :: xs, p, e =>
    if x.isDigit then
      if e * 10 + digitValue x > maxExponent then (none, ⟨xs, p.after x⟩)
      else exponentDigits xs (p.after x) (e * 10 + digitValue x)
    else (some e, ⟨x :: xs, p⟩)

/-- The sign of an exponent. -/
def exponentSign (c : Cursor) : Bool × Cursor :=
  match c.peek? with
  | some '+' => (true, c.next)
  | some '-' => (false, c.next)
  | _ => (true, c)

/-- Keep an exponent in the 32-bit range. -/
def clampExponent (e : Int) : Int := max (-2147483648) (min 2147483647 e)

/-- An exponent, with the cursor before its letter. -/
def readExponent (positive : Bool) (significand : Nat) (starting : Int) : Reader Number := fun c =>
  let (up, c) := exponentSign c.next
  match c.rest with
  | [] => c.fail .endOfValue
  | x :: _ =>
    if x.isDigit then
      match exponentDigits c.next.rest c.next.place (digitValue x) with
      | (some e, c) =>
        floatOfParts positive significand
          (clampExponent (if up then starting + e else starting - e)) c
      | (none, c) =>
        if significand ≠ 0 ∧ up then c.fail .numberOutOfRange
        else .ok (.float (if positive then 0.0 else -0.0), skipDigitsFrom c.rest c.place)
    else .error ⟨.invalidNumber, Cursor.bytesOn 1 c.rest c.place⟩

/-- What follows the digits of a fraction. -/
def afterFraction (positive : Bool) (significand : Nat) (exponent : Int) : Reader Number := fun c =>
  match c.peek? with
  | some 'e' | some 'E' => readExponent positive significand exponent c
  | _ => floatOfParts positive significand exponent c

/-- The digits of a fraction: those that no longer fit the significand are passed over. -/
def fractionDigits : List Char → Place → Nat → Nat → (Nat × Nat) × Cursor
  | [], p, s, n => ((s, n), ⟨[], p⟩)
  | x :: xs, p, s, n =>
    if x.isDigit then
      if s * 10 + digitValue x > maxExact then ((s, n), skipDigitsFrom (x :: xs) p)
      else fractionDigits xs (p.after x) (s * 10 + digitValue x) (n + 1)
    else ((s, n), ⟨x :: xs, p⟩)

/-- A fraction, with the cursor before its point. -/
def readFraction (positive : Bool) (significand : Nat) (exponent : Int) : Reader Number := fun c =>
  let c := c.next
  match c.rest with
  | [] => c.fail .endOfValue
  | x :: _ =>
    if x.isDigit then
      let ((s, n), c) := fractionDigits c.rest c.place significand 0
      afterFraction positive s (exponent - n) c
    else c.failNext .invalidNumber

/-- The digits beyond the exact range only raise the exponent. -/
def longDigits : List Char → Place → Nat → Nat × Cursor
  | [], p, n => (n, ⟨[], p⟩)
  | x :: xs, p, n => if x.isDigit then longDigits xs (p.after x) (n + 1) else (n, ⟨x :: xs, p⟩)

/-- The part of a number behind its leading digits. -/
def afterInteger (positive : Bool) (significand : Nat) : Reader Number := fun c =>
  match c.peek? with
  | some '.' => readFraction positive significand 0 c
  | some 'e' | some 'E' => readExponent positive significand 0 c
  | _ =>
    if positive then .ok (.natural significand, c)
    else if significand = 0 ∨ significand > maxNegated then
      .ok (.float (-(UInt64.ofNat significand).toFloat), c)
    else .ok (.negative (-(significand : Int)), c)

/-- The part of a number behind more digits than the exact range holds. -/
def afterLongInteger (positive : Bool) (significand : Nat) (exponent : Nat) : Reader Number :=
  fun c =>
    match c.peek? with
    | some '.' => readFraction positive significand exponent c
    | some 'e' | some 'E' => readExponent positive significand exponent c
    | _ => floatOfParts positive significand exponent c

/-- The digits of an integer after the first; the flag tells whether all of them fitted. -/
def integerDigits : List Char → Place → Nat → (Nat × Bool) × Cursor
  | [], p, n => ((n, true), ⟨[], p⟩)
  | x :: xs, p, n =>
    if x.isDigit then
      if n * 10 + digitValue x > maxExact then ((n, false), ⟨x :: xs, p⟩)
      else integerDigits xs (p.after x) (n * 10 + digitValue x)
    else ((n, true), ⟨x :: xs, p⟩)

/-- A number behind its sign. -/
def readUnsigned (positive : Bool) : Reader Number := fun c =>
  match c.rest with
  | [] => c.fail .endOfValue
  | x :: _ =>
    let after := c.next
    if x = '0' then
      match after.peek? with
      | some y =>
        if y.isDigit then after.failNext .invalidNumber else afterInteger positive 0 after
      | none => afterInteger positive 0 after
    else if x.isDigit then
      match integerDigits after.rest after.place (digitValue x) with
      | ((n, true), c) => afterInteger positive n c
      | ((n, false), c) =>
        let (e, c) := longDigits c.rest c.place 0
        afterLongInteger positive n e c
    else .error ⟨.invalidNumber, Cursor.bytesOn 1 c.rest c.place⟩

/-- A number. -/
def readNumber : Reader Number := fun c =>
  if c.peek? = some '-' then readUnsigned false c.next else readUnsigned true c

/-! ## Strings -/

/-- The value of a hexadecimal digit. -/
def hexValue? (x : Char) : Option Nat :=
  if x.isDigit then some (x.toNat - '0'.toNat)
  else if 'a' ≤ x ∧ x ≤ 'f' then some (x.toNat - 'a'.toNat + 10)
  else if 'A' ≤ x ∧ x ≤ 'F' then some (x.toNat - 'A'.toNat + 10)
  else none

/-- The four digits of an escaped code unit. -/
def readHex : Reader Nat := fun c =>
  let wrong := .error ⟨.invalidEscape, Cursor.bytesOn 4 c.rest c.place⟩
  if Cursor.hasBytes 4 c.rest then
    match c.rest with
    | w :: x :: y :: z :: rest =>
      match hexValue? w, hexValue? x, hexValue? y, hexValue? z with
      | some w', some x', some y', some z' =>
        .ok (((w' * 16 + x') * 16 + y') * 16 + z', ⟨rest, c.place.afterAll [w, x, y, z]⟩)
      | _, _, _, _ => wrong
    | _ => wrong
  else .error ⟨.endOfString, Cursor.bytesOn 4 c.rest c.place⟩

/-- Whether a code unit starts a surrogate pair. -/
def isLeading (n : Nat) : Bool := 0xD800 ≤ n && n ≤ 0xDBFF

/-- Whether a code unit ends a surrogate pair. -/
def isTrailing (n : Nat) : Bool := 0xDC00 ≤ n && n ≤ 0xDFFF

/-- Require the given character inside an escaped surrogate pair. -/
def readPairMark (mark : Char) : Reader Unit := fun c =>
  match c.rest with
  | [] => c.fail .endOfString
  | x :: _ =>
    if x = mark then .ok ((), c.next)
    else .error ⟨.endOfHexEscape, Cursor.bytesOn 1 c.rest c.place⟩

/-- An escaped code point behind its `u`, of one code unit or of a surrogate pair. -/
def readCodePoint : Reader Char := fun c => do
  let (n, c) ← readHex c
  if isTrailing n then c.fail .loneSurrogate
  else if isLeading n then
    let ((), c) ← readPairMark '\\' c
    let ((), c) ← readPairMark 'u' c
    let (m, c) ← readHex c
    if isTrailing m then
      .ok (Char.ofNat ((n - 0xD800) * 0x400 + (m - 0xDC00) + 0x10000), c)
    else c.fail .loneSurrogate
  else .ok (Char.ofNat n, c)

/-- The character that a one-letter escape stands for. -/
def escaped? : Char → Option Char
  | '"' => some '"'
  | '\\' => some '\\'
  | '/' => some '/'
  | 'b' => some '\x08'
  | 'f' => some '\x0c'
  | 'n' => some '\n'
  | 'r' => some '\r'
  | 't' => some '\t'
  | _ => none

/-- The body of a string behind its opening quote. Each round reads one character or escape, so
as many rounds as there are characters suffice. -/
def readCharsWithin : Nat → List Char → Reader (List Char)
  | 0, _, c => c.fail .endOfString
  | fuel + 1, done, c =>
    match c.rest with
    | [] => c.fail .endOfString
    | '"' :: _ => .ok (done.reverse, c.next)
    | '\\' :: _ =>
      let c := c.next
      match c.rest with
      | [] => c.fail .endOfString
      | 'u' :: _ => do
        let (x, c) ← readCodePoint c.next
        readCharsWithin fuel (x :: done) c
      | x :: _ =>
        match escaped? x with
        | some y => readCharsWithin fuel (y :: done) c.next
        | none => .error ⟨.invalidEscape, Cursor.bytesOn 1 c.rest c.place⟩
    | x :: _ =>
      if x.toNat < 0x20 then c.next.fail .controlCharacter
      else readCharsWithin fuel (x :: done) c.next

/-- A string behind its opening quote. -/
def readString : Reader String := fun c => do
  let (cs, c) ← readCharsWithin (c.rest.length + 1) [] c
  .ok (String.ofList cs, c)

end PublisherConsole.Json
