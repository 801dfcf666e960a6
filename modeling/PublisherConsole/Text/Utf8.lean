/-!
# Text in bytes

Bytes that are not all UTF-8 can still be read: every longest run of bytes that begins a character
without completing it, and every other byte that belongs to none, is read as the replacement
character.
-/

namespace PublisherConsole.Text

/-- What is read for bytes that make no character. -/
def replacement : Char := '\ufffd'

/-- A character of which bytes are missing: how many, between which values the next one lies, and
the bits so far. -/
structure Unfinished where
  missing : Nat
  low : Nat
  high : Nat
  bits : Nat
  deriving DecidableEq, Repr, Inhabited

/-- What a byte comes to that has no unfinished character in front of it. -/
def firstByte (b : Nat) : List Char × Option Unfinished :=
  if b < 0x80 then ([Char.ofNat b], none)
  else if 0xc2 ≤ b && b ≤ 0xdf then ([], some ⟨1, 0x80, 0xbf, b % 32⟩)
  else if b = 0xe0 then ([], some ⟨2, 0xa0, 0xbf, 0⟩)
  else if b = 0xed then ([], some ⟨2, 0x80, 0x9f, b % 16⟩)
  else if 0xe1 ≤ b && b ≤ 0xef then ([], some ⟨2, 0x80, 0xbf, b % 16⟩)
  else if b = 0xf0 then ([], some ⟨3, 0x90, 0xbf, 0⟩)
  else if 0xf1 ≤ b && b ≤ 0xf3 then ([], some ⟨3, 0x80, 0xbf, b % 8⟩)
  else if b = 0xf4 then ([], some ⟨3, 0x80, 0x8f, b % 8⟩)
  else ([replacement], none)

/-- What a byte comes to. -/
def nextByte (u : Option Unfinished) (b : Nat) : List Char × Option Unfinished :=
  match u with
  | none => firstByte b
  | some u =>
    if u.low ≤ b && b ≤ u.high then
      let bits := u.bits * 64 + b % 64
      if u.missing ≤ 1 then ([Char.ofNat bits], none)
      else ([], some ⟨u.missing - 1, 0x80, 0xbf, bits⟩)
    else
      let (cs, u) := firstByte b
      (replacement :: cs, u)

/-- Read the bytes that follow an unfinished character; another may be left in the end. -/
def readBytes : Option Unfinished → List UInt8 → List Char × Option Unfinished
  | u, [] => ([], u)
  | u, b :: bs =>
    let (cs, u) := nextByte u b.toNat
    let (rest, u) := readBytes u bs
    (cs ++ rest, u)

/-- The text of bytes. -/
def ofBytes (bs : List UInt8) : String :=
  let (cs, u) := readBytes none bs
  String.ofList (if u.isSome then cs ++ [replacement] else cs)

end PublisherConsole.Text
