import PublisherConsole.Markdown.EntityNames
import PublisherConsole.Markdown.Source
import PublisherConsole.Unicode.Ranges

/-!
# Characters written as entities

`&name;` stands for a character with a name, `&#65;` and `&#x41;` for the character of a number.
The number zero stands for the replacement character.
-/

namespace PublisherConsole.Markdown

/-- The characters of each name. -/
def entityTable : List (List Char × List Char) :=
  (Unicode.words entityNames).map fun token =>
    (token.takeWhile (· ≠ ':'),
      let codes := (token.dropWhile (· ≠ ':')).drop 1
      let first := codes.takeWhile (· ≠ ',')
      let second := (codes.dropWhile (· ≠ ',')).drop 1
      Char.ofNat (Unicode.hexNumber first) ::
        if second.isEmpty then [] else [Char.ofNat (Unicode.hexNumber second)])

/-- The character of a number, if it has one. -/
def charOfNumber? (n : Nat) : Option Char :=
  if n = 0 then some '\ufffd' else if n.isValidChar then some (Char.ofNat n) else none

/-- Whether a character is a digit of base sixteen. -/
def isHexDigit (c : Char) : Bool := c.isDigit || ('a' ≤ c && c ≤ 'f') || ('A' ≤ c && c ≤ 'F')

/-- The value of digits of base sixteen in any case. -/
def hexValue (cs : List Char) : Nat := Unicode.hexNumber (cs.map Char.toLower)

/-- Read the entity whose `&` is at a place. -/
def entity? (s : Source) (i : Nat) : Option (List Char × Nat) :=
  if s.isAt (i + 1) '#' then
    let hex := s.isAt (i + 2) 'x' || s.isAt (i + 2) 'X'
    let start := if hex then i + 3 else i + 2
    let stop := if hex then s.skipUpTo isHexDigit 6 start else s.skipUpTo Char.isDigit 7 start
    let number := if hex then hexValue (s.slice start stop) else (s.decimal 7 start).1
    if stop > start && s.isAt stop ';' then
      (charOfNumber? number).map fun c => ([c], stop + 1)
    else none
  else
    let stop := s.skip isBasicAlphanumeric (i + 1)
    if s.isAt stop ';' then
      (entityTable.lookup (s.slice (i + 1) stop)).map fun cs => (cs, stop + 1)
    else none

end PublisherConsole.Markdown
