/-!
# Places in a Markdown text

A text is read by places: the number of characters before it. A source can be closed off early, so
that nothing behind a place can be seen. Scanners take a place and give the place behind what they
read, or none if it is not there.
-/

namespace PublisherConsole.Markdown

/-- A text that can be read up to `stop`. -/
structure Source where
  chars : Array Char
  stop : Nat
  deriving Repr, Inhabited

/-- Whether a character is a blank inside of a line. -/
def isInlineBlank (c : Char) : Bool := c = ' ' || c = '\t' || c = '\x0b' || c = '\x0c'

/-- Whether a character is a blank or ends a line. -/
def isAnyBlank (c : Char) : Bool := isInlineBlank c || c = '\n' || c = '\r'

/-- Whether a character ends a line. -/
def isLineEnd (c : Char) : Bool := c = '\n' || c = '\r'

/-- Whether a character is a letter or a digit of the basic alphabet. -/
def isBasicAlphanumeric (c : Char) : Bool := c.isAlpha || c.isDigit

/-- Whether a character is punctuation of the basic alphabet. -/
def isBasicPunctuation (c : Char) : Bool :=
  '!' ≤ c && c ≤ '~' && !isBasicAlphanumeric c

namespace Source

/-- All of a text. -/
def ofText (text : String) : Source :=
  let chars := text.toList.toArray
  ⟨chars, chars.size⟩

/-- The source closed off at a place. -/
def upTo (s : Source) (stop : Nat) : Source := { s with stop := min stop s.stop }

/-- The character at a place. -/
def char? (s : Source) (i : Nat) : Option Char := if i < s.stop then s.chars[i]? else none

/-- Whether a character is at a place. -/
def isAt (s : Source) (i : Nat) (c : Char) : Bool := s.char? i = some c

/-- Whether a place is the end. -/
def isEnd (s : Source) (i : Nat) : Bool := s.stop ≤ i

/-- The characters between two places. -/
def slice (s : Source) (start stop : Nat) : List Char :=
  (s.chars.extract start (min stop s.stop)).toList

/-- Whether the given characters are at a place. -/
def startsWith (s : Source) : Nat → List Char → Bool
  | _, [] => true
  | i, c :: cs => s.isAt i c && startsWith s (i + 1) cs

/-- The place behind the characters that satisfy a condition, at most `fuel` of them. -/
def skipUpTo (s : Source) (p : Char → Bool) : Nat → Nat → Nat
  | 0, i => i
  | fuel + 1, i => if (s.char? i).any p then skipUpTo s p fuel (i + 1) else i

/-- The place behind the characters that satisfy a condition. -/
def skip (s : Source) (p : Char → Bool) (i : Nat) : Nat := s.skipUpTo p (s.stop - i) i

/-- The place behind a run of one character. -/
def skipRun (s : Source) (c : Char) (i : Nat) : Nat := s.skip (· = c) i

/-- The first place from `low` on such that all characters from it to the given place satisfy a
condition. -/
def skipBack (s : Source) (p : Char → Bool) (low : Nat) : Nat → Nat
  | 0 => 0
  | i + 1 => if low ≤ i && (s.char? i).any p then skipBack s p low i else i + 1

/-- The first place from the given one on with a character, or the end. -/
def find (s : Source) (c : Char) (i : Nat) : Nat := s.skip (· ≠ c) i

/-- The place behind blanks of a line. -/
def skipBlanks (s : Source) (i : Nat) : Nat := s.skip isInlineBlank i

/-- The place behind the end of a line that is here; the end of the source is one. -/
def lineEnd? (s : Source) (i : Nat) : Option Nat :=
  match s.char? i with
  | none => some i
  | some '\n' => some (i + 1)
  | some '\r' => some (if s.isAt (i + 1) '\n' then i + 2 else i + 1)
  | some _ => none

/-- The place behind the line if only blanks are left of it. -/
def blankLine? (s : Source) (i : Nat) : Option Nat := s.lineEnd? (s.skipBlanks i)

/-- The place behind the next line feed. -/
def nextLine (s : Source) (i : Nat) : Nat :=
  let j := s.find '\n' i
  if s.isEnd j then j else j + 1

/-- The value of up to `limit` decimal digits and the place behind them. -/
def decimal (s : Source) (limit i : Nat) : Nat × Nat :=
  let j := s.skipUpTo Char.isDigit limit i
  ((s.slice i j).foldl (fun n c => n * 10 + (c.toNat - '0'.toNat)) 0, j)

end Source

end PublisherConsole.Markdown
