import PublisherConsole.Screen.Line
import PublisherConsole.Text.Fill
import PublisherConsole.Unicode.Punctuation

/-!
# Wrapping styled lines

A styled line with more characters than the width is filled as plain text, and the lines that come
out get the styles of their characters back. Filling drops blanks between lines, so the characters
are matched up again: blanks are skipped until the first character of the next line.

When skipping loses track, a line may want more characters than are left. It takes what there is;
another line behind it is a fault, and there is no answer.
-/

namespace PublisherConsole.Screen

/-- Group neighbours of one style. -/
def styleRuns : List (Char × Style) → List (List Char × Style)
  | [] => []
  | (c, s) :: rest =>
    match styleRuns rest with
    | [] => [([c], s)]
    | (cs, t) :: runs => if s = t then (c :: cs, s) :: runs else ([c], s) :: (cs, t) :: runs

/-- The line of the given characters, each in its own style. -/
def restyle (cs : List Char) (styles : List Style) : Line :=
  ⟨(styleRuns (cs.zip styles)).map fun (cs, s) => ⟨String.ofList cs, s⟩⟩

/-- Give the pieces of a line the styles of its characters. -/
def restylePieces? : List (List Char) → List (Char × Style) → Option (List Line)
  | [], _ => some []
  | piece :: pieces, rest =>
    let rest := rest.dropWhile fun (c, _) => Unicode.isBlank c && piece.head? ≠ some c
    let taken := rest.take piece.length
    let line := restyle (taken.map (·.1)) (taken.map (·.2))
    if piece.length ≤ rest.length || pieces.isEmpty then
      (restylePieces? pieces (rest.drop piece.length)).map fun lines => line :: lines
    else none

/-- Wrap one line to a width. -/
def wrapLine? (width : Nat) (l : Line) : Option (List Line) :=
  let chars := l.chars
  if chars.length ≤ width then some [l]
  else restylePieces? (Text.fill width (chars.map (·.1))) chars

/-- Wrap every line of a list in turn. -/
def wrapAll? (width : Nat) : List Line → Option (List Line)
  | [] => some []
  | l :: ls => do
    let first ← wrapLine? width l
    let others ← wrapAll? width ls
    return first ++ others

/-- Wrap lines to a width; the width zero leaves them alone. -/
def wrapLines? (lines : List Line) (width : Nat) : Option (List Line) :=
  if width = 0 then some lines else wrapAll? width lines

end PublisherConsole.Screen
