import PublisherConsole.Screen.Buffer

/-!
# What a terminal is sent

A screen is drawn by writing its rows one after the other, with a sequence of control characters
wherever the style changes.
-/

namespace PublisherConsole.Terminal.Output

open Screen

/-- A control sequence with numbers. -/
def sequence (numbers : List Nat) (letter : String) : String :=
  "\x1b[" ++ ";".intercalate (numbers.map toString) ++ letter

/-- The numbers that select a colour; the first one says what it is for. -/
def colorNumbers (purpose : Nat) : Color → List Nat
  | .reset => [purpose + 1]
  | .rgb red green blue => [purpose, 2, red, green, blue]

/-- The numbers that select an emphasis. -/
def emphasisNumbers (e : Emphasis) : List Nat :=
  [ (e.bold, 1), (e.dim, 2), (e.italic, 3), (e.underlined, 4), (e.slowBlink, 5), (e.rapidBlink, 6)
  , (e.reversed, 7), (e.hidden, 8), (e.crossedOut, 9) ].filterMap fun (on, number) =>
    if on then some number else none

/-- The sequence that selects the style of a cell. -/
def styleText (c : Cell) : String :=
  sequence
    (0 :: colorNumbers 38 c.foreground ++ colorNumbers 48 c.background ++
      emphasisNumbers c.emphasis) "m"

/-- The cells of a row. `style` is the style in use, and `covered` counts the cells that a wide
glyph has covered already. -/
def cellsText : List Cell → String → Nat → String
  | [], _, _ => ""
  | c :: cs, style, covered =>
    if 0 < covered then cellsText cs style (covered - 1)
    else
      let own := styleText c
      let change := if own = style then "" else own
      change ++ c.symbol ++ cellsText cs own (Unicode.textWidth c.symbol.toList - 1)

/-- The rows of a screen, from the given row on. -/
def rowsText : List (List Cell) → Nat → String
  | [], _ => ""
  | row :: rows, y => sequence [y + 1, 1] "H" ++ cellsText row "" 0 ++ rowsText rows (y + 1)

/-- A whole screen. -/
def screenText (b : Buffer) : String := rowsText b.rows 0 ++ sequence [0] "m"

/-- Take over the terminal: another screen, no cursor, and reports of the mouse. -/
def opening : String := "\x1b[?1049h\x1b[?25l\x1b[?1000h\x1b[?1006h\x1b[2J"

/-- Ask the terminal for its status, which it answers at once. -/
def statusRequest : String := "\x1b[5n"

/-- Give the terminal back. -/
def closing : String := "\x1b[?1006l\x1b[?1000l\x1b[?1049l\x1b[?25h"

end PublisherConsole.Terminal.Output
