import PublisherConsole.Text.Total
import PublisherConsole.Unicode.CellWidth

/-!
# Terminal escape sequences

A terminal reads an escape character and what belongs to it as an order and shows nothing of it:
`ESC [` up to a final character between `@` and `~`, `ESC ]` up to a bell or `ESC \`, and any other
single character behind `ESC`. `tokens` divides a text into visible characters and sequences.
-/

namespace PublisherConsole.Text

/-- The escape character. -/
def escapeChar : Char := '\x1b'

/-- Where a reader stands in an escape sequence. -/
inductive EscapeState
  | outside
  /-- Right behind the escape character. -/
  | opened
  | control
  /-- In an order of the system; `escaped` says that the last character was an escape character. -/
  | system (escaped : Bool)
  deriving DecidableEq, Repr, Inhabited

/-- Read one more character. -/
def EscapeState.step : EscapeState → Char → EscapeState
  | .outside, c => if c = escapeChar then .opened else .outside
  | .opened, c => if c = '[' then .control else if c = ']' then .system false else .outside
  | .control, c => if '@' ≤ c ∧ c ≤ '~' then .outside else .control
  | .system escaped, c =>
    if c = '\x07' ∨ (c = '\\' ∧ escaped) then .outside else .system (c = escapeChar)

/-- A visible character or an escape sequence. -/
inductive Token
  | visible (c : Char)
  | escape (cs : List Char)
  deriving DecidableEq, Repr, Inhabited

/-- The characters of a token. -/
def Token.chars : Token → List Char
  | .visible c => [c]
  | .escape cs => cs

/-- Whether a token is a visible character. -/
def Token.visible? : Token → Option Char
  | .visible c => some c
  | .escape _ => none

/-- The tokens of a text, read from a state; `pending` has the sequence so far in reverse. -/
def tokensFrom : EscapeState → List Char → List Char → List Token
  | .outside, _, [] => []
  | _, pending, [] => [.escape pending.reverse]
  | .outside, _, c :: cs =>
    if c = escapeChar then tokensFrom .opened [c] cs else .visible c :: tokensFrom .outside [] cs
  | s, pending, c :: cs =>
    match s.step c with
    | .outside => .escape (c :: pending).reverse :: tokensFrom .outside [] cs
    | s' => tokensFrom s' (c :: pending) cs

/-- The tokens of a text. -/
def tokens (cs : List Char) : List Token := tokensFrom .outside [] cs

/-- The cells of the visible characters of a text, each counted on its own. -/
def cells (cs : List Char) : Nat :=
  total Unicode.charWidth ((tokens cs).filterMap Token.visible?)

end PublisherConsole.Text
