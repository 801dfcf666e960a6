/-!
# Styles of terminal text

A style names the colours and the emphasis of a piece of text. Colours may be left open: patching
a style with another overrides the colours that the other one names and adds its emphasis.
-/

namespace PublisherConsole.Screen

/-- A colour of the terminal. -/
inductive Color
  /-- The terminal's own colour. -/
  | reset
  | rgb (red green blue : Nat)
  deriving DecidableEq, Repr, Inhabited

/-- How a text is set off, apart from its colours. -/
structure Emphasis where
  bold : Bool := false
  dim : Bool := false
  italic : Bool := false
  underlined : Bool := false
  slowBlink : Bool := false
  rapidBlink : Bool := false
  reversed : Bool := false
  hidden : Bool := false
  crossedOut : Bool := false
  deriving DecidableEq, Repr, Inhabited

namespace Emphasis

/-- No emphasis. -/
def none : Emphasis := {}

/-- What either of two emphases has. -/
def union (a b : Emphasis) : Emphasis :=
  { bold := a.bold || b.bold
    dim := a.dim || b.dim
    italic := a.italic || b.italic
    underlined := a.underlined || b.underlined
    slowBlink := a.slowBlink || b.slowBlink
    rapidBlink := a.rapidBlink || b.rapidBlink
    reversed := a.reversed || b.reversed
    hidden := a.hidden || b.hidden
    crossedOut := a.crossedOut || b.crossedOut }

end Emphasis

/-- The colours and the emphasis of a text; a colour that is none is left to what lies below. -/
structure Style where
  foreground : Option Color := none
  background : Option Color := none
  emphasis : Emphasis := Emphasis.none
  deriving DecidableEq, Repr, Inhabited

namespace Style

/-- The style that leaves everything open. -/
def plain : Style := {}

/-- A style with another one laid over it. -/
def patch (s upper : Style) : Style :=
  { foreground := upper.foreground <|> s.foreground
    background := upper.background <|> s.background
    emphasis := s.emphasis.union upper.emphasis }

/-- A style of one foreground colour. -/
def ink (c : Color) : Style := { foreground := some c }

/-- A style of two colours. -/
def colors (foreground background : Color) : Style :=
  { foreground := some foreground, background := some background }

/-- A style in bold. -/
def strong (s : Style) : Style := { s with emphasis := { s.emphasis with bold := true } }

/-- A style in italics. -/
def slanted (s : Style) : Style := { s with emphasis := { s.emphasis with italic := true } }

/-- An underlined style. -/
def underlined (s : Style) : Style := { s with emphasis := { s.emphasis with underlined := true } }

/-- A struck-out style. -/
def struck (s : Style) : Style := { s with emphasis := { s.emphasis with crossedOut := true } }

end Style

end PublisherConsole.Screen
