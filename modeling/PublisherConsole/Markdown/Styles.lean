import PublisherConsole.Screen.Theme

/-!
# Styles of rendered Markdown

Each kind of element has a style. Only code has a background of its own.
-/

namespace PublisherConsole.Markdown

open Screen

/-- The styles of the elements. -/
structure Styles where
  heading1 : Style
  heading2 : Style
  /-- The style of all headings below the second level. -/
  heading3 : Style
  code : Style
  codeBlock : Style
  emphasis : Style
  strong : Style
  strikethrough : Style
  listMarker : Style
  link : Style
  quote : Style
  html : Style
  rule : Style
  text : Style
  deriving DecidableEq, Repr, Inhabited

/-- The styles of the console. -/
def Styles.console : Styles :=
  { heading1 := (Style.ink Palette.accent).strong.underlined
    heading2 := (Style.ink Palette.accent).strong
    heading3 := (Style.ink Palette.foreground).strong
    code := .colors Palette.secondary Palette.surface
    codeBlock := .colors Palette.secondary Palette.surface
    emphasis := Style.plain.slanted
    strong := Style.plain.strong
    strikethrough := Style.plain.struck
    listMarker := .ink Palette.accent
    link := (Style.ink Palette.accent).underlined
    quote := (Style.ink Palette.dim).slanted
    html := .ink Palette.dim
    rule := .ink Palette.border
    text := .ink Palette.foreground }

/-- The style of a heading. -/
def Styles.heading (s : Styles) (level : Nat) : Style :=
  if level = 1 then s.heading1 else if level = 2 then s.heading2 else s.heading3

end PublisherConsole.Markdown
