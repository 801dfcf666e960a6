import PublisherConsole.Unicode.CellWidth
import PublisherConsole.Unicode.Emoji

/-!
# Terminal cells of a text

The cells of a text are mostly the sum over its characters, but some neighbours are drawn as one:
emoji sequences take two cells, a carriage return before a line feed takes none, and a few letters
join. `textWidth` reads the characters from the last to the first and carries along what the
characters already read make of the one before them.
-/

namespace PublisherConsole.Unicode

/-- What follows a character, as far as it changes the character's width. -/
inductive Following
  | plain
  | lineFeed
  | alef
  | lamed
  | joinedLamed
  | ya
  | joinedYa
  | vowelYa
  | khmerLetter
  | lisuTone
  | tifinagh
  | joinedTifinagh
  | tifinaghJoiner
  | orkhonI
  | joinedOrkhonI
  | emojiStyle
  | textStyle
  | modifier
  | symbol
  | joinedSymbol
  | styledJoinedSymbol
  | keycap
  | styledKeycap
  | regional
  | manyRegional
  | joinedRegional
  | joinedRegionalPair
  | tagEnd
  deriving DecidableEq, Repr, Inhabited

/-- Whether a letter takes part in a Khmer subscript sign. -/
def isKhmerSubscript (n : Nat) : Bool :=
  (0x1780 ≤ n && n ≤ 0x1782) || (0x1784 ≤ n && n ≤ 0x1787) || (0x1789 ≤ n && n ≤ 0x178c)
    || (0x178e ≤ n && n ≤ 0x1793) || (0x1795 ≤ n && n ≤ 0x1798) || (0x179b ≤ n && n ≤ 0x179d)
    || n = 0x17a0 || n = 0x17a2 || n = 0x17a7 || n = 0x17ab || n = 0x17ac || n = 0x17af

/-- Whether a letter is a Tifinagh consonant. -/
def isTifinagh (n : Nat) : Bool := (0x2d31 ≤ n && n ≤ 0x2d65) || n = 0x2d6f

/-- Whether a letter is of the Lam group. -/
def isLam (n : Nat) : Bool :=
  n = 0x644 || (0x6b5 ≤ n && n ≤ 0x6b8) || n = 0x76a || n = 0x8a6 || n = 0x8c7

/-- Whether a character is a regional indicator. -/
def isRegional (n : Nat) : Bool := 0x1f1e6 ≤ n && n ≤ 0x1f1ff

/-- Whether a character is a skin tone. -/
def isModifier (n : Nat) : Bool := 0x1f3fb ≤ n && n ≤ 0x1f3ff

/-- What a character is to the one before it, when nothing joins it to the ones behind. -/
def followingOf (c : Char) : Following :=
  let n := c.toNat
  if n < 0x300 then .plain
  else if alefs.contains c then .alef
  else if n = 0x5dc then .lamed
  else if n = 0x1a10 then .ya
  else if isKhmerSubscript n then .khmerLetter
  else if n = 0xa4fc || n = 0xa4fd then .lisuTone
  else if isTifinagh n then .tifinagh
  else if n = 0x10c03 then .orkhonI
  else if n = 0xfe0f then .emojiStyle
  else if n = 0xfe0e then .textStyle
  else if isModifier n then .modifier
  else if isRegional n then .regional
  else if emojiPresentation.contains c then .symbol
  else .plain

/-- Whether ignorable marks may stand in front of what follows without breaking the tie. -/
def Following.isTie : Following → Bool
  | .alef | .lamed | .joinedLamed | .ya | .joinedYa | .vowelYa | .khmerLetter | .lisuTone
  | .tifinagh | .joinedTifinagh | .tifinaghJoiner | .orkhonI | .joinedOrkhonI => true
  | _ => false

/-- What follows once a zero-width joiner stands in front of it. -/
def Following.joined : Following → Following
  | .lamed | .joinedLamed => .joinedLamed
  | .ya | .joinedYa => .joinedYa
  | .tifinagh | .joinedTifinagh => .joinedTifinagh
  | .orkhonI | .joinedOrkhonI => .joinedOrkhonI
  | .symbol | .modifier | .manyRegional | .joinedRegionalPair => .joinedSymbol
  | f => f

/-- What follows once an emoji variation selector stands in front of it. -/
def Following.styled : Following → Following
  | .joinedSymbol => .styledJoinedSymbol
  | .keycap => .styledKeycap
  | _ => .emojiStyle

/-- The cells that one character adds in front of what follows, and what it is to the character
before it. A negative number takes back cells that were counted for what follows. -/
def widthBefore (c : Char) (following : Following) : Int × Following :=
  let n := c.toNat
  let alone : Int × Following := (plainWidth c, followingOf c)
  if n ≤ 0xa0 ∧ ¬ (emoji.contains c) then
    if n = 0x0a then (1, .lineFeed)
    else if n = 0x0d ∧ following = .lineFeed then (0, .plain)
    else (1, .plain)
  else if n = 0xfe0f then (0, following.styled)
  else if n = 0xfe0e then (0, .textStyle)
  else if n = 0x200d ∧ following.joined ≠ following then (0, following.joined)
  else if following.isTie ∧ ligatureTransparent.contains c then (0, following)
  else
    match following with
    | .emojiStyle => if emoji.contains c then (2, .symbol) else alone
    | .styledJoinedSymbol => if emoji.contains c then (0, .symbol) else alone
    | .styledKeycap => if n < 0x7f then (0, .symbol) else alone
    | .textStyle => if textVariants.contains c then (1, .plain) else alone
    | .alef =>
      if isLam n then (0, .plain)
      else if joiningTransparent.contains c then (0, .alef)
      else alone
    | .joinedLamed => if n = 0x5d0 then (0, .plain) else alone
    | .khmerLetter => if n = 0x17d2 then (-1, .plain) else alone
    | .joinedYa => if n = 0x1a17 then (0, .vowelYa) else alone
    | .vowelYa => if n = 0x1a15 then (0, .plain) else alone
    | .tifinagh => if n = 0x2d7f then (1, .tifinaghJoiner) else alone
    | .joinedTifinagh =>
      if n = 0x2d7f then (1, .tifinaghJoiner) else if isTifinagh n then (0, .plain) else alone
    | .tifinaghJoiner => if isTifinagh n then (-1, .plain) else alone
    | .lisuTone => if 0xa4f8 ≤ n ∧ n ≤ 0xa4fb then (0, .plain) else alone
    | .joinedOrkhonI => if n = 0x10c32 then (0, .plain) else alone
    | .modifier => if modifierBases.contains c then (0, .symbol) else alone
    | .regional | .manyRegional => if isRegional n then (1, .manyRegional) else alone
    | .joinedRegional => if isRegional n then (-1, .joinedRegionalPair) else alone
    | .joinedRegionalPair => if isRegional n then (3, .joinedRegional) else alone
    | .joinedSymbol =>
      if n = 0x20e3 then (0, .keycap)
      else if isRegional n then (1, .joinedRegional)
      else if isModifier n then (0, .modifier)
      else if n = 0xe007f then (0, .tagEnd)
      else if followingOf c = .symbol then (0, .symbol)
      else alone
    | .tagEnd =>
      if 0xe0061 ≤ n ∧ n ≤ 0xe007a then (0, .tagEnd)
      else if n = 0x1f3f4 then (0, .symbol)
      else alone
    | _ => alone

/-- The cells of a list of characters and what its first character is to one before it. -/
def widthFold (cs : List Char) : Int × Following :=
  cs.foldr
    (fun c (sum, following) =>
      let (add, following) := widthBefore c following
      (sum + add, following))
    (0, .plain)

/-- The cells of a text in a terminal. -/
def textWidth (cs : List Char) : Nat := (widthFold cs).1.toNat

end PublisherConsole.Unicode
