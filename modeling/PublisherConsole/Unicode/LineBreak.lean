import PublisherConsole.Unicode.BreakClass

/-!
# Where a line may end

`breaksBefore` walks over a text once and tells, for each character, whether a line may end in
front of it. The rules are those of the Unicode line breaking algorithm, taken in their order: the
first one that speaks about a pair of characters decides.
-/

namespace PublisherConsole.Unicode

/-- What the rules look at to the left of a place: the class of the last character, with marks
folded into their base; the class before the run of blanks that ends there; whether the last
character is a blank; whether it is a zero-width joiner; whether it is a hyphen behind a Hebrew
letter; and whether an odd number of regional indicators ends there. -/
structure BreakContext where
  last : BreakClass
  base : BreakClass
  spaced : Bool
  joiner : Bool
  hebrewHyphen : Bool
  oddRegional : Bool
  deriving Repr

namespace BreakClass

/-- Letters that stand together, with or without a script of their own. -/
def isLetter : BreakClass → Bool
  | .al | .hl => true
  | _ => false

/-- Parts and syllables of Hangul. -/
def isHangul : BreakClass → Bool
  | .jl | .jv | .jt | .h2 | .h3 => true
  | _ => false

/-- Ideographs and pictographs. -/
def isIdeographic : BreakClass → Bool
  | .id | .idReserved | .eb | .em => true
  | _ => false

/-- Opening punctuation of either width. -/
def isOpening : BreakClass → Bool
  | .op | .opWide => true
  | _ => false

/-- Classes after which a mark starts anew instead of joining. -/
def endsMarks : BreakClass → Bool
  | .bk | .cr | .lf | .nl | .sp | .zw => true
  | _ => false

end BreakClass

open BreakClass in
/-- Whether the rules about a direct neighbour forbid a break between two classes. -/
def keepsTogether (a b : BreakClass) : Bool :=
  match a, b with
  | _, .qu | .qu, _ => true
  | _, .cb | .cb, _ => false
  | _, .ba | _, .hy | _, .ns | .bb, _ => true
  | .sy, .hl => true
  | _, .inseparable => true
  | .nu, b =>
    b.isLetter || b = .po || b = .pr || b = .nu || b = .op
  | .pr, b =>
    b.isLetter || b.isOpening || b = .nu || b.isIdeographic || b.isHangul
  | .po, b => b.isLetter || b.isOpening || b = .nu
  | .cl, b => b = .po || b = .pr
  | .cp, b => b = .po || b = .pr || b.isLetter || b = .nu
  | .hy, b => b = .nu
  | .isep, b => b = .nu || b.isLetter
  | .sy, b => b = .nu
  | .jl, b => b = .jl || b = .jv || b = .h2 || b = .h3 || b = .po
  | .jv, b | .h2, b => b = .jv || b = .jt || b = .po
  | .jt, b | .h3, b => b = .jt || b = .po
  | .eb, b => b = .em || b = .po
  | .idReserved, b => b = .em || b = .po
  | .id, b | .em, b => b = .po
  | .al, b | .hl, b =>
    b = .nu || b.isLetter || b = .pr || b = .po || b = .op
  | _, _ => false

/-- Whether a line may end before a character of the given class. -/
def BreakContext.allows (s : BreakContext) (k : BreakClass) : Bool :=
  match s.last with
  | .bk | .lf | .nl => true
  | .cr => k ≠ .lf
  | last =>
    match k with
    | .bk | .cr | .lf | .nl | .sp | .zw => false
    | _ =>
      if s.base = .zw then true
      else if s.joiner then false
      else if (k = .cm || k = .zwj) && !s.last.endsMarks then false
      else
        let k := if k = .cm || k = .zwj then .al else k
        if k = .wj || last = .wj then false
        else if last = .gl then false
        else if k = .gl && !(last = .sp || last = .ba || last = .hy) then false
        else
          match k with
          | .cl | .cp | .ex | .isep | .sy => false
          | _ =>
            if s.base.isOpening then false
            else if s.base = .qu && k.isOpening then false
            else if (s.base = .cl || s.base = .cp) && k = .ns then false
            else if s.base = .b2 && k = .b2 then false
            else if s.spaced then true
            else if s.hebrewHyphen && !(k = .cb) then false
            else if last = .ri && k = .ri then !s.oddRegional
            else !keepsTogether last k

/-- The context behind a character. -/
def BreakContext.after (s : BreakContext) (k : BreakClass) : BreakContext :=
  if (k = .cm || k = .zwj) && !s.last.endsMarks then { s with joiner := k = .zwj }
  else
    let folded := if k = .cm || k = .zwj then .al else k
    { last := folded
      base := if folded = .sp then s.base else folded
      spaced := folded = .sp
      joiner := k = .zwj
      hebrewHyphen := s.last = .hl && (folded = .hy || folded = .ba)
      oddRegional := folded = .ri && !(s.last = .ri && s.oddRegional) }

/-- The context behind the first character of a text. -/
def BreakContext.start (k : BreakClass) : BreakContext :=
  let folded := if k = .cm || k = .zwj then .al else k
  { last := folded, base := folded, spaced := folded = .sp, joiner := k = .zwj,
    hebrewHyphen := false, oddRegional := folded = .ri }

/-- For each character, whether a line may end before it. -/
def breaksFrom : BreakContext → List Char → List Bool
  | _, [] => []
  | s, c :: cs => s.allows (breakClass c) :: breaksFrom (s.after (breakClass c)) cs

/-- For each character of a text, whether a line may end before it; never before the first. -/
def breaksBefore : List Char → List Bool
  | [] => []
  | c :: cs => false :: breaksFrom (BreakContext.start (breakClass c)) cs

end PublisherConsole.Unicode
