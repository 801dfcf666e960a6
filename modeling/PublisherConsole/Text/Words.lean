import PublisherConsole.Text.Escapes
import PublisherConsole.Unicode.Alphanumeric
import PublisherConsole.Unicode.LineBreak

/-!
# Words for filling lines

A text is divided into words where a line may end. Each word keeps the blanks behind it, so the
words put together give the text again. Words end at a hyphen only between letters or digits, and a
word that is wider than a line is divided once more, character by character.
-/

namespace PublisherConsole.Text

/-- A word, the cells it takes and the number of blanks behind it. -/
structure Word where
  chars : List Char
  cells : Nat
  blanks : Nat
  deriving DecidableEq, Repr, Inhabited

/-- The characters of a word and its blanks. -/
def Word.all (w : Word) : List Char := w.chars ++ List.replicate w.blanks ' '

/-- A word of the given characters; the blanks at their end go behind the word. -/
def Word.ofChars (cs : List Char) : Word :=
  let chars := (cs.reverse.dropWhile (· = ' ')).reverse
  ⟨chars, Text.cells chars, cs.length - chars.length⟩

/-- Whether no word may end behind a character, as it has rules of its own: the hyphen and the soft
hyphen. -/
def isHyphen (c : Char) : Bool := c = '-' || c = '\u00ad'

/-- Take back the last place where a word may end. -/
def dropLastBreak (breaks : List Bool) : List Bool :=
  let reversed := breaks.reverse
  (reversed.takeWhile (· = false) ++
    match reversed.dropWhile (· = false) with
    | [] => []
    | _ :: rest => false :: rest).reverse

/-- For each visible character, whether a word may start in front of it. The end of the text is the
last such place; it is taken back, and if a hyphen stands at the end, the place before it is. -/
def wordStarts (cs : List Char) : List Bool :=
  let behindHyphen := cs.map isHyphen
  let breaks := (Unicode.breaksBefore cs).drop 1 ++ [true]
  false :: dropLastBreak (List.zipWith (fun b h => b && !h) breaks behindHyphen)

/-- Divide tokens into words: `starts` has a flag for each visible character, `fresh` says that the
last token was visible, and `done` has the word so far in reverse. An escape sequence belongs to
the character behind it. -/
def cutTokens : Bool → List Bool → List Char → List Token → List (List Char)
  | _, _, done, [] => if done.isEmpty then [] else [done.reverse]
  | fresh, starts, done, t :: ts =>
    let visible := t.visible?.isSome
    let done' := t.chars.reverse ++ if fresh && starts.headD false then [] else done
    let rest := cutTokens visible (if visible then starts.tail else starts) done' ts
    if fresh && starts.headD false then done.reverse :: rest else rest

/-- The words of one row of text. -/
def words (cs : List Char) : List Word :=
  let ts := tokens cs
  (cutTokens true (wordStarts (ts.filterMap Token.visible?)) [] ts).map Word.ofChars

/-- Divide the characters of a word behind every hyphen between letters or digits. -/
def cutHyphens : Option Char → List Char → List Char → List (List Char)
  | _, done, [] => if done.isEmpty then [] else [done.reverse]
  | before, done, c :: cs =>
    let joins (o : Option Char) : Bool := o.any Unicode.isAlphanumeric
    if c = '-' && joins before && joins cs.head? then
      (c :: done).reverse :: cutHyphens (some c) [] cs
    else cutHyphens (some c) (c :: done) cs

/-- Give the parts of a word their cells; the blanks go behind the last part. -/
def partsOf (blanks : Nat) : List (List Char) → List Word
  | [] => [⟨[], 0, blanks⟩]
  | [cs] => [⟨cs, cells cs, blanks⟩]
  | cs :: rest => ⟨cs, cells cs, 0⟩ :: partsOf blanks rest

/-- Divide a word at its hyphens. -/
def Word.splitHyphens (w : Word) : List Word := partsOf w.blanks (cutHyphens none [] w.chars)

/-- Divide the tokens of a word into parts of at most `limit` cells where that is possible: `done`
has the part so far in reverse and `used` its cells. -/
def cutCells (limit blanks : Nat) : List Char → Nat → List Token → List Word
  | done, used, [] => [⟨done.reverse, used, blanks⟩]
  | done, used, .escape cs :: ts => cutCells limit blanks (cs.reverse ++ done) used ts
  | done, used, .visible c :: ts =>
    let width := Unicode.charWidth c
    if used > 0 && used + width > limit then
      ⟨done.reverse, used, 0⟩ :: cutCells limit blanks [c] width ts
    else cutCells limit blanks (c :: done) (used + width) ts

/-- Divide a word that takes more than `limit` cells. -/
def Word.breakApart (limit : Nat) (w : Word) : List Word :=
  if w.cells > limit then cutCells limit w.blanks [] 0 (tokens w.chars) else [w]

/-- What the lines of a row of text are made of, for lines of `limit` cells. -/
def fragments (limit : Nat) (cs : List Char) : List Word :=
  ((words cs).flatMap Word.splitHyphens).flatMap (Word.breakApart limit)

end PublisherConsole.Text
