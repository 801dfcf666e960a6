import PublisherConsole.Json.Cursor

/-!
# Values, skipping and decoding

The readers of this module read JSON values of a known shape directly into the library's own
types. A value that no reader wants is passed over by `skipValue`, which checks its grammar but
not the range of its numbers or the pairing of escaped surrogates.
-/

namespace PublisherConsole.Json

open Cursor

/-! ## Values that nobody wants -/

/-- Pass over the digits behind an exponent letter. -/
def skipExponent (c : Cursor) : Except Error Cursor :=
  let (_, c) := exponentSign c.next
  match c.rest with
  | [] => c.fail .invalidNumber
  | x :: _ =>
    if x.isDigit then .ok (skipDigitsFrom c.next.rest c.next.place)
    else .error ⟨.invalidNumber, bytesOn 1 c.rest c.place⟩

/-- Pass over a fraction, with the cursor before its point. -/
def skipFraction (c : Cursor) : Except Error Cursor :=
  let c := c.next
  match c.peek? with
  | some x =>
    if x.isDigit then
      let c := skipDigitsFrom c.rest c.place
      match c.peek? with
      | some 'e' | some 'E' => skipExponent c
      | _ => .ok c
    else c.failNext .invalidNumber
  | none => c.failNext .invalidNumber

/-- Pass over what follows the whole part of a number. -/
def skipAfterWhole (c : Cursor) : Except Error Cursor :=
  match c.peek? with
  | some '.' => skipFraction c
  | some 'e' | some 'E' => skipExponent c
  | _ => .ok c

/-- Pass over a number behind its sign. -/
def skipUnsigned (c : Cursor) : Except Error Cursor :=
  match c.rest with
  | [] => c.fail .invalidNumber
  | x :: _ =>
    let after := c.next
    if x = '0' then
      match after.peek? with
      | some y => if y.isDigit then after.failNext .invalidNumber else skipAfterWhole after
      | none => .ok after
    else if x.isDigit then skipAfterWhole (skipDigitsFrom after.rest after.place)
    else .error ⟨.invalidNumber, bytesOn 1 c.rest c.place⟩

/-- Pass over the body of a string behind its opening quote. -/
def skipCharsWithin : Nat → Cursor → Except Error Cursor
  | 0, c => c.fail .endOfString
  | fuel + 1, c =>
    match c.rest with
    | [] => c.fail .endOfString
    | '"' :: _ => .ok c.next
    | '\\' :: _ =>
      let c := c.next
      match c.rest with
      | [] => c.fail .endOfString
      | 'u' :: _ => do
        let (_, c) ← readHex c.next
        skipCharsWithin fuel c
      | x :: _ =>
        match escaped? x with
        | some _ => skipCharsWithin fuel c.next
        | none => .error ⟨.invalidEscape, bytesOn 1 c.rest c.place⟩
    | x :: _ => if x.toNat < 0x20 then c.fail .controlCharacter else skipCharsWithin fuel c.next

/-- Pass over a string behind its opening quote. -/
def skipString (c : Cursor) : Except Error Cursor := skipCharsWithin (c.rest.length + 1) c

/-- Pass over a key and its colon; the key is the next token. -/
def skipKey (c : Cursor) : Except Error Cursor :=
  let c := c.skipBlanks
  match c.peek? with
  | some '"' => do
    let c ← skipString c.next
    let c := c.skipBlanks
    match c.peek? with
    | some ':' => .ok c.next
    | some _ => c.failNext .expectedColon
    | none => c.failNext .endOfObject
  | some _ => c.failNext .keyMustBeString
  | none => c.failNext .endOfObject

mutual

/-- Pass over a value. The fuel bounds the number of tokens. -/
def skipValueWithin : Nat → Cursor → Except Error Cursor
  | 0, c => c.failNext .endOfValue
  | fuel + 1, c =>
    let c := c.skipBlanks
    match c.peek? with
    | none => c.failNext .endOfValue
    | some '[' =>
      let c := c.next.skipBlanks
      match c.peek? with
      | some ']' => .ok c.next
      | some _ => skipItemsWithin fuel c
      | none => c.failNext .endOfList
    | some '\x7b' =>
      let c := c.next.skipBlanks
      match c.peek? with
      | some '\x7d' => .ok c.next
      | some _ => skipMembersWithin fuel c
      | none => c.failNext .endOfObject
    | some '"' => skipString c.next
    | some '-' => skipUnsigned c.next
    | some 'n' => do
      let ((), c) ← readLetters ['u', 'l', 'l'] c.next
      .ok c
    | some 't' => do
      let ((), c) ← readLetters ['r', 'u', 'e'] c.next
      .ok c
    | some 'f' => do
      let ((), c) ← readLetters ['a', 'l', 's', 'e'] c.next
      .ok c
    | some x => if x.isDigit then skipUnsigned c else c.failNext .expectedValue

/-- Pass over the items of a list and its closing bracket; the next token starts an item. -/
def skipItemsWithin : Nat → Cursor → Except Error Cursor
  | 0, c => c.failNext .endOfList
  | fuel + 1, c => do
    let c ← skipValueWithin fuel c
    let c := c.skipBlanks
    match c.peek? with
    | some ',' => skipItemsWithin fuel c.next
    | some ']' => .ok c.next
    | some _ => c.failNext .expectedListCommaOrEnd
    | none => c.failNext .endOfList

/-- Pass over the members of an object and its closing brace; the next token should be a key. -/
def skipMembersWithin : Nat → Cursor → Except Error Cursor
  | 0, c => c.failNext .endOfObject
  | fuel + 1, c => do
    let c ← skipKey c
    let c ← skipValueWithin fuel c
    let c := c.skipBlanks
    match c.peek? with
    | some ',' => skipMembersWithin fuel c.next
    | some '\x7d' => .ok c.next
    | some _ => c.failNext .expectedObjectCommaOrEnd
    | none => c.failNext .endOfObject

end

/-- Pass over a value. Every token takes a character, so the fuel suffices. -/
def skipValue (c : Cursor) : Except Error Cursor := skipValueWithin (2 * c.rest.length + 2) c

/-! ## Values of a known shape -/

/-- Fail on a value of the wrong kind; the cursor stands before the value. Scalars are read to
their end first, so a fault inside them wins. -/
def failWrongType {α : Type} (expected : String) (c : Cursor) : Except Error α :=
  let wrong (found : Found) (c : Cursor) : Except Error α := c.fail (.wrongType found expected)
  match c.peek? with
  | some 'n' => do
    let ((), c) ← readLetters ['u', 'l', 'l'] c.next
    wrong .null c
  | some 't' => do
    let ((), c) ← readLetters ['r', 'u', 'e'] c.next
    wrong (.boolean true) c
  | some 'f' => do
    let ((), c) ← readLetters ['a', 'l', 's', 'e'] c.next
    wrong (.boolean false) c
  | some '"' => do
    let (s, c) ← readString c.next
    wrong (.text s) c
  | some '[' => wrong .list c
  | some '\x7b' => wrong .object c
  | some x =>
    if x = '-' ∨ x.isDigit then do
      let (n, c) ← readNumber c
      wrong n.found c
    else c.failNext .expectedValue
  | none => c.failNext .expectedValue

/-- Continue with the first token of a value. -/
def onValue {α : Type} (k : Char → Reader α) : Reader α := fun c =>
  let c := c.skipBlanks
  match c.peek? with
  | some x => k x c
  | none => c.failNext .endOfValue

/-- A string, checked and converted by `check`, which may refuse it. -/
def readTextAs {α : Type} (expected : String) (check : String → Except Fault α) : Reader α :=
  onValue fun x c =>
    if x = '"' then do
      let (s, c) ← readString c.next
      match check s with
      | .ok a => .ok (a, c)
      | .error fault => c.fail fault
    else failWrongType expected c

/-- A string. -/
def readText : Reader String := readTextAs "a string" .ok

/-- `null`, or a value. -/
def readOptional {α : Type} (r : Reader α) : Reader (Option α) := fun c =>
  let c := c.skipBlanks
  if c.peek? = some 'n' then do
    let ((), c) ← readLetters ['u', 'l', 'l'] c.next
    .ok (none, c)
  else do
    let (a, c) ← r c
    .ok (some a, c)

/-- `null` alone. -/
def readNull : Reader Unit := onValue fun x c =>
  if x = 'n' then readLetters ['u', 'l', 'l'] c.next else failWrongType "unit" c

/-- A whole number of at most 64 bits. -/
def readNat64 : Reader Nat := onValue fun x c =>
  if x = '-' ∨ x.isDigit then do
    let (n, c) ← readNumber c
    match n with
    | .natural k => .ok (k, c)
    | .negative k => c.fail (.wrongValue (.integer k) "u64")
    | .float y => c.fail (.wrongType (.float y) "u64")
  else failWrongType "u64" c

/-! ## Lists -/

/-- Stand before the next item of a list, or before its closing bracket. -/
def nextItem (first : Bool) (c : Cursor) : Except Error (Bool × Cursor) :=
  let c := c.skipBlanks
  match c.peek? with
  | none => c.failNext .endOfList
  | some ']' => .ok (false, c)
  | some ',' =>
    if first then .ok (true, c)
    else
      let c := c.next.skipBlanks
      match c.peek? with
      | some ']' => c.failNext .trailingComma
      | some _ => .ok (true, c)
      | none => c.failNext .endOfValue
  | some _ => if first then .ok (true, c) else c.failNext .expectedListCommaOrEnd

/-- The closing bracket of a list whose wanted items have all been read. -/
def endList (c : Cursor) : Except Error Cursor :=
  let c := c.skipBlanks
  match c.peek? with
  | some ']' => .ok c.next
  | some ',' =>
    let c := c.next.skipBlanks
    if c.peek? = some ']' then c.failNext .trailingComma else c.failNext .trailingCharacters
  | some _ => c.failNext .trailingCharacters
  | none => c.failNext .endOfList

/-- The items of a list up to its closing bracket. -/
def readItemsWithin {α : Type} (r : Reader α) : Nat → Bool → List α → Reader (List α)
  | 0, _, _, c => c.failNext .endOfList
  | fuel + 1, first, done, c => do
    let (more, c) ← nextItem first c
    if more then
      let (a, c) ← r c
      readItemsWithin r fuel false (a :: done) c
    else .ok (done.reverse, c)

/-- A list of values of one shape. -/
def readList {α : Type} (r : Reader α) : Reader (List α) := onValue fun x c =>
  if x = '[' then do
    let (items, c) ← readItemsWithin r (c.rest.length + 1) true [] c.next
    let c ← endList c
    .ok (items, c)
  else failWrongType "a sequence" c

/-! ## Objects -/

/-- Stand before the next key of an object, or before its closing brace. -/
def nextKey (first : Bool) (c : Cursor) : Except Error (Bool × Cursor) :=
  let key (c : Cursor) : Except Error (Bool × Cursor) :=
    match c.peek? with
    | some '"' => .ok (true, c)
    | some '\x7d' => c.failNext .trailingComma
    | some _ => c.failNext .keyMustBeString
    | none => c.failNext .endOfValue
  let c := c.skipBlanks
  match c.peek? with
  | some '\x7d' => .ok (false, c)
  | some ',' => if first then key c else key c.next.skipBlanks
  | some _ => if first then key c else c.failNext .expectedObjectCommaOrEnd
  | none => c.failNext .endOfObject

/-- The colon behind a key. -/
def readColon (c : Cursor) : Except Error Cursor :=
  let c := c.skipBlanks
  match c.peek? with
  | some ':' => .ok c.next
  | some _ => c.failNext .expectedColon
  | none => c.failNext .endOfObject

/-- The members of an object up to and including its closing brace, in the order in which they
are written. -/
def readMembersWithin {α : Type} (r : Reader α) :
    Nat → Bool → List (String × α) → Reader (List (String × α))
  | 0, _, _, c => c.failNext .endOfObject
  | fuel + 1, first, done, c => do
    let (more, c) ← nextKey first c
    if more then
      let (key, c) ← readString c.next
      let c ← readColon c
      let (a, c) ← r c
      readMembersWithin r fuel false ((key, a) :: done) c
    else .ok (done.reverse, c.next)

/-- An object whose members all have one shape, with repeated keys kept. -/
def readMembers {α : Type} (expected : String) (r : Reader α) : Reader (List (String × α)) :=
  onValue fun x c =>
    if x = '\x7b' then readMembersWithin r (c.rest.length + 1) true [] c.next
    else failWrongType expected c

/-! ## Whole texts -/

/-- Read a whole text: behind the value there may be blanks only. -/
def readWhole {α : Type} (r : Reader α) (text : String) : Except Error α := do
  let (a, c) ← r (Cursor.start text)
  let c := c.skipBlanks
  match c.peek? with
  | none => .ok a
  | some _ => c.failNext .trailingCharacters

end PublisherConsole.Json
