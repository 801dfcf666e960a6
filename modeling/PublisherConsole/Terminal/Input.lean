import PublisherConsole.Console.Event

/-!
# What a terminal sends

A terminal in raw mode sends a character for most keys and a sequence that starts with an escape
character for the others and for the mouse. `Input.decode` reads such a sequence from the characters
that have come in since the last event; `Input.feed` cuts a whole run of characters into events.

An escape character on its own is the escape key, unless more characters have come with it.
Sequences that stand for nothing the console knows are dropped.
-/

namespace PublisherConsole.Terminal

/-- What the characters so far stand for. -/
inductive Decoded
  | pending
  | dropped
  | event (e : Event)
  deriving DecidableEq, Repr, Inhabited

namespace Input

/-- A key without modifiers. -/
def key (k : Key) : Decoded := .event (.key { key := k })

/-- A letter that is held together with the control key. -/
def controlled (c : Char) : Decoded := .event (.key { key := .char c, control := true })

/-- The meaning of a single character. -/
def ofChar (c : Char) : Decoded :=
  let n := c.toNat
  if c = '\r' then key .enter
  else if c = '\t' then key .tab
  else if n = 0x7f then key .backspace
  else if n = 0 then controlled ' '
  else if n ≤ 0x1a then controlled (Char.ofNat (n - 1 + 'a'.toNat))
  else if 0x1c ≤ n && n ≤ 0x1f then controlled (Char.ofNat (n - 0x1c + '4'.toNat))
  else .event (.key { key := .char c, shift := c.isUpper })

/-- The key of a letter that ends a sequence. -/
def keyOfLetter? : Char → Option Key
  | 'A' => some .up
  | 'B' => some .down
  | 'C' => some .right
  | 'D' => some .left
  | 'H' => some .home
  | 'F' => some .lineEnd
  | 'P' => some (.function 1)
  | 'Q' => some (.function 2)
  | 'R' => some (.function 3)
  | 'S' => some (.function 4)
  | _ => none

/-- The key of a number in front of a tilde. -/
def keyOfNumber? (n : Nat) : Option Key :=
  if n = 1 || n = 7 then some .home
  else if n = 2 then some .insert
  else if n = 3 then some .delete
  else if n = 4 || n = 8 then some .lineEnd
  else if n = 5 then some .pageUp
  else if n = 6 then some .pageDown
  else if 11 ≤ n && n ≤ 15 then some (.function (n - 10))
  else if 17 ≤ n && n ≤ 21 then some (.function (n - 11))
  else if 23 ≤ n && n ≤ 26 then some (.function (n - 12))
  else if 28 ≤ n && n ≤ 29 then some (.function (n - 15))
  else if 31 ≤ n && n ≤ 34 then some (.function (n - 17))
  else none

/-- The parts of a text between semicolons. -/
def parts : List Char → List (List Char)
  | [] => [[]]
  | c :: cs =>
    if c = ';' then [] :: parts cs
    else
      match parts cs with
      | [] => [[c]]
      | p :: ps => (c :: p) :: ps

/-- A decimal number of at most the given size. -/
def number? (most : Nat) (cs : List Char) : Option Nat :=
  if cs.isEmpty || !cs.all Char.isDigit then none
  else
    let n := cs.foldl (fun n c => n * 10 + (c.toNat - '0'.toNat)) 0
    if n ≤ most then some n else none

/-- A key with the modifiers of a number: one less than the sum of shift, two for alt and four for
control. -/
def keyWith (k : Key) (mask : Nat) : Decoded :=
  let bits := mask - 1
  .event (.key ⟨k, bits / 4 % 2 = 1, bits / 2 % 2 = 1, bits % 2 = 1⟩)

/-- The number of the modifiers in the second part of a sequence. -/
def mask? : List (List Char) → Option Nat
  | _ :: p :: _ => number? 255 (p.takeWhile (· ≠ ':'))
  | _ => none

/-- A sequence that ends with a tilde. -/
def ofNumbered (body : List Char) : Decoded :=
  let ps := parts body
  match (ps.head?.bind (number? 255)).bind keyOfNumber? with
  | some k => keyWith k ((mask? ps).getD 1)
  | none => .dropped

/-- A sequence that ends with a letter. -/
def ofLettered (body : List Char) (letter : Char) : Decoded :=
  match keyOfLetter? letter with
  | none => .dropped
  | some k =>
    match mask? (parts body) with
    | some mask => keyWith k mask
    | none =>
      match body.getLast? with
      | none => key k
      | some c => if c.isDigit then keyWith k (c.toNat - '0'.toNat) else .dropped

/-- What the mouse did, by the number of its button. -/
def ofButton (n : Nat) : Decoded :=
  let button := n % 4 + n / 64 * 4
  let dragging := n / 32 % 2 = 1
  if dragging then
    if button ≤ 5 then .event .pointer else .dropped
  else if button = 4 then .event .wheelUp
  else if button = 5 then .event .wheelDown
  else if button ≤ 7 then .event .pointer
  else .dropped

/-- A report of the mouse whose numbers are written out. -/
def ofPointer (body : List Char) : Decoded :=
  match parts body with
  | [n, x, y] =>
    match number? 255 n, number? 65535 x, number? 65535 y with
    | some n, some _, some _ => ofButton n
    | _, _, _ => .dropped
  | _ => .dropped

/-- A sequence behind an escape character and a bracket. -/
def ofBracketed (cs : List Char) : Decoded :=
  match cs with
  | [] => .pending
  | ['['] => .pending
  | '[' :: c :: _ =>
    if 'A' ≤ c && c ≤ 'E' then key (.function (c.toNat - 'A'.toNat + 1)) else .dropped
  | 'Z' :: _ => .event (.key { key := .backTab, shift := true })
  | 'M' :: rest =>
    match rest with
    | [b, _, _] => if b.toNat < 32 then .dropped else ofButton (b.toNat - 32)
    | _ => if rest.length < 3 then .pending else .dropped
  | '<' :: rest =>
    match rest.getLast? with
    | some 'm' | some 'M' => ofPointer rest.dropLast
    | _ => .pending
  | '?' :: rest =>
    match rest.getLast? with
    | some 'u' | some 'c' => .dropped
    | _ => .pending
  | c :: rest =>
    if c.isDigit then
      match rest.getLast? with
      | none => .pending
      | some last =>
        if last.toNat < 64 || 126 < last.toNat then .pending
        else if "200~".toList.isPrefixOf cs then
          if "\x1b[201~".toList.isSuffixOf cs then .dropped else .pending
        else if last = 'R' then .dropped
        else if last = '~' then ofNumbered cs.dropLast
        else if last = 'M' then
          match (parts cs.dropLast).head?.bind (number? 255) with
          | some n => if n < 32 then .dropped else ofButton (n - 32)
          | none => .dropped
        else ofLettered cs.dropLast last
    else if rest.isEmpty && c ≠ 'R' then
      match keyOfLetter? c with
      | some k => key k
      | none => .dropped
    else .dropped

/-- The same with the alt key held. -/
def withAlt : Decoded → Decoded
  | .event (.key k) => .event (.key { k with alt := true })
  | d => d

/-- What the characters since the last event stand for; `more` says that others have come with
them. -/
def decode (more : Bool) : List Char → Decoded
  | [] => .pending
  | '\x1b' :: rest =>
    match rest with
    | [] => if more then .pending else key .escape
    | ['O'] => .pending
    | 'O' :: c :: _ =>
      match keyOfLetter? c with
      | some k => key k
      | none => .dropped
    | '[' :: cs => ofBracketed cs
    | '\x1b' :: _ => key .escape
    | c :: _ => withAlt (ofChar c)
  | c :: _ => ofChar c

/-- Cut characters into events, behind those that already wait. The answer has the characters that
still wait at the end. -/
def feed : List Char → List Char → List Event × List Char
  | waiting, [] => ([], waiting)
  | waiting, c :: cs =>
    let now := waiting ++ [c]
    match decode (!cs.isEmpty) now with
    | .pending => feed now cs
    | .dropped => feed [] cs
    | .event e =>
      let (events, left) := feed [] cs
      (e :: events, left)

end Input

end PublisherConsole.Terminal
