/-!
# Writing JSON

Values are written over several lines, two blanks deeper for each level. Empty lists and objects
stay on one line. In a string only quotes, backslashes and control characters are escaped.
-/

namespace PublisherConsole.Json

/-- A value to be written. -/
inductive Value
  | null
  | boolean (value : Bool)
  | natural (value : Nat)
  | text (value : String)
  | list (items : List Value)
  | object (members : List (String × Value))
  deriving Repr, Inhabited

/-- A text, or `null` when there is none. -/
def Value.optionalText : Option String → Value
  | none => .null
  | some s => .text s

/-- A base-sixteen digit. -/
def lowHex (n : Nat) : Char := Nat.digitChar n

/-- A character inside a string. -/
def escapeChar (c : Char) : List Char :=
  match c with
  | '"' => ['\\', '"']
  | '\\' => ['\\', '\\']
  | '\x08' => ['\\', 'b']
  | '\x0c' => ['\\', 'f']
  | '\n' => ['\\', 'n']
  | '\r' => ['\\', 'r']
  | '\t' => ['\\', 't']
  | c =>
    if c.toNat < 0x20 then
      ['\\', 'u', '0', '0', lowHex (c.toNat / 16), lowHex (c.toNat % 16)]
    else [c]

/-- A string with its quotes. -/
def stringText (s : String) : List Char := '"' :: s.toList.flatMap escapeChar ++ ['"']

/-- The start of a line at the given depth. -/
def newLine (depth : Nat) : List Char := '\n' :: List.replicate (2 * depth) ' '

mutual

/-- A value whose first character stands at the given depth. -/
def Value.pretty (depth : Nat) : Value → List Char
  | .null => ['n', 'u', 'l', 'l']
  | .boolean true => ['t', 'r', 'u', 'e']
  | .boolean false => ['f', 'a', 'l', 's', 'e']
  | .natural n => Nat.toDigits 10 n
  | .text s => stringText s
  | .list [] => ['[', ']']
  | .list (v :: vs) =>
    '[' :: newLine (depth + 1) ++ v.pretty (depth + 1) ++ prettyItems depth vs
      ++ newLine depth ++ [']']
  | .object [] => ['\x7b', '\x7d']
  | .object (m :: ms) =>
    '\x7b' :: newLine (depth + 1) ++ prettyMember depth m ++ prettyMembers depth ms
      ++ newLine depth ++ ['\x7d']

/-- The items behind the first. -/
def prettyItems (depth : Nat) : List Value → List Char
  | [] => []
  | v :: vs => ',' :: newLine (depth + 1) ++ v.pretty (depth + 1) ++ prettyItems depth vs

/-- One member: its key, a colon and its value. -/
def prettyMember (depth : Nat) : String × Value → List Char
  | (key, v) => stringText key ++ [':', ' '] ++ v.pretty (depth + 1)

/-- The members behind the first. -/
def prettyMembers (depth : Nat) : List (String × Value) → List Char
  | [] => []
  | m :: ms => ',' :: newLine (depth + 1) ++ prettyMember depth m ++ prettyMembers depth ms

end

/-- The text of a value. -/
def Value.toText (v : Value) : String := String.ofList (v.pretty 0)

end PublisherConsole.Json
