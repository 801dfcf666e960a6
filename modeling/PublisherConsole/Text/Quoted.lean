import PublisherConsole.Unicode.Printable

/-!
# Quoted text in messages

A message shows a text between double quotes. Quotes, backslashes and line controls are written
with a backslash, and whatever is not visible on its own as a code point in base sixteen.
-/

namespace PublisherConsole.Text

/-- One character inside a quotation. -/
def quotedChar (c : Char) : List Char :=
  match c with
  | '"' => ['\\', '"']
  | '\\' => ['\\', '\\']
  | '\n' => ['\\', 'n']
  | '\r' => ['\\', 'r']
  | '\t' => ['\\', 't']
  | '\x00' => ['\\', '0']
  | c =>
    if Unicode.isPrintable c then [c]
    else ['\\', 'u', '\x7b'] ++ Nat.toDigits 16 c.toNat ++ ['\x7d']

/-- A text between quotes. -/
def quoted (s : String) : String :=
  String.ofList (['"'] ++ s.toList.flatMap quotedChar ++ ['"'])

end PublisherConsole.Text
