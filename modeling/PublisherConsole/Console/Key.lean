import PublisherConsole.Api.TextField
import PublisherConsole.Editing.TextBuffer

/-!
# Keys and what they mean

A key press is a key and the modifiers held with it. `KeyPress.action` is its meaning as a command
and `Typing.ofKey?` its meaning while a text is edited.
-/

namespace PublisherConsole

/-- A key of the keyboard. -/
inductive Key
  | char (c : Char)
  | enter
  | escape
  | tab
  | backTab
  | backspace
  | delete
  | insert
  | left
  | right
  | up
  | down
  | home
  | lineEnd
  | pageUp
  | pageDown
  | function (number : Nat)
  | null
  /-- A key that means nothing to the console, such as a lock, a media key or a modifier by itself. -/
  | other
  deriving DecidableEq, Repr, Inhabited

/-- A key with the modifiers held. -/
structure KeyPress where
  key : Key
  control : Bool := false
  alt : Bool := false
  shift : Bool := false
  deriving DecidableEq, Repr, Inhabited

/-- A command to the console. -/
inductive Action
  | quit
  | help
  | back
  | edit (field : TextField)
  | refresh
  | save
  | up
  | down
  | none
  deriving DecidableEq, Repr, Inhabited

/-- The command of a key without the control key. -/
def Key.action : Key → Action
  | .char 'q' => .quit
  | .char '?' => .help
  | .char 'd' => .edit .description
  | .char 'o' => .edit .overview
  | .char 'r' => .refresh
  | .escape => .back
  | .up | .char 'k' => .up
  | .down | .char 'j' => .down
  | _ => .none

/-- The command of a key with the control key. -/
def Key.controlAction : Key → Action
  | .char 'c' => .quit
  | .char 's' => .save
  | _ => .none

/-- The command of a key press. Of the modifiers only the control key counts. -/
def KeyPress.action (k : KeyPress) : Action :=
  if k.control then k.key.controlAction else k.key.action

/-- What a key does to the text being edited: the first three change it, the others move in it. -/
inductive Typing
  | write (cs : List Char)
  | backspace
  | delete
  | left
  | right
  | up
  | down
  | home
  | lineEnd
  deriving DecidableEq, Repr, Inhabited

namespace Typing

/-- The meaning of a key while a text is edited. -/
def ofKey? : Key → Option Typing
  | .char c => some (.write [c])
  | .enter => some (.write ['\n'])
  | .tab => some (.write [' ', ' '])
  | .backspace => some .backspace
  | .delete => some .delete
  | .left => some .left
  | .right => some .right
  | .up => some .up
  | .down => some .down
  | .home => some .home
  | .lineEnd => some .lineEnd
  | _ => none

/-- Carry it out. -/
def apply : Typing → TextBuffer → TextBuffer
  | .write cs, b => b.insertAll cs
  | .backspace, b => b.backspace
  | .delete, b => b.delete
  | .left, b => b.moveLeft
  | .right, b => b.moveRight
  | .up, b => b.moveUp
  | .down, b => b.moveDown
  | .home, b => b.moveHome
  | .lineEnd, b => b.moveEnd

/-- Whether it counts as a change of the text. -/
def isChange : Typing → Bool
  | .write _ | .backspace | .delete => true
  | _ => false

end Typing

end PublisherConsole
