import PublisherConsole.Configuration
import PublisherConsole.Storage.Script

/-!
# The configuration file

A console without a configuration file works with the default configuration; a file that is there
has to be readable.
-/

namespace PublisherConsole.Configuration

open Storage

/-- Read a configuration file. -/
def load (p : Path) : Script (Except Fault Configuration) := do
  match (← Script.readText p) with
  | .error e => pure (.error (.system e))
  | .ok text =>
    match ofText text with
    | .ok c => pure (.ok c)
    | .error e => pure (.error (.json e))

/-- Read a configuration file, or take the default when there is none. -/
def loadOrDefault (p : Path) : Script (Except Fault Configuration) := do
  if (← Script.exists? p) then load p else pure (.ok default)

/-- Write a configuration file, and the directories it needs. -/
def save (c : Configuration) (p : Path) : Script (Except Fault Unit) := do
  match (← makeDirectories p.dropLast) with
  | .error e => pure (.error (.system e))
  | .ok () =>
    match (← overwriteFile p c.toText.toUTF8) with
    | .error e => pure (.error (.system e))
    | .ok () => pure (.ok ())

end PublisherConsole.Configuration
