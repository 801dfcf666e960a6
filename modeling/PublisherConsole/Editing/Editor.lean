import PublisherConsole.Editing.Session

/-!
# The editor behind a session

An editor keeps what there is to know about a session in fields of its own: where it stands, the
draft, a counter of the drafts, and the message of the last failed save. An operation looks at where
the editor stands and then changes the fields one after the other, in place. What goes wrong on the
way does not take back what has been changed before.

The counter has 64 bits. Whether a full counter stops the program or starts again from zero is
settled when the program is built (`Overflow`).
-/

namespace PublisherConsole

/-- What a counter does that is full: it stops the program, or it starts again from zero. -/
inductive Overflow
  | stops
  | wraps
  deriving DecidableEq, Repr, Inhabited

/-- Where an editor stands. -/
inductive Editor.State
  | closed
  | editing
  | saving
  deriving DecidableEq, Repr, Inhabited

/-- The word for where an editor stands. -/
def Editor.State.name : State → String
  | .closed => "Closed"
  | .editing => "Editing"
  | .saving => "Saving"

/-- An editor for one text. -/
structure Editor where
  field : TextField
  state : Editor.State
  draft : Option String
  revision : UInt64
  lastError : Option String
  deriving DecidableEq, Repr, Inhabited

namespace Editor

/-- Why an operation fails. With the last of the faults, the program ends. -/
inductive Fault
  | restricted (field : TextField)
  | invalidTransition (operation : Operation) (state : State)
  | saveFailed (field : TextField) (cause : Storage.Fault)
  | overflow
  deriving Repr

/-- The wording of a fault. -/
def Fault.message : Fault → String
  | .restricted field => "Editing " ++ field.name ++ " is not permitted for this user"
  | .invalidTransition operation state => "Cannot " ++ operation.name ++ " while " ++ state.name
  | .saveFailed field cause => "Failed to save " ++ field.name ++ ": " ++ cause.message
  | .overflow => "attempt to add with overflow"

/-- A program that changes an editor, beside what it does in `m`. A fault keeps the changes that were
made before it. -/
abbrev Program (m : Type → Type) (α : Type) : Type := ExceptT Fault (StateT Editor m) α

/-- An editor that was never opened. -/
def new (field : TextField) : Editor :=
  { field, state := .closed, draft := none, revision := 0, lastError := none }

/-- Whether the editor is open. -/
def isOpen (e : Editor) : Bool := e.state ≠ .closed

/-- Whether a save is under way. -/
def isSaving (e : Editor) : Bool := e.state = .saving

/-- Whether the program cannot count another draft. -/
def isFull (e : Editor) (overflow : Overflow) : Bool :=
  overflow = .stops && e.revision.toNat + 1 = UInt64.size

/-- The title of the dialog for an API of the given name. -/
def title (e : Editor) (apiName : String) : String := "Edit " ++ e.field.label ++ " of " ++ apiName

section Operations

variable {m : Type → Type} [Monad m]

/-- Fail unless the editor stands where the operation belongs. -/
def expectState (operation : Operation) (expected : State) : Program m Unit := do
  let e ← get
  unless e.state = expected do throw (.invalidTransition operation e.state)

/-- Drop the draft and the message. -/
def close : Program m Unit :=
  modify fun e => { e with draft := none, lastError := none, state := .closed }

/-- Count another draft. -/
def countDraft (overflow : Overflow) : Program m Unit := do
  let e ← get
  if e.isFull overflow then throw .overflow
  set { e with revision := e.revision + 1 }

/-- Open the editor on a record. -/
def openOn (overflow : Overflow) (record : Record) (access : Access) : Program m Unit := do
  let e ← get
  unless access = .allowed do throw (.restricted e.field)
  expectState .opening .closed
  modify fun e => { e with draft := some (record.content e.field) }
  countDraft overflow
  modify fun e => { e with lastError := none, state := .editing }

/-- Replace the draft. -/
def updateDraft (overflow : Overflow) (content : String) : Program m Unit := do
  expectState .editing .editing
  modify fun e => { e with draft := some content }
  countDraft overflow

/-- Drop the draft, and say whether there was anything to drop. A save that is under way is not
dropped. -/
def cancel : Program m Bool := do
  let e ← get
  match e.state with
  | .editing =>
    close
    return true
  | .closed | .saving => return false

/-- Start a save and hand out its write. -/
def beginSave : Program m PendingSave := do
  expectState .saving .editing
  modify fun e => { e with state := .saving, lastError := none }
  let e ← get
  return ⟨e.field, e.draft.getD ""⟩

/-- End a save with its outcome: none for success, or the message of the failure. -/
def finishSave (failure : Option String) : Program m Unit := do
  expectState .finishing .saving
  match failure with
  | none => close
  | some message => modify fun e => { e with lastError := some message, state := .editing }

/-- Save the draft through a store: `update` performs the write. -/
def save (update : TextField → String → m (Except Storage.Fault Record)) : Program m Record := do
  let pending ← beginSave
  let outcome ← (update pending.field pending.content : m _)
  match outcome with
  | .ok record =>
    finishSave none
    return record
  | .error cause =>
    finishSave (some cause.message)
    let e ← get
    throw (.saveFailed e.field cause)

/-- Run a program: its result, and the editor afterwards. -/
def run {α : Type} (e : Editor) (program : Program m α) : m (Except Fault α × Editor) :=
  program.run.run e

end Operations

end Editor

end PublisherConsole
