import PublisherConsole.Api.Access
import PublisherConsole.Storage.Fault

/-!
# Edit sessions

A session edits one text of an API. It is closed, editing a draft, or saving the draft it holds:

* `open?` takes the draft from a record and is refused to restricted users;
* `update?` replaces the draft and `cancel?` drops it;
* `beginSave?` hands out the write to perform, and `finishSave?` takes its outcome: success closes
  the session, failure goes back to the draft and keeps the message.

Each operation belongs to one stage and is refused in the others. The revision counts the drafts
that the session has had.
-/

namespace PublisherConsole

/-- Where a session stands. -/
inductive Stage
  | closed
  | editing (draft : String) (lastError : Option String)
  | saving (draft : String)
  deriving DecidableEq, Repr, Inhabited

/-- The word for a stage. -/
def Stage.name : Stage → String
  | .closed => "Closed"
  | .editing .. => "Editing"
  | .saving _ => "Saving"

/-- An operation on a session. -/
inductive Operation
  | opening
  | editing
  | saving
  | finishing
  deriving DecidableEq, Repr

/-- The words for an operation. -/
def Operation.name : Operation → String
  | .opening => "open"
  | .editing => "edit"
  | .saving => "save"
  | .finishing => "finish save"

/-- Why a session refuses an operation. -/
inductive Refusal
  | restricted (field : TextField)
  | wrongStage (operation : Operation) (stage : Stage)
  deriving DecidableEq, Repr

/-- The wording of a refusal. -/
def Refusal.message : Refusal → String
  | .restricted field => "Editing " ++ field.name ++ " is not permitted for this user"
  | .wrongStage operation stage => "Cannot " ++ operation.name ++ " while " ++ stage.name

/-- Why a save did not succeed. -/
inductive SaveFault
  | refused (refusal : Refusal)
  | failed (field : TextField) (cause : Storage.Fault)
  deriving Repr

/-- The wording of a failed save. -/
def SaveFault.message : SaveFault → String
  | .refused refusal => refusal.message
  | .failed field cause => "Failed to save " ++ field.name ++ ": " ++ cause.message

/-- A write that a session hands out. -/
structure PendingSave where
  field : TextField
  content : String
  deriving DecidableEq, Repr, Inhabited

/-- An edit session for one text. -/
structure Session where
  field : TextField
  stage : Stage
  revision : Nat
  deriving DecidableEq, Repr, Inhabited

namespace Session

/-- A session that was never opened. -/
def new (field : TextField) : Session := ⟨field, .closed, 0⟩

/-- Whether the session is open. -/
def isOpen (s : Session) : Bool := s.stage ≠ .closed

/-- Whether a save is under way. -/
def isSaving (s : Session) : Bool :=
  match s.stage with
  | .saving _ => true
  | _ => false

/-- Whether the session takes edits. -/
def isEditing (s : Session) : Bool :=
  match s.stage with
  | .editing .. => true
  | _ => false

/-- The draft of an open session. -/
def draft? (s : Session) : Option String :=
  match s.stage with
  | .closed => none
  | .editing draft _ => some draft
  | .saving draft => some draft

/-- The message of the last failed save, until the next save or the end of the session. -/
def lastError? (s : Session) : Option String :=
  match s.stage with
  | .editing _ lastError => lastError
  | _ => none

/-- The title of the dialog for an API of the given name. -/
def title (s : Session) (apiName : String) : String :=
  "Edit " ++ s.field.label ++ " of " ++ apiName

/-- Open the session on a record. -/
def open? (s : Session) (record : Record) (access : Access) : Except Refusal Session :=
  match access with
  | .restricted => .error (.restricted s.field)
  | .allowed =>
    match s.stage with
    | .closed =>
      .ok { s with stage := .editing (record.content s.field) none, revision := s.revision + 1 }
    | stage => .error (.wrongStage .opening stage)

/-- Replace the draft. -/
def update? (s : Session) (content : String) : Except Refusal Session :=
  match s.stage with
  | .editing _ lastError =>
    .ok { s with stage := .editing content lastError, revision := s.revision + 1 }
  | stage => .error (.wrongStage .editing stage)

/-- Drop the draft; none when there is nothing to drop or a save is under way. -/
def cancel? (s : Session) : Option Session :=
  match s.stage with
  | .editing .. => some { s with stage := .closed }
  | _ => none

/-- Start a save and hand out its write. -/
def beginSave? (s : Session) : Except Refusal (PendingSave × Session) :=
  match s.stage with
  | .editing draft _ => .ok (⟨s.field, draft⟩, { s with stage := .saving draft })
  | stage => .error (.wrongStage .saving stage)

/-- End a save with its outcome: none for success, or the message of the failure. -/
def finishSave? (s : Session) (failure : Option String) : Except Refusal Session :=
  match s.stage with
  | .saving draft =>
    .ok { s with stage := match failure with
      | none => .closed
      | some message => .editing draft (some message) }
  | stage => .error (.wrongStage .finishing stage)

/-- Save the draft through a store: `update` performs the write. A refused save performs none. -/
def save {m : Type → Type} [Monad m] (s : Session)
    (update : TextField → String → m (Except Storage.Fault Record)) :
    m (Except SaveFault Record × Session) :=
  match s.beginSave? with
  | .error refusal => pure (.error (.refused refusal), s)
  | .ok (pending, saving) => do
    match (← update pending.field pending.content) with
    | .ok record =>
      match saving.finishSave? none with
      | .ok closed => pure (.ok record, closed)
      | .error refusal => pure (.error (.refused refusal), saving)
    | .error cause =>
      match saving.finishSave? (some cause.message) with
      | .ok editing => pure (.error (.failed s.field cause), editing)
      | .error refusal => pure (.error (.refused refusal), saving)

end Session

end PublisherConsole
