import PublisherConsole.Api.Access
import PublisherConsole.Console.Key
import PublisherConsole.Definition.ServerList
import PublisherConsole.Editing.Session
import PublisherConsole.Markdown.Preview

/-!
# The state of the console

The console shows one API: an overview of it, or the dialog that edits one of its texts. Work that
takes time is not done here. The state queues a fetch (`pendingLoad`) or a save (`pendingSave`),
whoever runs the console takes it from there, and `deliverServers` and `completeSave` bring the
results back.

* `perform` carries out a command and `press` a key press, which in the dialog may be typing;
* `openEditor`, `syncDraft`, `cancelActive`, `saveActive` and `completeSave` lead the dialog
  through its session;
* `resizePreview` and `refreshPreview` keep the rendered draft, which is rendered again when the
  revision of the session or the width has changed;
* `tick` lets time pass, four times a second.
-/

namespace PublisherConsole

/-- What fills the screen. -/
inductive View
  | overview
  | editor
  deriving DecidableEq, Repr, Inhabited

/-- A save that waits to be carried out. -/
structure SaveRequest where
  apiId : String
  pending : PendingSave
  deriving DecidableEq, Repr, Inhabited

/-- The state of the console. -/
structure App where
  quitting : Bool
  helping : Bool
  view : View
  record : Record
  user : User
  description : Session
  overview : Session
  /-- The text that the dialog edits. -/
  active : Option TextField
  /-- The text area of the dialog. -/
  input : TextBuffer
  servers : Definition.ServerList
  pendingLoad : Option Definition.Ticket
  pendingSave : Option SaveRequest
  preview : List Screen.Line
  /-- The revision of the draft that `preview` shows. -/
  previewRevision : Option Nat
  previewWidth : Nat
  notification : Option String
  /-- How many ticks the notification has left. -/
  notificationTicks : Nat
  ticks : Nat
  /-- How many lines of the overview are hidden above the screen. -/
  scroll : Nat
  deriving Repr, Inhabited

namespace App

/-- The width of the preview as long as the size of the screen is not known. -/
def initialPreviewWidth : Nat := 40

/-- How many ticks a notification stays. -/
def notificationSpan : Nat := 12

/-- The console for a record. The first fetch of its servers is queued. -/
def new (record : Record) (user : User) : App :=
  let (servers, ticket) := Definition.ServerList.mount record.id
  { quitting := false
    helping := false
    view := .overview
    record := record
    user := user
    description := .new .description
    overview := .new .overview
    active := none
    input := .empty
    servers := servers
    pendingLoad := some ticket
    pendingSave := none
    preview := []
    previewRevision := none
    previewWidth := initialPreviewWidth
    notification := none
    notificationTicks := 0
    ticks := 0
    scroll := 0 }

/-- What the user may do to the texts. -/
def access (a : App) : Access := .toEdit a.user a.record

/-- The session of a text. -/
def session (a : App) : TextField → Session
  | .description => a.description
  | .overview => a.overview

/-- Replace the session of a text. -/
def setSession (a : App) (field : TextField) (s : Session) : App :=
  match field with
  | .description => { a with description := s }
  | .overview => { a with overview := s }

/-- The session in the dialog. -/
def activeSession? (a : App) : Option Session := a.active.map a.session

/-- Whether the dialog waits for a save. -/
def isSaving (a : App) : Bool := a.activeSession?.any (·.isSaving)

/-- Show a message for a while. -/
def notify (a : App) (message : String) : App :=
  { a with notification := some message, notificationTicks := notificationSpan }

/-- The message of what has to wait for a save. -/
def savingMessage : String := "Save in progress"

/-! ## The preview -/

/-- Render the draft of the dialog, unless the preview shows its revision already. -/
def refreshPreview (a : App) : App :=
  match a.activeSession? with
  | none => a
  | some s =>
    if a.previewRevision = some s.revision then a
    else
      { a with
        preview := Markdown.preview (s.draft?.getD "") a.previewWidth
        previewRevision := some s.revision }

/-- Give the preview a width. -/
def resizePreview (a : App) (width : Nat) : App :=
  if width = a.previewWidth then a
  else { a with previewWidth := width, previewRevision := none }.refreshPreview

/-! ## The dialog -/

/-- Open the dialog for a text; a refusal is shown. -/
def openEditor (a : App) (field : TextField) : App :=
  match (a.session field).open? a.record a.access with
  | .error refusal => a.notify refusal.message
  | .ok s =>
    { a.setSession field s with
      input := .ofText (s.draft?.getD "")
      active := some field
      view := .editor }.refreshPreview

/-- Leave the dialog. -/
def closeDialog (a : App) : App :=
  { a with
    active := none, input := .empty, preview := [], previewRevision := none, view := .overview }

/-- Make the text area the draft of the dialog, if its session takes edits. -/
def syncDraft (a : App) : App :=
  match a.active with
  | none => a
  | some field =>
    match (a.session field).update? a.input.text with
    | .error _ => a
    | .ok s => (a.setSession field s).refreshPreview

/-- Queue the save of the draft, if its session can be saved. -/
def saveActive (a : App) : App :=
  match a.active with
  | none => a
  | some field =>
    match (a.session field).beginSave? with
    | .error _ => a
    | .ok (pending, s) =>
      { a.setSession field s with pendingSave := some ⟨a.record.id, pending⟩ }

/-- Drop the draft and leave the dialog. The answer is whether the dialog is gone; it stays while a
save is under way. -/
def cancelActive (a : App) : Bool × App :=
  match a.active with
  | none => (true, a)
  | some field =>
    match (a.session field).cancel? with
    | some s => (true, (a.setSession field s).closeDialog)
    | none => (false, a.notify savingMessage)

/-- Take the outcome of a save. Success replaces the record and ends the dialog of that text,
failure is shown. An outcome that no session waits for is dropped. -/
def completeSave (a : App) (field : TextField) (outcome : Except Storage.Fault Record) : App :=
  match outcome with
  | .ok record =>
    match (a.session field).finishSave? none with
    | .error _ => a
    | .ok s =>
      let a := { a.setSession field s with record := record }
      let a := if a.active = some field then a.closeDialog else a
      a.notify (field.label ++ " updated")
  | .error fault =>
    match (a.session field).finishSave? (some fault.message) with
    | .error _ => a
    | .ok s => (a.setSession field s).notify ("Save failed: " ++ fault.message)

/-! ## The servers -/

/-- Queue another fetch of the servers. -/
def refreshServers (a : App) : App :=
  match a.servers.refresh? with
  | none => a
  | some (servers, ticket) => { a with servers := servers, pendingLoad := some ticket }

/-- Take the result of a fetch. -/
def deliverServers (a : App) (ticket : Definition.Ticket)
    (result : Except Definition.LoadFault Definition.Directory) : App :=
  { a with servers := a.servers.apply ticket result }

/-! ## Commands and keys -/

/-- Leave the console, unless the dialog waits for a save. -/
def quit (a : App) : App :=
  if a.isSaving then a.notify savingMessage
  else { a with servers := a.servers.unmount, quitting := true }

/-- Carry out a command on the overview. -/
def performOverview (a : App) : Action → App
  | .quit | .back => a.quit
  | .help => { a with helping := true }
  | .edit field => a.openEditor field
  | .refresh => a.refreshServers
  | .up => { a with scroll := a.scroll - 1 }
  | .down => { a with scroll := a.scroll + 1 }
  | .save | .none => a

/-- Carry out a command in the dialog. -/
def performEditor (a : App) : Action → App
  | .save => a.saveActive
  | .back => a.cancelActive.2
  | .quit =>
    match a.cancelActive with
    | (true, a) => a.quit
    | (false, a) => a
  | _ => a

/-- Carry out a command. The help overlay lets through only what closes it. -/
def perform (a : App) (action : Action) : App :=
  if a.helping then
    match action with
    | .help | .back | .quit => { a with helping := false }
    | _ => a
  else
    match a.view with
    | .overview => a.performOverview action
    | .editor => a.performEditor action

/-- Type into the text area; a change goes on into the draft. -/
def type (a : App) (t : Typing) : App :=
  let a := { a with input := t.apply a.input }
  if t.isChange then a.syncDraft else a

/-- What a key press types into the dialog: nothing with the control key, behind the help overlay
or during a save. -/
def typing? (a : App) (k : KeyPress) : Option Typing :=
  if a.view = .editor && !a.helping && !a.isSaving && !k.control then Typing.ofKey? k.key else none

/-- Take a key press: typing in the dialog, or else a command. -/
def press (a : App) (k : KeyPress) : App :=
  match a.typing? k with
  | some t => a.type t
  | none => a.perform k.action

/-- Let a quarter of a second pass. -/
def tick (a : App) : App :=
  { a with
    ticks := a.ticks + 1
    notificationTicks := a.notificationTicks - 1
    notification := if a.notificationTicks = 1 then none else a.notification }

end App

end PublisherConsole
