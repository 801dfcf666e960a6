import PublisherConsole.Api.RecordFormat
import PublisherConsole.Storage.Fault
import PublisherConsole.Storage.Script

/-!
# Records and definitions in files

A store keeps every API in a directory of its own, named by the API's identifier: the record in
`api.json` and the definition, if there is one, in `asyncapi.json`. Both files are replaced as a
whole. An identifier has to be a safe file name.
-/

namespace PublisherConsole.Storage

/-- A store below a base directory. -/
structure FileStore where
  base : Path
  deriving DecidableEq, Repr

/-- Whether an identifier can name a directory. -/
def isValidId (id : String) : Bool :=
  id ≠ "" && id.utf8ByteSize ≤ 128
    && id.toList.all (fun c => c.isAlphanum || c = '-' || c = '_' || c = '.')
    && id.toList.head? ≠ some '.'

/-- The name of the file with the record. -/
def recordFile : String := "api.json"

/-- The name of the file with the definition. -/
def definitionFile : String := "asyncapi.json"

/-- What a stamped write needs: the present time, and a tag that makes its temporary file
unique. -/
structure Stamp where
  now : Time.Instant
  tag : String
  deriving DecidableEq, Repr, Inhabited

namespace FileStore

/-- The directory of all APIs. -/
def apis (s : FileStore) : Path := s.base ++ ["apis"]

/-- The directory of an API. -/
def directory (s : FileStore) (id : String) : Path := s.apis.below id

/-- The file with the record of an API. -/
def recordPath (s : FileStore) (id : String) : Path := s.directory id ++ [recordFile]

/-- The file with the definition of an API. -/
def definitionPath (s : FileStore) (id : String) : Path := s.directory id ++ [definitionFile]

/-- Make the directories of the store. -/
def prepare (s : FileStore) : Script (Except Fault Unit) := do
  match (← makeDirectories s.apis) with
  | .ok () => pure (.ok ())
  | .error e => pure (.error (.system e))

/-- Read a record file. -/
def readRecordFile (p : Path) : Script (Except Fault Record) := do
  match (← Script.readText p) with
  | .error e => pure (.error (.system e))
  | .ok text =>
    match Record.ofText text with
    | .ok r => pure (.ok r)
    | .error e => pure (.error (.json e))

/-- The record of an API. -/
def read (s : FileStore) (id : String) : Script (Except Fault Record) :=
  if isValidId id then do
    if (← Script.exists? (s.recordPath id)) then
      readRecordFile (s.recordPath id)
    else pure (.error (.apiNotFound id))
  else .done (.error (.invalidId id))

/-- Write a record into the directory that its own identifier names. -/
def writeRecord (s : FileStore) (r : Record) (tag : String) : Script (Except Fault Unit) := do
  match (← makeDirectories (s.directory r.id)) with
  | .error e => pure (.error (.system e))
  | .ok () =>
    match (← replaceFile (s.recordPath r.id) tag r.toText.toUTF8) with
    | .error e => pure (.error (.system e))
    | .ok () => pure (.ok ())

/-- Register an API whose identifier is free. -/
def create (s : FileStore) (r : Record) (tag : String) : Script (Except Fault Unit) :=
  if isValidId r.id then do
    if (← Script.exists? (s.recordPath r.id)) then
      pure (.error (.alreadyExists r.id))
    else s.writeRecord r tag
  else .done (.error (.invalidId r.id))

/-- Keep a definition for a registered API. -/
def importDefinition (s : FileStore) (id text tag : String) : Script (Except Fault Unit) :=
  if isValidId id then do
    if (← Script.exists? (s.recordPath id)) then
      match (← replaceFile (s.definitionPath id) tag text.toUTF8) with
      | .error e => pure (.error (.system e))
      | .ok () => pure (.ok ())
    else pure (.error (.apiNotFound id))
  else .done (.error (.invalidId id))

/-- Replace one text of an API and return its record. -/
def update (s : FileStore) (id : String) (field : TextField) (content : String) (stamp : Stamp) :
    Script (Except Fault Record) := do
  match (← s.read id) with
  | .error e => pure (.error e)
  | .ok r =>
    let r := r.setContent field content stamp.now
    match (← s.writeRecord r stamp.tag) with
    | .error e => pure (.error e)
    | .ok () => pure (.ok r)

/-- The definition of an API. -/
def fetch (s : FileStore) (id : String) : Script (Except Fault String) :=
  if isValidId id then do
    match (← Script.readText (s.definitionPath id)) with
    | .ok text => pure (.ok text)
    | .error .noSuchFile => pure (.error (.definitionNotFound id))
    | .error e => pure (.error (.system e))
  else .done (.error (.invalidId id))

/-- The records in the directories of the given names; those without a record are passed over. -/
def readAll (s : FileStore) : List String → Script (Except Fault (List Record))
  | [] => .done (.ok [])
  | name :: names => do
    let p := s.apis ++ [name, recordFile]
    if (← Script.isFile p) then
      match (← readRecordFile p) with
      | .error e => pure (.error e)
      | .ok r =>
        match (← s.readAll names) with
        | .error e => pure (.error e)
        | .ok rs => pure (.ok (r :: rs))
    else s.readAll names

/-- All records, by name and then by identifier. -/
def list (s : FileStore) : Script (Except Fault (List Record)) := do
  match (← Script.list s.apis) with
  | .error e => pure (.error (.system e))
  | .ok names =>
    match (← s.readAll names) with
    | .error e => pure (.error e)
    | .ok rs => pure (.ok (rs.mergeSort Record.precedes))

end FileStore

end PublisherConsole.Storage
