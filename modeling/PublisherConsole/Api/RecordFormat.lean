import PublisherConsole.Api.Record
import PublisherConsole.Json.Print
import PublisherConsole.Json.Shape
import PublisherConsole.Time.Timestamp

/-!
# API records as JSON

A record is written as an object with all its fields. When it is read, the texts, the kind and the
life cycle may be missing.
-/

namespace PublisherConsole

open Json

/-- The written name of a kind. -/
def ApiKind.code : ApiKind → String
  | .api => "API"
  | .product => "API_PRODUCT"

/-- The kind with the given written name. -/
def ApiKind.ofCode (s : String) : Except Fault ApiKind :=
  if s = "API" then .ok .api
  else if s = "API_PRODUCT" then .ok .product
  else .error (.unknownVariant s "`API` or `API_PRODUCT`")

/-- A kind: its written name, or an object with that name as its only key and no value. -/
def ApiKind.read : Reader ApiKind := onValue fun x c =>
  let code := readTextAs "variant identifier" ApiKind.ofCode
  if x = '\x7b' then do
    let (kind, c) ← code c.next
    let c ← readColon c
    let ((), c) ← readNull c
    let c := c.skipBlanks
    match c.peek? with
    | some '\x7d' => .ok (kind, c.next)
    | some _ => c.fail .expectedValue
    | none => c.fail .endOfObject
  else if x = '"' then code c
  else c.failNext .expectedValue

/-- A timestamp in a string. -/
def Time.Instant.read : Reader Time.Instant :=
  readTextAs "an RFC 3339 formatted date and time string" fun s =>
    match Time.Instant.ofText s with
    | .ok t => .ok t
    | .error e => .error (.rejected e.message)

namespace Record

/-- The fields of a record that have been read. -/
structure Fields where
  id : Option String
  name : Option String
  description : Option (Option String)
  overview : Option (Option String)
  kind : Option ApiKind
  lifecycle : Option String
  updatedAt : Option Time.Instant

/-- The fields in their declared order. -/
def fields : List (Json.Field Fields) :=
  [ { name := "id", given := (·.id.isSome), optional := false
      read := fun f c => do
        let (v, c) ← readText c
        .ok ({ f with id := some v }, c) }
  , { name := "name", given := (·.name.isSome), optional := false
      read := fun f c => do
        let (v, c) ← readText c
        .ok ({ f with name := some v }, c) }
  , { name := "description", given := (·.description.isSome), optional := true
      read := fun f c => do
        let (v, c) ← readOptional readText c
        .ok ({ f with description := some v }, c) }
  , { name := "overview", given := (·.overview.isSome), optional := true
      read := fun f c => do
        let (v, c) ← readOptional readText c
        .ok ({ f with overview := some v }, c) }
  , { name := "api_type", given := (·.kind.isSome), optional := true
      read := fun f c => do
        let (v, c) ← ApiKind.read c
        .ok ({ f with kind := some v }, c) }
  , { name := "lifecycle_status", given := (·.lifecycle.isSome), optional := true
      read := fun f c => do
        let (v, c) ← readText c
        .ok ({ f with lifecycle := some v }, c) }
  , { name := "updated_at", given := (·.updatedAt.isSome), optional := false
      read := fun f c => do
        let (v, c) ← Time.Instant.read c
        .ok ({ f with updatedAt := some v }, c) } ]

/-- A record with its missing fields filled in; the identifier, the name and the time have to be
there. -/
def Fields.complete (f : Fields) : Except String Record :=
  match f.id, f.name, f.updatedAt with
  | none, _, _ => .error "id"
  | _, none, _ => .error "name"
  | _, _, none => .error "updated_at"
  | some id, some name, some updatedAt =>
    .ok
      { id, name, updatedAt
        description := f.description.getD none
        overview := f.overview.getD none
        kind := f.kind.getD .api
        lifecycle := f.lifecycle.getD initialLifecycle }

/-- How a record is read. -/
def shape : Shape Fields Record :=
  { label := "struct ApiRecord"
    listLabel := "struct ApiRecord with 7 elements"
    fields := fields
    blank := ⟨none, none, none, none, none, none, none⟩
    complete := Fields.complete }

/-- Read the text of a record. -/
def ofText (text : String) : Except Json.Error Record := readWhole shape.read text

/-- A record as a value, with its fields in their declared order. -/
def toValue (r : Record) : Value :=
  .object
    [ ("id", .text r.id), ("name", .text r.name)
    , ("description", .optionalText r.description), ("overview", .optionalText r.overview)
    , ("api_type", .text r.kind.code), ("lifecycle_status", .text r.lifecycle)
    , ("updated_at", .text r.updatedAt.text) ]

/-- The text of a record. -/
def toText (r : Record) : String := r.toValue.toText

end Record

end PublisherConsole
