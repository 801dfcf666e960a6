import PublisherConsole.Json.Value

/-!
# Records with named fields

A `Shape` says which fields a record has and how each is read into the fields gathered so far. The
record may be written as an object, with its fields in any order and unknown members passed over,
or as a list that gives the fields in their declared order.
-/

namespace PublisherConsole.Json

/-- One field of a record whose fields so far are gathered in `σ`. -/
structure Field (σ : Type) where
  /-- The key of the field in an object. -/
  name : String
  /-- Whether the field has been read already. -/
  given : σ → Bool
  /-- Whether a list may end before the field. -/
  optional : Bool
  /-- Read the field's value and put it with the others. -/
  read : σ → Reader σ

/-- A record gathered in `σ` and then completed to `α`. -/
structure Shape (σ α : Type) where
  /-- What a message calls the record. -/
  label : String
  /-- What a message calls the record when it is written as a list. -/
  listLabel : String
  fields : List (Field σ)
  /-- Nothing read yet. -/
  blank : σ
  /-- Complete the record, or name the first missing field. -/
  complete : σ → Except String α

namespace Shape

variable {σ α : Type}

/-- The field with the given key. -/
def field? (s : Shape σ α) (key : String) : Option (Field σ) := s.fields.find? (·.name = key)

/-- Where a fault that concerns the whole object is reported when it is found behind a key: behind
the next closing brace, or at the next character. -/
def placeInObject (c : Cursor) : Place :=
  let c := c.skipBlanks
  if c.peek? = some '\x7d' then c.next.place else c.place

/-- The members of an object up to and including its closing brace. -/
def readMembersWithin (s : Shape σ α) : Nat → Bool → σ → Reader σ
  | 0, _, _, c => c.failNext .endOfObject
  | fuel + 1, first, done, c => do
    let (more, c) ← nextKey first c
    if more then
      let (key, c) ← readString c.next
      match s.field? key with
      | none =>
        let c ← readColon c
        let c ← skipValue c
        readMembersWithin s fuel false done c
      | some field =>
        if field.given done then .error ⟨.duplicateField field.name, placeInObject c⟩
        else
          let c ← readColon c
          let (done, c) ← field.read done c
          readMembersWithin s fuel false done c
    else .ok (done, c.next)

/-- The values of a list, one per field; `position` counts the fields read. -/
def readListed (s : Shape σ α) : List (Field σ) → Bool → Nat → σ → Reader σ
  | [], _, _, done, c => .ok (done, c)
  | field :: fields, first, position, done, c => do
    let (more, c) ← nextItem first c
    if more then
      let (done, c) ← field.read done c
      readListed s fields false (position + 1) done c
    else if field.optional then readListed s fields first (position + 1) done c
    else
      let place := match endList c with
        | .ok c => c.place
        | .error _ => c.place
      .error ⟨.wrongLength position s.listLabel, place⟩

/-- Complete a record whose last character has been read. -/
def finish (s : Shape σ α) (done : σ) (c : Cursor) : Except Error (α × Cursor) :=
  match s.complete done with
  | .ok a => .ok (a, c)
  | .error name => c.fail (.missingField name)

/-- A record, written as an object or as a list. -/
def read (s : Shape σ α) : Reader α := onValue fun x c =>
  if x = '\x7b' then do
    let (done, c) ← s.readMembersWithin (c.rest.length + 1) true s.blank c.next
    s.finish done c
  else if x = '[' then do
    let (done, c) ← s.readListed s.fields true 0 s.blank c.next
    let c ← endList c
    s.finish done c
  else failWrongType s.label c

end Shape

end PublisherConsole.Json
