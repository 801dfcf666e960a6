import PublisherConsole.Api.TextField
import PublisherConsole.Time.Instant

/-!
# API records

A record is what the console knows about an API: its identifier and name, its two texts, its kind
and life cycle, and when a text was last changed. A text that was never written is absent and
reads as empty.
-/

namespace PublisherConsole

/-- A single API, or a product that bundles resources of several. -/
inductive ApiKind
  | api
  | product
  deriving DecidableEq, Repr, Inhabited

/-- The word for a kind. -/
def ApiKind.name : ApiKind → String
  | .api => "Api"
  | .product => "ApiProduct"

/-- What is kept about an API. -/
structure Record where
  id : String
  name : String
  description : Option String
  overview : Option String
  kind : ApiKind
  lifecycle : String
  updatedAt : Time.Instant
  deriving DecidableEq, Repr, Inhabited

namespace Record

/-- The life cycle of a new API. -/
def initialLifecycle : String := "CREATED"

/-- A new API without texts. -/
def fresh (id name : String) (now : Time.Instant) : Record :=
  { id, name, description := none, overview := none, kind := .api, lifecycle := initialLifecycle,
    updatedAt := now }

/-- One of the texts, if it was ever written. -/
def text? (r : Record) : TextField → Option String
  | .description => r.description
  | .overview => r.overview

/-- One of the texts. -/
def content (r : Record) (field : TextField) : String := (r.text? field).getD ""

/-- Replace one of the texts at the given time. -/
def setContent (r : Record) (field : TextField) (content : String) (now : Time.Instant) : Record :=
  match field with
  | .description => { r with description := some content, updatedAt := now }
  | .overview => { r with overview := some content, updatedAt := now }

/-- Whether either text has characters. -/
def hasContent (r : Record) : Bool :=
  r.content .description ≠ "" || r.content .overview ≠ ""

/-- The label of the control that opens the editor. -/
def buttonLabel (r : Record) : String := if r.hasContent then "Edit Content" else "Add Content"

/-- Records are listed by name, and by identifier among equal names. -/
def precedes (a b : Record) : Bool := a.name < b.name || (a.name = b.name && a.id ≤ b.id)

end Record

end PublisherConsole
