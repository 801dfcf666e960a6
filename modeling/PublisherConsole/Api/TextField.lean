/-!
# The editable texts of an API

An API has a short description and a long overview. Both are edited in the same way.
-/

namespace PublisherConsole

/-- One of the two texts of an API. -/
inductive TextField
  | description
  | overview
  deriving DecidableEq, Repr, Inhabited

namespace TextField

/-- The heading of a text. -/
def label : TextField → String
  | .description => "Description"
  | .overview => "Overview"

/-- The name of a text inside a sentence. -/
def name : TextField → String
  | .description => "description"
  | .overview => "overview"

/-- The other text. -/
def other : TextField → TextField
  | .description => .overview
  | .overview => .description

/-- A name that belongs to no text, with its capitals lowered. -/
structure UnknownName where
  name : String
  deriving DecidableEq, Repr

/-- The wording for an unknown name. -/
def UnknownName.message (e : UnknownName) : String :=
  "unknown description type '" ++ e.name ++ "' (expected 'description' or 'overview')"

/-- The text with the given name; the case of its letters does not matter. -/
def ofName (s : String) : Except UnknownName TextField :=
  let s := s.map Char.toLower
  if s = "description" then .ok .description
  else if s = "overview" then .ok .overview
  else .error ⟨s⟩

end TextField

end PublisherConsole
