import PublisherConsole.Api.Record

/-!
# Who may edit what

A user holds scopes. An action names the scopes of which one is enough, except that products are
managed by publishers only, whatever the action asks for.
-/

namespace PublisherConsole

/-- The scope for reading APIs. -/
def scopeView : String := "apim:api_view"

/-- The scope for creating and editing APIs. -/
def scopeCreate : String := "apim:api_create"

/-- The scope for publishing APIs and managing products. -/
def scopePublish : String := "apim:api_publish"

/-- Someone who uses the console. -/
structure User where
  name : String
  scopes : List String
  deriving DecidableEq, Repr, Inhabited

/-- Whether the user holds a scope. -/
def User.hasScope (u : User) (scope : String) : Bool := u.scopes.contains scope

/-- The user of a console that names none. -/
def User.default : User := ⟨"admin", [scopeView, scopeCreate, scopePublish]⟩

/-- Whether an action is open to a user. -/
inductive Access
  | allowed
  | restricted
  deriving DecidableEq, Repr, Inhabited

/-- The word for an access. -/
def Access.name : Access → String
  | .allowed => "Allowed"
  | .restricted => "Restricted"

/-- Whether a user may not do what needs one of `required` on an API of the given kind. -/
def isRestricted (required : List String) (user : User) : Option ApiKind → Bool
  | some .product => !user.hasScope scopePublish
  | _ => !required.any user.hasScope

/-- The access of a user to an action. -/
def Access.check (required : List String) (user : User) (kind : Option ApiKind) : Access :=
  if isRestricted required user kind then .restricted else .allowed

/-- The access of a user to the texts of a record. -/
def Access.toEdit (user : User) (r : Record) : Access := .check [scopeCreate] user (some r.kind)

end PublisherConsole
