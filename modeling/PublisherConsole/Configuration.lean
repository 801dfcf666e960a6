import PublisherConsole.Api.Access
import PublisherConsole.Json.Print
import PublisherConsole.Json.Shape
import PublisherConsole.Storage.SystemFault
import PublisherConsole.Time.Span

/-!
# Configuration

The configuration names the user, the publisher that remote definitions come from, and how long a
fetch may take. Every part may be missing from its text.
-/

namespace PublisherConsole

open Json

/-- What the console is set up with. -/
structure Configuration where
  user : User
  publisherUrl : Option String
  accessToken : Option String
  fetchTimeoutSeconds : Nat
  deriving DecidableEq, Repr, Inhabited

/-- The fields of a user that have been read. -/
structure User.Fields where
  name : Option String
  scopes : Option (List String)

/-- How a user is read. -/
def User.shape : Shape User.Fields User :=
  { label := "struct UserProfile"
    listLabel := "struct UserProfile with 2 elements"
    fields :=
      [ { name := "username", given := (·.name.isSome), optional := true
          read := fun f c => do
            let (v, c) ← readText c
            .ok ({ f with name := some v }, c) }
      , { name := "scopes", given := (·.scopes.isSome), optional := true
          read := fun f c => do
            let (v, c) ← readList readText c
            .ok ({ f with scopes := some v }, c) } ]
    blank := ⟨none, none⟩
    complete := fun f => .ok ⟨f.name.getD User.default.name, f.scopes.getD User.default.scopes⟩ }

namespace Configuration

/-- The configuration of a console without a configuration file. -/
def default : Configuration := ⟨User.default, none, none, 30⟩

/-- The fields that have been read. -/
structure Fields where
  user : Option User
  publisherUrl : Option (Option String)
  accessToken : Option (Option String)
  fetchTimeoutSeconds : Option Nat

/-- How a configuration is read. -/
def shape : Shape Fields Configuration :=
  { label := "struct Config"
    listLabel := "struct Config with 4 elements"
    fields :=
      [ { name := "user", given := (·.user.isSome), optional := true
          read := fun f c => do
            let (v, c) ← User.shape.read c
            .ok ({ f with user := some v }, c) }
      , { name := "publisher_url", given := (·.publisherUrl.isSome), optional := true
          read := fun f c => do
            let (v, c) ← readOptional readText c
            .ok ({ f with publisherUrl := some v }, c) }
      , { name := "access_token", given := (·.accessToken.isSome), optional := true
          read := fun f c => do
            let (v, c) ← readOptional readText c
            .ok ({ f with accessToken := some v }, c) }
      , { name := "fetch_timeout_seconds", given := (·.fetchTimeoutSeconds.isSome)
          optional := true
          read := fun f c => do
            let (v, c) ← readNat64 c
            .ok ({ f with fetchTimeoutSeconds := some v }, c) } ]
    blank := ⟨none, none, none, none⟩
    complete := fun f => .ok
      { user := f.user.getD User.default
        publisherUrl := f.publisherUrl.getD none
        accessToken := f.accessToken.getD none
        fetchTimeoutSeconds := f.fetchTimeoutSeconds.getD default.fetchTimeoutSeconds } }

/-- Read the text of a configuration. -/
def ofText (text : String) : Except Json.Error Configuration := readWhole shape.read text

/-- A configuration as a value. -/
def toValue (c : Configuration) : Value :=
  .object
    [ ("user", .object
        [ ("username", .text c.user.name), ("scopes", .list (c.user.scopes.map .text)) ])
    , ("publisher_url", .optionalText c.publisherUrl)
    , ("access_token", .optionalText c.accessToken)
    , ("fetch_timeout_seconds", .natural c.fetchTimeoutSeconds) ]

/-- The text of a configuration. -/
def toText (c : Configuration) : String := c.toValue.toText

/-- The token for the publisher: the one from the environment unless it is empty or missing. -/
def tokenWith (c : Configuration) (environment : Option String) : Option String :=
  match environment with
  | some t => if t = "" then c.accessToken else some t
  | none => c.accessToken

/-- How long a fetch may take. -/
def fetchTimeout (c : Configuration) : Time.Span := .seconds c.fetchTimeoutSeconds

/-- Why a configuration could not be read. -/
inductive Fault
  | system (cause : Storage.SystemFault)
  | json (cause : Json.Error)
  deriving Repr

/-- The wording of a fault. -/
def Fault.message : Fault → String
  | .system cause => "I/O error: " ++ cause.message
  | .json cause => "Parse error: " ++ cause.message

end Configuration

end PublisherConsole
