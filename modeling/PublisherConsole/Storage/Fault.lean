import PublisherConsole.Json.Fault
import PublisherConsole.Storage.SystemFault

/-!
# Faults of storage

Why a record or a definition could not be read or written.
-/

namespace PublisherConsole.Storage

/-- The cause of a failed storage operation. -/
inductive Fault
  | apiNotFound (id : String)
  | definitionNotFound (id : String)
  | alreadyExists (id : String)
  | invalidId (id : String)
  | system (cause : SystemFault)
  | json (cause : Json.Error)
  | http (status : Nat) (text : String)
  | request (text : String)
  deriving Repr

/-- The wording of a fault. -/
def Fault.message : Fault → String
  | .apiNotFound id => "API not found: " ++ id
  | .definitionNotFound id => "No AsyncAPI definition for API: " ++ id
  | .alreadyExists id => "API already exists: " ++ id
  | .invalidId id => "Invalid API ID: " ++ id
  | .system cause => "IO error: " ++ cause.message
  | .json cause => "JSON error: " ++ cause.message
  | .http status text => "HTTP " ++ toString status ++ ": " ++ text
  | .request text => "Request failed: " ++ text

end PublisherConsole.Storage
