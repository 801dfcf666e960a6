import PublisherConsole.Definition.Directory
import PublisherConsole.Storage.Fault
import PublisherConsole.Time.Span

/-!
# The server list of an API

Fetching a definition takes time, and its result may come when nobody waits for it any more. The
list hands out a ticket for every fetch and takes the result of the latest ticket only, and only
while it is mounted.
-/

namespace PublisherConsole.Definition

/-- Why a directory could not be loaded. -/
inductive LoadFault
  | fetch (cause : Storage.Fault)
  | timeout (span : Time.Span)
  | definition (cause : Fault)
  deriving Repr

/-- The wording of a failed load. -/
def LoadFault.message : LoadFault → String
  | .fetch cause => "Failed to fetch definition: " ++ cause.message
  | .timeout span => "Timed out after " ++ span.text ++ " fetching definition"
  | .definition cause => cause.message

/-- The directory in the text of a fetched definition. -/
def Directory.ofFetched : Except Storage.Fault String → Except LoadFault Directory
  | .error e => .error (.fetch e)
  | .ok text =>
    match Document.ofText text with
    | .error e => .error (.definition e)
    | .ok doc => .ok (.ofDocument doc)

/-- The right to deliver the result of one fetch. -/
structure Ticket where
  apiId : String
  generation : Nat
  deriving DecidableEq, Repr, Inhabited

/-- What the list shows. A failure is kept with its message and shown like an empty list. -/
inductive Listing
  | idle
  | loading
  | loaded (directory : Directory)
  | failed (message : String)
  deriving DecidableEq, Repr, Inhabited

/-- The server list of one API. -/
structure ServerList where
  apiId : String
  generation : Nat
  mounted : Bool
  listing : Listing
  deriving DecidableEq, Repr, Inhabited

namespace ServerList

/-- Start the next fetch. -/
def nextTicket (l : ServerList) : ServerList × Ticket :=
  let generation := l.generation + 1
  ({ l with generation, listing := .loading }, ⟨l.apiId, generation⟩)

/-- A mounted list with its first fetch. -/
def mount (apiId : String) : ServerList × Ticket :=
  nextTicket ⟨apiId, 0, true, .idle⟩

/-- Start another fetch, unless the list is unmounted. -/
def refresh? (l : ServerList) : Option (ServerList × Ticket) :=
  if l.mounted then some l.nextTicket else none

/-- Take the list off the screen; no outstanding ticket is good any more. -/
def unmount (l : ServerList) : ServerList :=
  { l with mounted := false, generation := l.generation + 1 }

/-- Whether the result of a ticket is still wanted. -/
def accepts (l : ServerList) (t : Ticket) : Bool :=
  l.mounted && t.generation = l.generation && t.apiId = l.apiId

/-- What a result makes the list show. -/
def Listing.ofResult : Except LoadFault Directory → Listing
  | .ok directory => .loaded directory
  | .error e => .failed e.message

/-- Deliver a result, which an outdated ticket leaves without effect. -/
def apply (l : ServerList) (t : Ticket) (result : Except LoadFault Directory) : ServerList :=
  if l.accepts t then { l with listing := Listing.ofResult result } else l

/-- Whether a fetch is under way. -/
def isLoading (l : ServerList) : Bool := l.listing = .loading

/-- The directory to draw, unless there is none or it has no servers. -/
def visible? (l : ServerList) : Option Directory :=
  match l.listing with
  | .loaded directory => if directory.isEmpty then none else some directory
  | _ => none

end ServerList

end PublisherConsole.Definition
