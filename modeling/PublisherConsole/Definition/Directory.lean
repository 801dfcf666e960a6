import PublisherConsole.Definition.Document

/-!
# Server directories

A directory lists the servers of a definition, each name once. A name that is declared again keeps
its first place and takes its last endpoint. Names and endpoints are kept apart: the names in
order, and the endpoints by name.
-/

namespace PublisherConsole.Definition

/-- The servers of a definition by name. -/
structure Directory where
  names : List String
  endpoints : List (String × Endpoint)
  deriving DecidableEq, Repr, Inhabited

namespace Directory

/-- A directory without servers. -/
def empty : Directory := ⟨[], []⟩

/-- The endpoint of a name. -/
def get? (d : Directory) (name : String) : Option Endpoint := d.endpoints.lookup name

/-- Put an endpoint under a name, in the place of the one that was there. -/
def replace (name : String) (endpoint : Endpoint) :
    List (String × Endpoint) → List (String × Endpoint)
  | [] => [(name, endpoint)]
  | (n, e) :: rest =>
    if n = name then (name, endpoint) :: rest else (n, e) :: replace name endpoint rest

/-- Declare a server. -/
def insert (d : Directory) (name : String) (endpoint : Endpoint) : Directory :=
  { names := if (d.get? name).isSome then d.names else d.names ++ [name]
    endpoints := replace name endpoint d.endpoints }

/-- The directory of a definition. -/
def ofDocument (doc : Document) : Directory :=
  doc.servers.foldl (fun d (name, endpoint) => d.insert name endpoint) empty

/-- The number of servers. -/
def size (d : Directory) : Nat := d.names.length

/-- Whether there are no servers. -/
def isEmpty (d : Directory) : Bool := d.names.isEmpty

/-- The servers in order. -/
def toList (d : Directory) : List (String × Endpoint) :=
  d.names.filterMap fun name => (d.get? name).map fun e => (name, e)

end Directory

end PublisherConsole.Definition
