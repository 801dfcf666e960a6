import PublisherConsole.Definition.ServerList
import PublisherConsole.Editing.Session

/-!
# A scripted backend

For rehearsals the console runs against a backend in memory. The backend keeps records and
definitions, takes a scripted time over every update and fetch, lets the scripted ones fail, and
logs each call when it starts.
-/

namespace PublisherConsole.Simulation

/-- A call of the console to change a text. -/
structure UpdateCall where
  id : String
  field : TextField
  content : String
  deriving DecidableEq, Repr, Inhabited

/-- What the backend holds and how it will behave. -/
structure Backend where
  records : List (String × Record)
  definitions : List (String × String)
  /-- Outcomes of the updates to come: a fault, or none for success. -/
  updateFaults : List (Option Storage.Fault)
  /-- Outcomes of the fetches to come. -/
  fetchFaults : List (Option Storage.Fault)
  /-- Milliseconds that each update takes. -/
  updateDelay : Nat
  /-- Milliseconds that each fetch to come takes; none never answers. -/
  fetchDelays : List (Option Nat)
  updateLog : List UpdateCall
  fetchLog : List String
  deriving Inhabited

namespace Backend

/-- Keep a record under its identifier. -/
def put (records : List (String × Record)) (r : Record) : List (String × Record) :=
  records.filter (·.1 ≠ r.id) ++ [(r.id, r)]

/-- The record of an API. -/
def load (b : Backend) (id : String) : Except Storage.Fault Record :=
  match b.records.lookup id with
  | some r => .ok r
  | none => .error (.apiNotFound id)

/-- Log an update when it starts. -/
def startUpdate (b : Backend) (call : UpdateCall) : Backend :=
  { b with updateLog := b.updateLog ++ [call] }

/-- Carry out an update when its time has passed. -/
def finishUpdate (b : Backend) (call : UpdateCall) (now : Time.Instant) :
    Except Storage.Fault Record × Backend :=
  let rest := { b with updateFaults := b.updateFaults.tail }
  match b.updateFaults.head? with
  | some (some fault) => (.error fault, rest)
  | _ =>
    match b.load call.id with
    | .error e => (.error e, rest)
    | .ok r =>
      let r := r.setContent call.field call.content now
      (.ok r, { rest with records := b.records.map fun (id, old) =>
        if id = call.id then (id, r) else (id, old) })

/-- An update from start to end. -/
def update (b : Backend) (call : UpdateCall) (now : Time.Instant) :
    Except Storage.Fault Record × Backend :=
  (b.startUpdate call).finishUpdate call now

/-- Log a fetch when it starts, and take the time it will need. -/
def startFetch (b : Backend) (id : String) : Option Nat × Backend :=
  (b.fetchDelays.head?.getD (some 0),
    { b with fetchLog := b.fetchLog ++ [id], fetchDelays := b.fetchDelays.tail })

/-- Answer a fetch when its time has passed. -/
def finishFetch (b : Backend) (id : String) : Except Storage.Fault String × Backend :=
  let rest := { b with fetchFaults := b.fetchFaults.tail }
  match b.fetchFaults.head? with
  | some (some fault) => (.error fault, rest)
  | _ =>
    match b.definitions.lookup id with
    | some text => (.ok text, rest)
    | none => (.error (.definitionNotFound id), rest)

/-- Whether a fetch that takes `delay` ends before the time limit does. -/
def isInTime (delay : Option Nat) (limit : Nat) : Bool :=
  match delay with
  | some d => d ≤ limit
  | none => false

/-- A fetch from start to end, given up after `limit` milliseconds. -/
def fetchDirectory (b : Backend) (id : String) (limit : Nat) :
    Except Definition.LoadFault Definition.Directory × Backend :=
  let (delay, b) := b.startFetch id
  if isInTime delay limit then
    let (outcome, b) := b.finishFetch id
    (Definition.Directory.ofFetched outcome, b)
  else (.error (.timeout (.milliseconds limit)), b)

end Backend

end PublisherConsole.Simulation
