import PublisherConsole.Configuration
import PublisherConsole.Definition.Publisher
import PublisherConsole.Definition.ServerList
import PublisherConsole.Editing.Session
import PublisherConsole.Storage.ConfigurationFile
import PublisherConsole.Storage.FileStore

/-!
# Working in a directory

Commands work in the directory where they are called. The records and the configuration are in its
subdirectory `.apidesk`, which only setting up makes. A command that fails says why (`Fault`).
-/

namespace PublisherConsole.Command

/-- The cause of a failed command. A file is named as it was on the command line. -/
inductive Fault
  | notPrepared
  | preparation (cause : Storage.Fault)
  | configurationWrite (cause : Configuration.Fault)
  | configuration (cause : Configuration.Fault)
  | noPublisher
  | file (name : String) (cause : Storage.SystemFault)
  | definition (name : String) (cause : Definition.Fault)
  | storage (cause : Storage.Fault)
  | load (cause : Definition.LoadFault)
  | refusal (cause : Refusal)
  | save (cause : SaveFault)
  deriving Repr

/-- The wording of a cause. -/
def Fault.message : Fault → String
  | .notPrepared => ".apidesk directory not found. Run `apidesk init` first."
  | .preparation cause => "Failed to create .apidesk: " ++ cause.message
  | .configurationWrite cause => "Failed to write config: " ++ cause.message
  | .configuration cause => ".apidesk/config.json: " ++ cause.message
  | .noPublisher => "publisher_url is not set in .apidesk/config.json"
  | .file name cause => name ++ ": " ++ cause.message
  | .definition name cause => name ++ ": " ++ cause.message
  | .storage cause => cause.message
  | .load cause => cause.message
  | .refusal cause => cause.message
  | .save cause => cause.message

open Storage

/-- What a command gets from its surroundings. -/
structure Surroundings where
  /-- The present time, and a tag for temporary files. -/
  stamp : Stamp
  /-- An identifier that no other API has. -/
  freshId : String
  /-- The token that the environment gives for the publisher. -/
  token : Option String
  deriving Repr, Inhabited

/-- A script that may fail with a fault of the command. -/
abbrev Work (α : Type) := ExceptT Fault Script α

namespace Work

/-- Perform a script and pass its fault on. -/
def attempt {ε α : Type} (fault : ε → Fault) (s : Script (Except ε α)) : Work α :=
  ExceptT.mk (do
    match (← s) with
    | .ok a => pure (.ok a)
    | .error e => pure (.error (fault e)))

/-- A result that may be a fault. -/
def check {ε α : Type} (fault : ε → Fault) : Except ε α → Work α
  | .ok a => pure a
  | .error e => throw (fault e)

end Work

/-- The subdirectory of the console. -/
def home : Path := [".apidesk"]

/-- The configuration file. -/
def configurationPath : Path := home ++ ["config.json"]

/-- The file that the console logs to while it fills the screen. -/
def logPath : Path := home ++ ["apidesk.log"]

/-- The store of the working directory. -/
def store : FileStore := ⟨home⟩

/-- Open the store, which has to be set up. -/
def openStore : Work FileStore := do
  if (← ExceptT.lift (Script.exists? home)) then
    Work.attempt .storage store.prepare
    return store
  else throw .notPrepared

/-- The configuration. -/
def loadConfiguration : Work Configuration :=
  Work.attempt .configuration (Configuration.loadOrDefault configurationPath)

/-- The text of a file named on the command line. -/
def readFile (name : String) : Work String :=
  Work.attempt (.file name) (Script.readText (Path.ofText name))

/-- The text of a file that may have been named. -/
def readFile? : Option String → Work (Option String)
  | none => pure none
  | some name => some <$> readFile name

/-- Where definitions come from. -/
inductive Source
  | files (store : FileStore)
  | publisher (publisher : Definition.Publisher)
  deriving Repr

/-- The publisher of the configuration. -/
def publisher (c : Configuration) (s : Surroundings) : Work Source :=
  match c.publisherUrl with
  | none => throw .noPublisher
  | some url => pure (.publisher ⟨url, c.tokenWith s.token⟩)

/-- Fetch a definition. -/
def Source.fetch (network : Definition.Network) (id : String) :
    Source → Script (Except Storage.Fault String)
  | .files store => store.fetch id
  | .publisher p => .done (p.fetch network id)

/-- Fetch the servers of an API. -/
def Source.fetchDirectory (source : Source) (network : Definition.Network) (id : String) :
    Script (Except Definition.LoadFault Definition.Directory) := do
  return Definition.Directory.ofFetched (← source.fetch network id)

end PublisherConsole.Command
