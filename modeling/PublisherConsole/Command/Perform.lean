import PublisherConsole.Command.Invocation
import PublisherConsole.Command.Report
import PublisherConsole.Command.Work

/-!
# Performing commands

`Command.perform` says for every command that does not fill the screen what it does to the files and
what it prints. The command that does is only prepared here, by `launch`: whoever has a screen goes
on from there.
-/

namespace PublisherConsole.Command

open Storage

/-- Set up the working directory. A configuration that is there is kept. -/
def setUp : Work String := do
  Work.attempt .preparation store.prepare
  let first ←
    if (← ExceptT.lift (Script.exists? configurationPath)) then
      pure "Config already exists at .apidesk/config.json"
    else do
      Work.attempt .configurationWrite (Configuration.default.save configurationPath)
      pure "Created .apidesk/config.json"
  return printLines
    [ first, "", "Initialization complete!"
    , "Register an API with `apidesk add --name <name>`" ]

/-- The record of a registration. -/
def newRecord (r : Registration) (s : Surroundings) (overview : Option String) : Record :=
  { Record.fresh (r.id.getD s.freshId) r.name s.stamp.now with
    description := r.description
    overview := overview
    kind := if r.isProduct then .product else .api }

/-- The definition in a file, which has to be readable. -/
def readDefinition (name : String) : Work String := do
  let text ← readFile name
  let _ ← Work.check (.definition name) (Definition.Document.ofText text)
  return text

/-- Register an API. Its files are read first. -/
def register (r : Registration) (s : Surroundings) : Work String := do
  let store ← openStore
  let record := newRecord r s (← readFile? r.overviewFile)
  let definition ←
    match r.definitionFile with
    | none => pure none
    | some name => some <$> readDefinition name
  Work.attempt .storage (store.create record s.stamp.tag)
  match definition with
  | none => pure ()
  | some text => Work.attempt .storage (store.importDefinition record.id text s.stamp.tag)
  return printLines ["Added " ++ record.name ++ " (" ++ record.id ++ ")"]

/-- List all APIs. -/
def listAll (json : Bool) : Work String := do
  let store ← openStore
  let records ← Work.attempt .storage store.list
  return if json then (Json.Value.list (records.map Record.toValue)).print
    else Record.listText records

/-- Present an API. -/
def presentOne (id : String) (json : Bool) : Work String := do
  let store ← openStore
  let configuration ← loadConfiguration
  let record ← Work.attempt .storage (store.read id)
  return if json then record.presentationJson configuration.user
    else record.presentation configuration.user

/-- The source that a command asks for. -/
def source (remote : Bool) (c : Configuration) (s : Surroundings) : Work Source :=
  if remote then publisher c s else Source.files <$> openStore

/-- List the servers of an API. -/
def listServers (id : String) (json remote : Bool) (s : Surroundings)
    (network : Definition.Network) : Work String := do
  let configuration ← loadConfiguration
  let source ← source remote configuration s
  let directory ← Work.attempt .load (source.fetchDirectory network id)
  return if json then directory.listJson else directory.listText

/-- Replace a text of an API by the content of a file, through an edit session. -/
def replaceText (id : String) (field : TextField) (file : String) (s : Surroundings) :
    Work String := do
  let store ← openStore
  let configuration ← loadConfiguration
  let content ← readFile file
  let record ← Work.attempt .storage (store.read id)
  let session ← Work.check .refusal
    ((Session.new field).open? record (.toEdit configuration.user record))
  let session ← Work.check .refusal (session.update? content)
  let (outcome, _) ← ExceptT.lift (session.save fun field content =>
    store.update id field content s.stamp)
  let updated ← Work.check .save outcome
  return printLines ["Updated " ++ field.name ++ " of " ++ updated.name]

/-- A console that is ready to fill the screen. -/
structure Launch where
  record : Record
  user : User
  store : FileStore
  source : Source
  deriving Repr

/-- The first API in the order of the list. -/
def firstRecord (store : FileStore) : Script (Except Storage.Fault Record) := do
  match (← store.list) with
  | .error e => pure (.error e)
  | .ok [] => pure (.error (.apiNotFound "(none registered)"))
  | .ok (record :: _) => pure (.ok record)

/-- Prepare a console for an API, or for the first one. -/
def launch (id : Option String) (remote : Bool) (s : Surroundings) : Work Launch := do
  let store ← openStore
  let configuration ← loadConfiguration
  let record ← Work.attempt .storage
    (match id with
    | some id => store.read id
    | none => firstRecord store)
  let source ← if remote then publisher configuration s else pure (.files store)
  return ⟨record, configuration.user, store, source⟩

/-- Start the log file of a console that fills the screen, if the working directory is set up. The
answer is a warning. -/
def startLog : Script (Option String) := do
  if (← Script.isDirectory home) then
    match (← Script.touch logPath) with
    | .ok () => pure none
    | .error e => pure (some ("Warning: Cannot open log file: " ++ e.message ++ "\n"))
  else pure none

/-- What a run of the program leaves behind. -/
structure Outcome where
  code : Nat
  output : String
  errors : String
  deriving DecidableEq, Repr, Inhabited

namespace Outcome

/-- The end of a run that printed something. -/
def success (output : String) : Outcome := ⟨0, output, ""⟩

/-- The end of a run with a message. -/
def failure (message : String) : Outcome := ⟨1, "", "Error: " ++ message ++ "\n"⟩

/-- The end of a run whose command line was not understood. -/
def usage (fault : UsageFault) : Outcome := ⟨2, "", "error: " ++ fault.message ++ "\n"⟩

/-- The outcome of work. -/
def ofResult : Except Fault String → Outcome
  | .ok output => success output
  | .error fault => failure fault.message

end Outcome

/-- The name and version of the program. -/
def versionText : String := printLines ["apidesk 0.1.0"]

/-- The usage of the program. -/
def helpText : String :=
  printLines
    [ "Publisher console for API descriptions, overviews and AsyncAPI servers", ""
    , "Usage: apidesk [COMMAND]", "", "Commands:"
    , "  tui      Open the TUI (default when no command specified)"
    , "  init     Initialize .apidesk/ directory and config"
    , "  add      Register an API in the local store"
    , "  list     List registered APIs"
    , "  show     Print an API record and whether the configured user may edit it"
    , "  servers  Print the protocol servers of an API"
    , "  edit     Replace the description or overview of an API"
    , "  help     Print this message or the help of the given subcommand(s)", ""
    , "Options:", "  -h, --help     Print help", "  -V, --version  Print version" ]

/-- The outcome of a command line without a command. -/
def Halt.outcome : Halt → Outcome
  | .help => .success helpText
  | .version => .success versionText
  | .fault cause => .usage cause

/-- What a run of the program comes to: it has ended, or a console is ready for the screen; a
warning may come before it. -/
inductive Run
  | ended (outcome : Outcome)
  | ready (warning : Option String) (launch : Launch)

/-- Perform a command. -/
def perform (c : Command) (s : Surroundings) (network : Definition.Network) : Script Run :=
  let finish (work : Work String) : Script Run := do
    return .ended (.ofResult (← work.run))
  match c with
  | .console id remote => do
    let warning ← startLog
    match (← (launch id remote s).run) with
    | .ok launch => pure (.ready warning launch)
    | .error fault =>
      let outcome := Outcome.failure fault.message
      pure (.ended { outcome with errors := warning.getD "" ++ outcome.errors })
  | .init => finish setUp
  | .add registration => finish (register registration s)
  | .list json => finish (listAll json)
  | .present id json => finish (presentOne id json)
  | .servers id json remote => finish (listServers id json remote s network)
  | .edit id field file => finish (replaceText id field file s)

/-- Run the program on the words of a command line. -/
def runWords (words : List String) (s : Surroundings) (network : Definition.Network) :
    Script Run :=
  match ofWords words with
  | .error halt => .done (.ended halt.outcome)
  | .ok command => command.perform s network

end PublisherConsole.Command
