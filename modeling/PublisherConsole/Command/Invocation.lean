import PublisherConsole.Command.Grammar

/-!
# Commands

What the console can be asked to do from the command line, and how it is asked. Without a command
the console opens the first API.
-/

namespace PublisherConsole

/-- What to register. The files are named by their paths. -/
structure Registration where
  /-- The identifier; a new one is made up when there is none. -/
  id : Option String
  name : String
  description : Option String
  overviewFile : Option String
  definitionFile : Option String
  isProduct : Bool
  deriving DecidableEq, Repr, Inhabited

/-- A command. -/
inductive Command
  | console (id : Option String) (remote : Bool)
  | init
  | add (registration : Registration)
  | list (json : Bool)
  | present (id : String) (json : Bool)
  | servers (id : String) (json remote : Bool)
  | edit (id : String) (field : TextField) (file : String)
  deriving DecidableEq, Repr, Inhabited

namespace Command

/-- A flag. -/
def flag (name : String) : OptionRule := { name := name, wanted := none }

/-- How a command is asked for: the words behind its name, and the command that they make unless
something is missing. -/
structure Rule where
  grammar : Grammar
  build : Reading → Option Command

/-- The plain word is the identifier of an API, which may be left out. -/
def consoleRule : Rule :=
  { grammar := ⟨true, [flag "remote"]⟩
    build := fun r => some (.console r.word (r.has "remote")) }

/-- There is nothing to say about setting up. -/
def initRule : Rule := { grammar := ⟨false, []⟩, build := fun _ => some .init }

/-- Of what is to be registered only the name has to be given. -/
def addRule : Rule :=
  { grammar :=
      { takesWord := true
        options :=
          [ ⟨"name", some .text⟩, ⟨"description", some .text⟩, ⟨"overview-file", some .path⟩
          , ⟨"asyncapi", some .path⟩, flag "product" ] }
    build := fun r => do
      let name ← r.value? "name"
      return .add
        { id := r.word
          name := name
          description := r.value? "description"
          overviewFile := r.value? "overview-file"
          definitionFile := r.value? "asyncapi"
          isProduct := r.has "product" } }

/-- A list is plain or JSON. -/
def listRule : Rule :=
  { grammar := ⟨false, [flag "json"]⟩, build := fun r => some (.list (r.has "json")) }

/-- The API to present has to be named. -/
def presentRule : Rule :=
  { grammar := ⟨true, [flag "json"]⟩
    build := fun r => r.word.map fun id => .present id (r.has "json") }

/-- The API whose servers are wanted has to be named. -/
def serversRule : Rule :=
  { grammar := ⟨true, [flag "json", flag "remote"]⟩
    build := fun r => r.word.map fun id => .servers id (r.has "json") (r.has "remote") }

/-- The API to edit, the text and the file all have to be named. -/
def editRule : Rule :=
  { grammar := ⟨true, [⟨"type", some .field⟩, ⟨"from-file", some .path⟩]⟩
    build := fun r => do
      let id ← r.word
      let field ← r.value? "type"
      let file ← r.value? "from-file"
      let field ← (TextField.ofName field).toOption
      return .edit id field file }

/-- The commands by their names. -/
def rules : List (String × Rule) :=
  [ ("tui", consoleRule), ("init", initRule), ("add", addRule), ("list", listRule)
  , ("show", presentRule), ("servers", serversRule), ("edit", editRule) ]

/-- Read the words behind the name of a command. -/
def Rule.read (rule : Rule) (words : List String) : Except Halt Command := do
  let r ← rule.grammar.read words
  match rule.build r with
  | some command => .ok command
  | none => .error (.fault .incomplete)

/-- Whether a word names a command. -/
def isName (word : String) : Bool := word = "help" || (rules.lookup word).isSome

/-- What asking for help on the given words comes to. -/
def help (words : List String) : Halt :=
  match words with
  | [] | ["help"] => .help
  | "help" :: word :: _ => .fault (.unknownCommand word)
  | name :: rest =>
    match rules.lookup name, rest with
    | none, _ => .fault (.unknownCommand name)
    | some _, [] => .help
    | some _, word :: _ => .fault (.unknownCommand word)

/-- An option in front of any command. -/
def haltOfOption (name : String) (value : Option String) : Halt :=
  match value with
  | none =>
    if name = "help" then .help
    else if name = "version" then .version
    else .fault (.unexpected ("--" ++ name))
  | some value =>
    if name = "help" || name = "version" then .fault (.needlessValue (flag name) value)
    else .fault (.unexpected ("--" ++ name))

/-- Read a command line. -/
def ofWords (words : List String) : Except Halt Command :=
  match words with
  | [] => .ok (.console none false)
  | word :: rest =>
    match rules.lookup word with
    | some rule => rule.read rest
    | none =>
      if word = "help" then .error (help rest)
      else
        match word.toList with
        | ['-', '-'] =>
          match rest with
          | [] => .ok (.console none false)
          | word :: _ =>
            .error (.fault (if isName word then .unexpected word else .unknownCommand word))
        | '-' :: '-' :: cs =>
          let (name, value) := splitEquals cs
          .error (haltOfOption (String.ofList name) (value.map String.ofList))
        | '-' :: c :: _ =>
          .error (if c = 'h' then .help else if c = 'V' then .version
            else .fault (.unexpected (String.ofList ['-', c])))
        | _ => .error (.fault (.unknownCommand word))

end Command

end PublisherConsole
