import PublisherConsole.Json.Shape

/-!
# AsyncAPI documents

Of a definition only the version, the title and the servers are read. Servers keep their declared
order, and a name may be declared more than once. The first part of the version decides which
fields a server needs: a `url` in version 2, a `host` in version 3.
-/

namespace PublisherConsole.Definition

open Json

/-- A server with its protocol and address. -/
structure Endpoint where
  protocol : String
  url : String
  protocolVersion : Option String
  description : Option String
  deriving DecidableEq, Repr, Inhabited

/-- A server as it is declared, with the fields of both versions. -/
structure Declared where
  url : Option String
  host : Option String
  pathname : Option String
  protocol : Option String
  protocolVersion : Option String
  description : Option String
  deriving DecidableEq, Repr, Inhabited

/-- A definition as it is declared. -/
structure Source where
  version : String
  title : Option String
  servers : List (String × Declared)
  deriving DecidableEq, Repr, Inhabited

/-- A definition whose servers are all complete. -/
structure Document where
  version : String
  title : Option String
  servers : List (String × Endpoint)
  deriving DecidableEq, Repr, Inhabited

/-- Why a text is no usable definition. -/
inductive Fault
  | json (cause : Json.Error)
  | unsupportedVersion (version : String)
  | missingField (server field : String)
  deriving Repr

/-- The wording of a fault. -/
def Fault.message : Fault → String
  | .json cause => "Invalid AsyncAPI document: " ++ cause.message
  | .unsupportedVersion version => "Unsupported AsyncAPI version: " ++ version
  | .missingField server field =>
    "Server '" ++ server ++ "' is missing required field '" ++ field ++ "'"

/-! ## Reading -/

/-- The fields of a server that have been read. -/
structure Declared.Fields where
  url : Option (Option String)
  host : Option (Option String)
  pathname : Option (Option String)
  protocol : Option (Option String)
  protocolVersion : Option (Option String)
  description : Option (Option String)

/-- How a server is read; all its fields may be missing. -/
def Declared.shape : Shape Declared.Fields Declared :=
  { label := "struct RawServer"
    listLabel := "struct RawServer with 6 elements"
    fields :=
      [ { name := "url", given := (·.url.isSome), optional := true
          read := fun f c => do
            let (v, c) ← readOptional readText c
            .ok ({ f with url := some v }, c) }
      , { name := "host", given := (·.host.isSome), optional := true
          read := fun f c => do
            let (v, c) ← readOptional readText c
            .ok ({ f with host := some v }, c) }
      , { name := "pathname", given := (·.pathname.isSome), optional := true
          read := fun f c => do
            let (v, c) ← readOptional readText c
            .ok ({ f with pathname := some v }, c) }
      , { name := "protocol", given := (·.protocol.isSome), optional := true
          read := fun f c => do
            let (v, c) ← readOptional readText c
            .ok ({ f with protocol := some v }, c) }
      , { name := "protocolVersion", given := (·.protocolVersion.isSome), optional := true
          read := fun f c => do
            let (v, c) ← readOptional readText c
            .ok ({ f with protocolVersion := some v }, c) }
      , { name := "description", given := (·.description.isSome), optional := true
          read := fun f c => do
            let (v, c) ← readOptional readText c
            .ok ({ f with description := some v }, c) } ]
    blank := ⟨none, none, none, none, none, none⟩
    complete := fun f => .ok
      { url := f.url.getD none
        host := f.host.getD none
        pathname := f.pathname.getD none
        protocol := f.protocol.getD none
        protocolVersion := f.protocolVersion.getD none
        description := f.description.getD none } }

/-- How the title is read out of the information object. -/
def infoShape : Shape (Option (Option String)) (Option String) :=
  { label := "struct RawInfo"
    listLabel := "struct RawInfo with 1 element"
    fields :=
      [ { name := "title", given := (·.isSome), optional := true
          read := fun _ c => do
            let (v, c) ← readOptional readText c
            .ok (some v, c) } ]
    blank := none
    complete := fun f => .ok (f.getD none) }

/-- The fields of a definition that have been read. -/
structure Source.Fields where
  version : Option String
  info : Option (Option (Option String))
  servers : Option (List (String × Declared))

/-- How a definition is read; only the version has to be there. -/
def Source.shape : Shape Source.Fields Source :=
  { label := "struct RawDocument"
    listLabel := "struct RawDocument with 3 elements"
    fields :=
      [ { name := "asyncapi", given := (·.version.isSome), optional := false
          read := fun f c => do
            let (v, c) ← readText c
            .ok ({ f with version := some v }, c) }
      , { name := "info", given := (·.info.isSome), optional := true
          read := fun f c => do
            let (v, c) ← readOptional infoShape.read c
            .ok ({ f with info := some v }, c) }
      , { name := "servers", given := (·.servers.isSome), optional := true
          read := fun f c => do
            let (v, c) ← readMembers "a map of server objects" Declared.shape.read c
            .ok ({ f with servers := some v }, c) } ]
    blank := ⟨none, none, none⟩
    complete := fun f =>
      match f.version with
      | none => .error "asyncapi"
      | some version => .ok
        { version
          title := ((f.info.getD none).getD none)
          servers := f.servers.getD [] } }

/-- Read the text of a definition as it is declared. -/
def Source.ofText (text : String) : Except Json.Error Source := readWhole Source.shape.read text

/-! ## Versions and servers -/

/-- The supported first parts of a version. -/
inductive Major
  | two
  | three
  deriving DecidableEq, Repr

/-- The part of a version before its first point. -/
def majorPart (version : String) : List Char := version.toList.takeWhile (· ≠ '.')

/-- The supported version that a version string belongs to. -/
def Major.ofVersion? (version : String) : Option Major :=
  if majorPart version = ['2'] then some .two
  else if majorPart version = ['3'] then some .three
  else none

/-- A host and a path with exactly one slash between them. -/
def joinPath (host path : String) : String :=
  String.ofList
    ((host.toList.reverse.dropWhile (· = '/')).reverse ++ ['/']
      ++ path.toList.dropWhile (· = '/'))

/-- The address that a version 3 server declares. -/
def hostUrl (host : String) : Option String → String
  | some path => if path = "" then host else joinPath host path
  | none => host

/-- Complete a server, or name the first field that it lacks. -/
def Declared.resolve (major : Major) (name : String) (d : Declared) : Except Fault Endpoint :=
  match d.protocol with
  | none => .error (.missingField name "protocol")
  | some protocol =>
    let endpoint (url : String) : Endpoint :=
      ⟨protocol, url, d.protocolVersion, d.description⟩
    match major with
    | .two =>
      match d.url with
      | none => .error (.missingField name "url")
      | some url => .ok (endpoint url)
    | .three =>
      match d.host with
      | none => .error (.missingField name "host")
      | some host => .ok (endpoint (hostUrl host d.pathname))

/-- Complete all servers in order, or stop at the first faulty one. -/
def resolveAll (major : Major) : List (String × Declared) → Except Fault (List (String × Endpoint))
  | [] => .ok []
  | (name, d) :: rest =>
    match d.resolve major name with
    | .error e => .error e
    | .ok endpoint =>
      match resolveAll major rest with
      | .error e => .error e
      | .ok endpoints => .ok ((name, endpoint) :: endpoints)

/-- Complete a definition. -/
def Source.resolve (s : Source) : Except Fault Document :=
  match Major.ofVersion? s.version with
  | none => .error (.unsupportedVersion s.version)
  | some major =>
    match resolveAll major s.servers with
    | .error e => .error e
    | .ok servers => .ok ⟨s.version, s.title, servers⟩

namespace Document

/-- Read a definition. -/
def ofText (text : String) : Except Fault Document :=
  match Source.ofText text with
  | .error e => .error (.json e)
  | .ok s => s.resolve

/-- The declared names, in order and with repetitions. -/
def serverNames (d : Document) : List String := d.servers.map (·.1)

/-- The last server declared with the given name. -/
def server? (d : Document) (name : String) : Option Endpoint :=
  (d.servers.reverse.find? (·.1 = name)).map (·.2)

end Document

end PublisherConsole.Definition
