import PublisherConsole.Api.Access
import PublisherConsole.Api.RecordFormat
import PublisherConsole.Definition.Directory
import PublisherConsole.Text.Rows

/-!
# What commands print

Records and servers as text for people, one item per line, or as JSON. In the JSON that is made for
printing only, the members of an object are in the order of their names.
-/

namespace PublisherConsole

/-- Lines of text, each with its end. -/
def printLines (lines : List String) : String := String.join (lines.map (· ++ "\n"))

/-- A value on lines of its own. -/
def Json.Value.print (v : Json.Value) : String := printLines [v.toText]

/-- An object whose members are in the order of their names. -/
def Json.Value.sortedObject (members : List (String × Json.Value)) : Json.Value :=
  .object (members.mergeSort fun a b => decide (a.1 ≤ b.1))

namespace Record

/-- The line of a record in a list. -/
def listLine (r : Record) : String :=
  "  " ++ r.id ++ "  " ++ r.name ++ (match r.kind with | .api => "" | .product => " [product]")

/-- A list of records. -/
def listText (rs : List Record) : String :=
  if rs.isEmpty then printLines ["No APIs registered"]
  else printLines (rs.map listLine ++ ["", toString rs.length ++ " API(s)"])

/-- The lines of one text of a record. -/
def textLines (r : Record) (field : TextField) : List String :=
  let content := r.content field
  ["", field.label] ++
    if content.isEmpty then ["  (none)"] else (Text.splitLines content).map ("  " ++ ·)

/-- All about a record, and whether the user may edit it. -/
def presentation (r : Record) (user : User) : String :=
  printLines
    ([ r.name ++ " (" ++ r.id ++ ")"
     , "  Type: " ++ r.kind.name
     , "  Lifecycle: " ++ r.lifecycle
     , "  Updated: " ++ r.updatedAt.offsetText
     , "  Editable by " ++ user.name ++ ": " ++
         (if Access.toEdit user r = .allowed then "yes" else "no")
     , "  Action: " ++ r.buttonLabel ] ++
      r.textLines .description ++ r.textLines .overview)

/-- The members of a record. -/
def members (r : Record) : List (String × Json.Value) :=
  match r.toValue with
  | .object members => members
  | _ => []

/-- The same as JSON. -/
def presentationJson (r : Record) (user : User) : String :=
  (Json.Value.sortedObject
    [ ("api", .sortedObject r.members)
    , ("editable", .boolean (Access.toEdit user r = .allowed)) ]).print

end Record

namespace Definition.Directory

/-- The servers of a directory. -/
def listText (d : Directory) : String :=
  if d.isEmpty then printLines ["No servers declared"]
  else
    printLines (["Protocols & Endpoints", ""] ++
      d.toList.flatMap fun (name, e) => [name, "  - [" ++ e.protocol ++ "] " ++ e.url])

/-- A server as JSON. -/
def serverValue (name : String) (e : Endpoint) : Json.Value :=
  .sortedObject
    [ ("name", .text name), ("protocol", .text e.protocol), ("url", .text e.url)
    , ("protocolVersion", .optionalText e.protocolVersion)
    , ("description", .optionalText e.description) ]

/-- The servers of a directory as JSON. -/
def listJson (d : Directory) : String :=
  (Json.Value.list (d.toList.map fun (name, e) => serverValue name e)).print

end Definition.Directory

end PublisherConsole
