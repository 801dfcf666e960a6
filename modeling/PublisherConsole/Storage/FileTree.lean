import PublisherConsole.Storage.SystemFault

/-!
# Trees of files

A `FileTree` holds the directories and files below one root. A path names an entry by the names on
the way to it; `.` stays where it is and `..` goes one level up. Every operation first resolves its
path, which fails unless all but the last step lead through directories.
-/

namespace PublisherConsole.Storage

/-- A path from the root of the tree, outermost name first. -/
abbrev Path := List String

/-- The names between the slashes of a text. -/
def Path.names (text : String) : List String :=
  ((text.toList.splitOn '/').filter (· ≠ [])).map String.ofList

/-- The path that a text writes down. A leading slash leaves the tree, and a trailing slash asks
for a directory. -/
def Path.ofText (text : String) : Path :=
  if text = "" then [""]
  else
    (if text.toList.head? = some '/' then ["/"] else []) ++ Path.names text
      ++ (if text.toList.getLast? = some '/' then ["."] else [])

/-- The path below `p` that a text writes down; an absolute text replaces `p`. -/
def Path.below (p : Path) (text : String) : Path :=
  if text = "" then p
  else if text.toList.head? = some '/' then Path.ofText text
  else p ++ Path.names text

/-- The same path with another last name. -/
def Path.withName (p : Path) (name : String) : Path := p.dropLast ++ [name]

/-- What a path can lead to. -/
inductive Entry
  | directory
  | file (content : ByteArray)
  deriving Inhabited

/-- The entries below a root directory, by their resolved paths. -/
structure FileTree where
  entries : List (Path × Entry)
  deriving Inhabited

namespace FileTree

/-- A root directory without entries. -/
def empty : FileTree := ⟨[]⟩

/-- The entry at a resolved path. -/
def find? (t : FileTree) (p : Path) : Option Entry :=
  if p = [] then some .directory else t.entries.lookup p

/-- Put an entry at a resolved path. -/
def insert (t : FileTree) (p : Path) (e : Entry) : FileTree :=
  if (t.entries.lookup p).isSome then
    ⟨t.entries.map fun (q, old) => if q = p then (q, e) else (q, old)⟩
  else ⟨t.entries ++ [(p, e)]⟩

/-- Take away the entry at a resolved path. -/
def erase (t : FileTree) (p : Path) : FileTree := ⟨t.entries.filter (·.1 ≠ p)⟩

/-- Take away the entry at a resolved path and all below it. -/
def eraseTree (t : FileTree) (p : Path) : FileTree :=
  ⟨t.entries.filter fun (q, _) => !p.isPrefixOf q⟩

/-- The names of the entries directly below a resolved path, in the order in which the directory
lists them. -/
def namesBelow (t : FileTree) (p : Path) : List String :=
  t.entries.filterMap fun (q, _) => if q.dropLast = p then q.getLast? else none

/-- The longest name of an entry in bytes. -/
def maxNameLength : Nat := 255

/-- Follow the names of a path from a place already reached. -/
def follow (t : FileTree) : Path → Path → Except SystemFault Path
  | done, [] => .ok done
  | done, name :: rest =>
    -- Even `.` and `..` are looked up, so they need a directory to start from.
    match t.find? done with
    | none => .error .noSuchFile
    | some (.file _) => .error .notDirectory
    | some .directory =>
      if name.utf8ByteSize > maxNameLength then .error .nameTooLong
      else if name = "." then t.follow done rest
      else if name = ".." then t.follow done.dropLast rest
      else t.follow (done ++ [name]) rest

/-- The place a path leads to; its last name need not exist. -/
def resolve (t : FileTree) (p : Path) : Except SystemFault Path :=
  if p.any (·.contains '\x00') then .error .invalidName else t.follow [] p

/-- The entry a path leads to, if it exists. -/
def entryAt? (t : FileTree) (p : Path) : Option Entry :=
  match t.resolve p with
  | .ok q => t.find? q
  | .error _ => none

/-- The bytes of a file. -/
def bytes (t : FileTree) (p : Path) : Except SystemFault ByteArray := do
  let q ← t.resolve p
  match t.find? q with
  | none => .error .noSuchFile
  | some .directory => .error .isDirectory
  | some (.file content) => .ok content

/-- The text of a file. -/
def text (t : FileTree) (p : Path) : Except SystemFault String := do
  let content ← t.bytes p
  match String.fromUTF8? content with
  | some s => .ok s
  | none => .error .invalidText

/-- The names in a directory. -/
def list (t : FileTree) (p : Path) : Except SystemFault (List String) := do
  let q ← t.resolve p
  match t.find? q with
  | none => .error .noSuchFile
  | some (.file _) => .error .notDirectory
  | some .directory => .ok (t.namesBelow q)

/-- Make a directory in an existing one. -/
def makeDirectory (t : FileTree) (p : Path) : Except SystemFault FileTree := do
  let q ← t.resolve p
  match t.find? q with
  | some _ => .error .fileExists
  | none => .ok (t.insert q .directory)

/-- Make an empty file, or empty the one that is there. -/
def create (t : FileTree) (p : Path) : Except SystemFault FileTree := do
  let q ← t.resolve p
  match t.find? q with
  | some .directory => .error .isDirectory
  | _ => .ok (t.insert q (.file .empty))

/-- Make an empty file unless one is there. -/
def touch (t : FileTree) (p : Path) : Except SystemFault FileTree := do
  let q ← t.resolve p
  match t.find? q with
  | some .directory => .error .isDirectory
  | some (.file _) => .ok t
  | none => .ok (t.insert q (.file .empty))

/-- Fill a file. -/
def write (t : FileTree) (p : Path) (content : ByteArray) : Except SystemFault FileTree := do
  let q ← t.resolve p
  match t.find? q with
  | none => .error .noSuchFile
  | some .directory => .error .isDirectory
  | some (.file _) => .ok (t.insert q (.file content))

/-- Move a file to another path, over the file that may be there. -/
def rename (t : FileTree) (source target : Path) : Except SystemFault FileTree := do
  let p ← t.resolve source
  let q ← t.resolve target
  match t.find? p, t.find? q with
  | none, _ => .error .noSuchFile
  | some (.file _), some .directory => .error .isDirectory
  | some .directory, some (.file _) => .error .notDirectory
  | some .directory, _ => .error .notEmpty
  | some (.file content), _ => .ok ((t.erase p).insert q (.file content))

/-- Remove a file. -/
def remove (t : FileTree) (p : Path) : Except SystemFault FileTree := do
  let q ← t.resolve p
  match t.find? q with
  | none => .error .noSuchFile
  | some .directory => .error .isDirectory
  | some (.file _) => .ok (t.erase q)

end FileTree

end PublisherConsole.Storage
