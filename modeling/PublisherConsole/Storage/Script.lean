import PublisherConsole.Storage.FileTree

/-!
# Scripts of file system calls

Whatever touches files is written as a `Script`: a sequence of single calls, each of which may
depend on the answers to the ones before it. A script can be run on a `FileTree`, one call at a
time, or by the operating system, and between any two calls something else may happen.
-/

namespace PublisherConsole.Storage

/-- One call to the file system. -/
inductive Call
  | exists? (p : Path)
  | isFile (p : Path)
  | isDirectory (p : Path)
  | readText (p : Path)
  | list (p : Path)
  | makeDirectory (p : Path)
  | create (p : Path)
  | touch (p : Path)
  | write (p : Path) (content : ByteArray)
  | sync (p : Path)
  | rename (source target : Path)
  | remove (p : Path)

/-- The type of the answer to a call. -/
def Call.Answer : Call → Type
  | .exists? _ | .isFile _ | .isDirectory _ => Bool
  | .readText _ => Except SystemFault String
  | .list _ => Except SystemFault (List String)
  | .makeDirectory _ | .create _ | .touch _ | .write .. | .sync _ | .rename .. | .remove _ =>
    Except SystemFault Unit

/-- A sequence of calls that ends with a result. -/
inductive Script (α : Type) : Type
  | done (result : α)
  | step (call : Call) (next : call.Answer → Script α)

namespace Script

variable {α β : Type}

/-- Go on with another script. -/
def andThen : Script α → (α → Script β) → Script β
  | .done a, k => k a
  | .step call next, k => .step call fun answer => (next answer).andThen k

instance : Monad Script where
  pure := .done
  bind := andThen

/-- Whether a path leads to something. -/
def exists? (p : Path) : Script Bool := .step (.exists? p) .done

/-- Whether a path leads to a file. -/
def isFile (p : Path) : Script Bool := .step (.isFile p) .done

/-- Whether a path leads to a directory. -/
def isDirectory (p : Path) : Script Bool := .step (.isDirectory p) .done

/-- The text of a file. -/
def readText (p : Path) : Script (Except SystemFault String) := .step (.readText p) .done

/-- The names in a directory. -/
def list (p : Path) : Script (Except SystemFault (List String)) := .step (.list p) .done

/-- Make a directory. -/
def makeDirectory (p : Path) : Script (Except SystemFault Unit) := .step (.makeDirectory p) .done

/-- Make or empty a file. -/
def create (p : Path) : Script (Except SystemFault Unit) := .step (.create p) .done

/-- Make a file unless it is there. -/
def touch (p : Path) : Script (Except SystemFault Unit) := .step (.touch p) .done

/-- Fill a file. -/
def write (p : Path) (content : ByteArray) : Script (Except SystemFault Unit) :=
  .step (.write p content) .done

/-- Bring a file to the disk. -/
def sync (p : Path) : Script (Except SystemFault Unit) := .step (.sync p) .done

/-- Move a file. -/
def rename (source target : Path) : Script (Except SystemFault Unit) :=
  .step (.rename source target) .done

/-- Remove a file. -/
def remove (p : Path) : Script (Except SystemFault Unit) := .step (.remove p) .done

end Script

namespace FileTree

/-- The tree behind a change, and whether it succeeded; a failed change leaves the tree alone. -/
def changed (t : FileTree) : Except SystemFault FileTree → Except SystemFault Unit × FileTree
  | .ok t' => (.ok (), t')
  | .error e => (.error e, t)

/-- Answer a call. -/
def answer (t : FileTree) : (call : Call) → call.Answer × FileTree
  | .exists? p => ((t.entryAt? p).isSome, t)
  | .isFile p => ((match t.entryAt? p with | some (.file _) => true | _ => false), t)
  | .isDirectory p => ((match t.entryAt? p with | some .directory => true | _ => false), t)
  | .readText p => (t.text p, t)
  | .list p => (t.list p, t)
  | .makeDirectory p => t.changed (t.makeDirectory p)
  | .create p => t.changed (t.create p)
  | .touch p => t.changed (t.touch p)
  | .write p content => t.changed (t.write p content)
  | .sync p => (((t.bytes p).map fun _ => ()), t)
  | .rename source target => t.changed (t.rename source target)
  | .remove p => t.changed (t.remove p)

/-- Run a script to its end. -/
def run {α : Type} : FileTree → Script α → α × FileTree
  | t, .done a => (a, t)
  | t, .step call next =>
    let (reply, t') := t.answer call
    t'.run (next reply)

end FileTree

/-! ## Composite operations -/

/-- Make the directory whose names are given innermost first, and those above it. -/
def makeDirectoriesUp : List String → Script (Except SystemFault Unit)
  | [] => .done (.ok ())
  | name :: above => do
    let p := (name :: above).reverse
    match (← Script.makeDirectory p) with
    | .ok () => pure (.ok ())
    | .error .noSuchFile =>
      match (← makeDirectoriesUp above) with
      | .error e => pure (.error e)
      | .ok () =>
        match (← Script.makeDirectory p) with
        | .ok () => pure (.ok ())
        | .error e =>
          if (← Script.isDirectory p) then pure (.ok ()) else pure (.error e)
    | .error e =>
      -- Whatever went wrong, it is enough that the directory is there.
      if (← Script.isDirectory p) then pure (.ok ()) else pure (.error e)

/-- Make a directory and those above it, where they are missing. -/
def makeDirectories (p : Path) : Script (Except SystemFault Unit) := makeDirectoriesUp p.reverse

/-- Fill a new file at `temp` and move it over the target. -/
def fillAndMove (target temp : Path) (content : ByteArray) : Script (Except SystemFault Unit) := do
  match (← Script.create temp) with
  | .error e => pure (.error e)
  | .ok () =>
    match (← Script.write temp content) with
    | .error e => pure (.error e)
    | .ok () =>
      match (← Script.sync temp) with
      | .error e => pure (.error e)
      | .ok () => Script.rename temp target

/-- Replace a file as a whole: write a temporary file beside it, whose name carries the tag, and
move it over the target. The temporary file is removed if a step fails. -/
def replaceFile (target : Path) (tag : String) (content : ByteArray) :
    Script (Except SystemFault Unit) := do
  let temp := target.withName (target.getLastD "file" ++ "." ++ tag ++ ".tmp")
  let outcome ← fillAndMove target temp content
  match outcome with
  | .ok () => pure (.ok ())
  | .error e =>
    -- What is reported is the fault of the writing, not that of the removal.
    let _ ← Script.remove temp
    pure (.error e)

/-- Write a file in place. -/
def overwriteFile (target : Path) (content : ByteArray) : Script (Except SystemFault Unit) := do
  match (← Script.create target) with
  | .error e => pure (.error e)
  | .ok () => Script.write target content

end PublisherConsole.Storage
