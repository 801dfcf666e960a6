import PublisherConsole.Command.RandomId
import PublisherConsole.Terminal.Host
import PublisherConsole.Terminal.Output
import PublisherConsole.Text.Utf8
import PublisherConsole.Time.Instant
import Std.Time.DateTime.Timestamp

/-!
# The program

Everything that the program decides is in the other modules. Here scripts are performed on real
files, the terminal is read and drawn, and the clock and the source of randomness are asked.

The console expects a terminal that passes keys on as they are typed. Its size is taken from the
environment. There is no network.
-/

namespace PublisherConsole.Program

open Storage

/-- The name of a path for the operating system. -/
def nameOf (p : Path) : String :=
  match p with
  | "/" :: rest => "/" ++ "/".intercalate rest
  | _ => "/".intercalate p

/-- The cause that the operating system gives for a failed call. -/
def faultOf : IO.Error → SystemFault
  | .noFileOrDirectory .. => .noSuchFile
  | .alreadyExists (some _) 39 _ => .notEmpty
  | .alreadyExists .. => .fileExists
  | .inappropriateType (some _) 21 _ => .isDirectory
  | .inappropriateType none 21 _ => .isDirectory
  | .inappropriateType .. => .notDirectory
  | .invalidArgument (some _) 36 _ => .nameTooLong
  | .resourceExhausted (some _) 36 _ => .nameTooLong
  | e => .other (toString e)

/-- Perform a call and give the cause when it fails. -/
def attempt {α : Type} (call : IO α) : IO (Except SystemFault α) := do
  try
    return .ok (← call)
  catch e =>
    return .error (faultOf e)

/-- Whether a call succeeds. -/
def succeeds {α : Type} (call : IO α) : IO Bool := do
  return (← attempt call).isOk

/-- Whether a path leads to a directory. -/
def isDirectory (name : String) : IO Bool := do
  match (← attempt (IO.FS.realPath name)) with
  | .ok p => p.isDir
  | .error _ => return false

/-- The names in a directory. -/
def namesIn (name : String) : IO (List String) := do
  let entries ← (← IO.FS.realPath name).readDir
  return entries.toList.map (·.fileName)

/-- The text of a file. -/
def textOf (name : String) : IO (Except SystemFault String) := do
  match (← attempt (IO.FS.readBinFile name)) with
  | .error e => return .error e
  | .ok bytes =>
    match String.fromUTF8? bytes with
    | some text => return .ok text
    | none => return .error .invalidText

/-- Perform a call on the files. -/
def answer : (call : Call) → IO call.Answer
  | .exists? p => succeeds (IO.FS.realPath (nameOf p))
  | .isFile p => do
    let name := nameOf p
    if (← succeeds (IO.FS.realPath name)) then return !(← isDirectory name) else return false
  | .isDirectory p => isDirectory (nameOf p)
  | .readText p => textOf (nameOf p)
  | .list p => attempt (namesIn (nameOf p))
  | .makeDirectory p => attempt (IO.FS.createDir (nameOf p))
  | .create p => attempt do
    let _ ← IO.FS.Handle.mk (nameOf p) .write
  | .touch p => attempt do
    let _ ← IO.FS.Handle.mk (nameOf p) .append
  | .write p content => attempt (IO.FS.writeBinFile (nameOf p) content)
  | .sync p => attempt do
    let handle ← IO.FS.Handle.mk (nameOf p) .append
    handle.flush
  | .rename source target => attempt (IO.FS.rename (nameOf source) (nameOf target))
  | .remove p => attempt (IO.FS.removeFile (nameOf p))

/-- Perform a script on the files. -/
def run {α : Type} : Script α → IO α
  | .done a => return a
  | .step call next => do
    let reply ← answer call
    run (next reply)

/-- The present time. -/
def now : IO Time.Instant := do
  let time ← Std.Time.Timestamp.now
  let nanos := time.toNanosecondsSinceUnixEpoch.val.toNat
  return .ofClock (nanos / 1000000000) (nanos % 1000000000)

/-- A stamp for a write. -/
def stamp : IO Stamp := do
  let tag ← IO.rand 0 1000000000
  return ⟨← now, toString tag⟩

/-- The surroundings of a run. -/
def surroundings : IO Command.Surroundings := do
  let bytes ← IO.getRandomBytes 16
  let freshId := Command.RandomId.ofBytes (bytes.toList.map UInt8.toNat)
  return ⟨← stamp, freshId, ← IO.getEnv "APIDESK_TOKEN"⟩

/-- A number in the environment. -/
def numberIn (name : String) (fallback : Nat) : IO Nat := do
  return ((← IO.getEnv name).bind (·.toNat?)).getD fallback

/-- The milliseconds between two looks at the terminal. -/
def glanceSpan : Nat := 10

/-- The looks at the terminal between two ticks. -/
def glancesPerTick : Nat := 25

/-- A byte that is being read. -/
abbrev Read := Task (Except IO.Error ByteArray)

/-- Start to read a byte. -/
def startRead (input : IO.FS.Stream) : IO Read := IO.asTask (input.read 1) .dedicated

/-- Wait for a byte, but not longer than the given number of looks. -/
partial def await (read : Read) (glances : Nat) : IO (Option ByteArray) := do
  if (← IO.hasFinished read) then
    match read.get with
    | .ok bytes => return some bytes
    | .error e => throw e
  else if glances = 0 then return none
  else
    IO.sleep (UInt32.ofNat glanceSpan)
    await read (glances - 1)

/-- Read the bytes that come together with the first ones, and start to read the next one. -/
partial def gather (input : IO.FS.Stream) (bytes : ByteArray) : IO (ByteArray × Read) := do
  let read ← startRead input
  match (← await read 1) with
  | none => return (bytes, read)
  | some more => if more.isEmpty then return (bytes, read) else gather input (bytes ++ more)

/-- End the last read, by asking the terminal for its status. -/
def endRead (output : IO.FS.Stream) (read : Read) : IO Unit := do
  output.putStr Terminal.Output.statusRequest
  output.flush
  let _ ← IO.wait read

/-- Run the console until it is left. `waiting` are characters that make no event yet, and
`unfinished` is the beginning of a character. -/
partial def converse (h : Terminal.Host) (input output : IO.FS.Stream) (read : Read)
    (waiting : List Char) (unfinished : Option Text.Unfinished) (d : Desk Unit) : IO UInt32 := do
  if d.app.quitting then
    endRead output read
    return 0
  match (h.prepare d).app.screen? h.area with
  | none => return 101
  | some b =>
    output.putStr (Terminal.Output.screenText b)
    output.flush
    match (← await read glancesPerTick) with
    | none =>
      let d ← run (h.turn (← stamp) d .tick)
      converse h input output read waiting unfinished d
    | some bytes =>
      if bytes.isEmpty then return 0
      let (bytes, read) ← gather input bytes
      let (chars, unfinished) := Text.readBytes unfinished bytes.toList
      let (events, waiting) := Terminal.Input.feed waiting chars
      let d ← run (h.turns (← stamp) d events)
      converse h input output read waiting unfinished d

/-- Fill the screen with the console. -/
def fillScreen (launch : Command.Launch) : IO UInt32 := do
  let input ← IO.getStdin
  let output ← IO.getStdout
  if !(← input.isTty) then
    IO.eprintln "Error: No such device or address (os error 6)"
    return 1
  let width ← numberIn "COLUMNS" 80
  let height ← numberIn "LINES" 24
  let h : Terminal.Host := ⟨launch, Definition.Network.none, .new 0 0 width height⟩
  output.putStr Terminal.Output.opening
  try
    converse h input output (← startRead input) [] none h.start
  finally
    output.putStr Terminal.Output.closing
    output.flush

end PublisherConsole.Program

open PublisherConsole in
/-- Run the program on the words of its command line. -/
def main (words : List String) : IO UInt32 := do
  let s ← Program.surroundings
  match (← Program.run (Command.runWords words s Definition.Network.none)) with
  | .ended outcome =>
    IO.print outcome.output
    IO.eprint outcome.errors
    return UInt32.ofNat outcome.code
  | .ready warning launch =>
    IO.eprint (warning.getD "")
    Program.fillScreen launch
