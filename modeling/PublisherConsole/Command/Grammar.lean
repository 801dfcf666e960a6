import PublisherConsole.Api.TextField

/-!
# The words of a command line

A command takes at most one plain word, flags, and options with a value. Options start with two
dashes and have their value in the next word or behind an equals sign; a word of two dashes alone
makes every later word a plain one. A value that starts with a dash has to stand behind an equals
sign.

An option is checked as soon as the next option or plain word is read, or at the end. So of two
faults the first one in that order is reported, except that a word which does not belong at all is
reported before the faults of an option that is still to be checked.
-/

namespace PublisherConsole.Command

/-- What an option wants as its value. -/
inductive Wanted
  | text
  | path
  | field
  deriving DecidableEq, Repr, Inhabited

/-- An option: a flag when it wants nothing. -/
structure OptionRule where
  name : String
  wanted : Option Wanted
  deriving DecidableEq, Repr, Inhabited

namespace OptionRule

/-- What stands for the value of an option. -/
def placeholder (o : OptionRule) : String :=
  String.ofList (o.name.toList.map fun c => if c = '-' then '_' else c.toUpper)

/-- How an option is shown. -/
def shown (o : OptionRule) : String :=
  match o.wanted with
  | none => "--" ++ o.name
  | some _ => "--" ++ o.name ++ " <" ++ o.placeholder ++ ">"

end OptionRule

/-- What is wrong with a command line. -/
inductive UsageFault
  | unknownCommand (word : String)
  | unexpected (word : String)
  | incomplete
  | noValue (option : OptionRule)
  | needlessValue (option : OptionRule) (value : String)
  | repeated (option : OptionRule)
  | invalidValue (option : OptionRule) (value reason : String)
  deriving DecidableEq, Repr

/-- The wording of a fault. -/
def UsageFault.message : UsageFault → String
  | .unknownCommand word => "unrecognized subcommand '" ++ word ++ "'"
  | .unexpected word => "unexpected argument '" ++ word ++ "' found"
  | .incomplete => "the following required arguments were not provided:"
  | .noValue option =>
    "a value is required for '" ++ option.shown ++ "' but none was supplied"
  | .needlessValue option value =>
    "unexpected value '" ++ value ++ "' for '" ++ option.shown ++
      "' found; no more were expected"
  | .repeated option => "the argument '" ++ option.shown ++ "' cannot be used multiple times"
  | .invalidValue option value reason =>
    "invalid value '" ++ value ++ "' for '" ++ option.shown ++ "': " ++ reason

/-- Why no command came out of a command line. -/
inductive Halt
  | help
  | version
  | fault (cause : UsageFault)
  deriving DecidableEq, Repr

/-- The words that a command takes. -/
structure Grammar where
  /-- Whether there may be a plain word. -/
  takesWord : Bool
  options : List OptionRule
  deriving Repr, Inhabited

/-- The option that asks for help, which every command has. -/
def helpOption : OptionRule := { name := "help", wanted := none }

/-- What has been read of a command line. -/
structure Reading where
  word : Option String
  /-- The options that were checked, with their values. -/
  options : List (OptionRule × String)
  /-- The option that is still to be checked, with the value found so far. -/
  current : Option (OptionRule × Option String)
  /-- Whether every later word is a plain one. -/
  plain : Bool
  deriving Repr, Inhabited

namespace Reading

/-- Nothing has been read. -/
def start : Reading := ⟨none, [], none, false⟩

/-- Whether an option was given. -/
def has (r : Reading) (name : String) : Bool := r.options.any (·.1.name = name)

/-- The value of an option. -/
def value? (r : Reading) (name : String) : Option String :=
  (r.options.find? (·.1.name = name)).map (·.2)

/-- What is wrong with the value of an option. -/
def complaint? (o : OptionRule) (value : String) : Option UsageFault :=
  match o.wanted with
  | some .path => if value = "" then some (.noValue o) else none
  | some .field =>
    match TextField.ofName value with
    | .ok _ => none
    | .error e => some (.invalidValue o value e.message)
  | _ => none

/-- Take an option with its value; a flag has the empty one. -/
def accept (r : Reading) (o : OptionRule) (value : String) : Except UsageFault Reading :=
  if r.has o.name then .error (.repeated o)
  else
    match complaint? o value with
    | some fault => .error fault
    | none => .ok { r with options := r.options ++ [(o, value)], current := none }

/-- Check the option that is still to be checked. -/
def settle (r : Reading) : Except UsageFault Reading :=
  match r.current with
  | none => .ok r
  | some (o, none) => .error (.noValue o)
  | some (o, some value) => r.accept o value

end Reading

/-- The two parts of a word around its first equals sign; without one there is no second part. -/
def splitEquals : List Char → List Char × Option (List Char)
  | [] => ([], none)
  | c :: cs =>
    if c = '=' then ([], some cs)
    else
      let (name, value) := splitEquals cs
      (c :: name, value)

namespace Grammar

/-- Read an option by its name, and the value behind an equals sign. -/
def readOption (g : Grammar) (r : Reading) (name : String) (value : Option String) :
    Except Halt Reading :=
  match (helpOption :: g.options).find? (·.name = name) with
  | none => .error (.fault (.unexpected ("--" ++ name)))
  | some o =>
    match o.wanted, value with
    | none, some value => .error (.fault (.needlessValue o value))
    | none, none => do
      let r ← r.settle.mapError .fault
      if o = helpOption then .error .help else (r.accept o "").mapError .fault
    | some _, some value => do
      let r ← r.settle.mapError .fault
      (r.accept o value).mapError .fault
    | some _, none => do
      let r ← r.settle.mapError .fault
      .ok { r with current := some (o, none) }

/-- Read a plain word. -/
def readWord (g : Grammar) (r : Reading) (word : String) : Except Halt Reading :=
  if g.takesWord && r.word.isNone then do
    let r ← r.settle.mapError .fault
    .ok { r with word := some word }
  else .error (.fault (.unexpected word))

/-- Read one word of a command line. -/
def readNext (g : Grammar) (r : Reading) (word : String) : Except Halt Reading :=
  if r.plain then g.readWord r word
  else
    match word.toList with
    | ['-', '-'] => .ok { r with plain := true }
    | '-' :: '-' :: rest =>
      let (name, value) := splitEquals rest
      g.readOption r (String.ofList name) (value.map String.ofList)
    | '-' :: c :: _ =>
      if c = 'h' then do
        let _ ← r.settle.mapError .fault
        .error .help
      else .error (.fault (.unexpected (String.ofList ['-', c])))
    | _ =>
      match r.current with
      | some (o, none) => .ok { r with current := some (o, some word) }
      | _ => g.readWord r word

/-- Read the words of a command. -/
def read (g : Grammar) (words : List String) : Except Halt Reading := do
  let r ← words.foldlM g.readNext Reading.start
  r.settle.mapError .fault

end Grammar

end PublisherConsole.Command
