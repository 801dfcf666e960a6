import PublisherConsole.Console.Tasks

/-!
# Running the console

The host of the console feeds it with events, one turn of the loop each: the preview takes the
width of the screen, queued work is taken over, the event is handled, work that it queued is taken
over as well, and finished work is handed over. Between those steps the work in the background goes
on. `Desk.step` covers all of it, one `Step` at a time and in whatever order they come. Work starts
once and ends once: a start of work that does not wait, and an end of work that does not run, change
nothing. A fetch may also break off without a result; a save that breaks off has failed.
-/

namespace PublisherConsole

/-- What the terminal reports. -/
inductive Event
  | key (k : KeyPress)
  | wheelUp
  | wheelDown
  | pointer
  | tick
  | resize
  deriving DecidableEq, Repr, Inhabited

/-- Handle an event. The wheel scrolls like the arrow keys, and whatever else the mouse does is
ignored; a new size only needs another drawing. -/
def App.handle (a : App) : Event → App
  | .key k => a.press k
  | .wheelUp => a.perform .up
  | .wheelDown => a.perform .down
  | .tick => a.tick
  | .pointer | .resize => a

/-- The console and its work in the background. -/
structure Desk (η : Type) where
  app : App
  tasks : Tasks η
  deriving Repr, Inhabited

/-- Something that happens to a desk. -/
inductive Step (η : Type)
  | event (e : Event)
  | previewWidth (width : Nat)
  | spawn
  | collect
  | startLoad (i : Nat) (handle : η)
  | startSave (i : Nat) (handle : η)
  | finishLoad (i : Nat) (result : Except Definition.LoadFault Definition.Directory)
  | breakLoad (i : Nat)
  | finishSave (i : Nat) (outcome : Except Storage.Fault Record)
  deriving Repr

namespace Desk

variable {η : Type}

/-- The desk of a console that was just started. -/
def new (record : Record) (user : User) : Desk η := ⟨.new record user, .none⟩

/-- Change the console alone. -/
def modifyApp (d : Desk η) (f : App → App) : Desk η := { d with app := f d.app }

/-- Take over queued work. -/
def spawn (d : Desk η) : Desk η :=
  let (tasks, app) := d.tasks.spawn d.app
  ⟨app, tasks⟩

/-- Hand over finished work. -/
def collect (d : Desk η) : Desk η :=
  let (tasks, app) := d.tasks.collect d.app
  ⟨app, tasks⟩

/-- Let something happen. -/
def step (d : Desk η) : Step η → Desk η
  | .event e => d.modifyApp (·.handle e)
  | .previewWidth width => d.modifyApp (·.resizePreview width)
  | .spawn => d.spawn
  | .collect => d.collect
  | .startLoad i handle => { d with tasks := d.tasks.modifyLoad i (.start handle) }
  | .startSave i handle => { d with tasks := d.tasks.modifySave i (.start handle) }
  | .finishLoad i result => { d with tasks := d.tasks.modifyLoad i (.finish result) }
  | .breakLoad i => { d with tasks := d.tasks.dropLoad i }
  | .finishSave i outcome => { d with tasks := d.tasks.modifySave i (.finish outcome) }

/-- Let one thing happen after the other. -/
def run (d : Desk η) (steps : List (Step η)) : Desk η := steps.foldl step d

end Desk

end PublisherConsole
