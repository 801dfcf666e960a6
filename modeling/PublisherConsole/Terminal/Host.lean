import PublisherConsole.Command.Perform
import PublisherConsole.Console.Drawing
import PublisherConsole.Terminal.Input

/-!
# Hosting the console

A host runs the console on a terminal, over the files of the working directory. Between two events
it does the work that was taken over; a turn of the loop then handles one event. Everything is a
script, so that it runs on a tree of files as well as on the real ones.
-/

namespace PublisherConsole.Terminal

open Storage (Script Stamp)

/-- What the console is hosted with. -/
structure Host where
  launch : Command.Launch
  network : Definition.Network
  area : Screen.Rect

namespace Host

/-- The desk of a console that was just started. -/
def start (h : Host) : Desk Unit := .new h.launch.record h.launch.user

/-- Do a fetch if it waits. -/
def load (h : Host) (d : Desk Unit) (i : Nat) : Script (Desk Unit) :=
  match d.tasks.loads[i]? with
  | some ⟨ticket, .waiting⟩ => do
    let d := d.step (.startLoad i ())
    let result ← h.launch.source.fetchDirectory h.network ticket.apiId
    return d.step (.finishLoad i result)
  | _ => pure d

/-- Do a save if it waits. -/
def save (h : Host) (stamp : Stamp) (d : Desk Unit) (i : Nat) : Script (Desk Unit) :=
  match d.tasks.saves[i]? with
  | some ⟨⟨id, pending⟩, .waiting⟩ => do
    let d := d.step (.startSave i ())
    let outcome ← h.launch.store.update id pending.field pending.content stamp
    return d.step (.finishSave i outcome)
  | _ => pure d

/-- Do all work that waits. -/
def work (h : Host) (stamp : Stamp) (d : Desk Unit) : Script (Desk Unit) := do
  let d ← (List.range d.tasks.loads.length).foldlM h.load d
  (List.range d.tasks.saves.length).foldlM (h.save stamp) d

/-- What comes before the wait for an event: the preview takes its width, and queued work is taken
over. -/
def prepare (h : Host) (d : Desk Unit) : Desk Unit :=
  (d.step (.previewWidth h.area.previewWidth)).step .spawn

/-- What an event brings about. -/
def react (d : Desk Unit) (e : Event) : Desk Unit :=
  ((d.step (.event e)).step .spawn).step .collect

/-- One turn of the loop. -/
def turn (h : Host) (stamp : Stamp) (d : Desk Unit) (e : Event) : Script (Desk Unit) := do
  return react (← h.work stamp (h.prepare d)) e

/-- Turns for events, as long as the console is not left. -/
def turns (h : Host) (stamp : Stamp) : Desk Unit → List Event → Script (Desk Unit)
  | d, [] => .done d
  | d, e :: es =>
    if d.app.quitting then .done d
    else do
      let d ← h.turn stamp d e
      h.turns stamp d es

end Host

end PublisherConsole.Terminal
