import PublisherConsole.Console.Event
import PublisherConsole.Simulation.Backend

/-!
# Rehearsals

A rehearsal runs the console against a scripted backend, on a clock that it sets itself. Work that
was taken over starts at the next `settle`, which lets time pass, finishes what is due by then, and
hands it over.
-/

namespace PublisherConsole.Simulation

/-- When running work is due, in milliseconds on the clock of the rehearsal, and whether it has an
answer then rather than being given up. -/
structure Timer where
  due : Nat
  answered : Bool
  deriving DecidableEq, Repr, Inhabited

/-- A console at work with a scripted backend. -/
structure Rehearsal where
  desk : Desk Timer
  backend : Backend
  /-- The milliseconds that have passed. -/
  clock : Nat
  /-- The milliseconds after which a fetch is given up. -/
  limit : Nat
  deriving Inhabited

namespace Rehearsal

/-- A rehearsal of the console for a record. -/
def new (record : Record) (user : User) (backend : Backend) (limit : Nat) : Rehearsal :=
  ⟨.new record user, backend, 0, limit⟩

/-- Let something happen at the desk. -/
def step (r : Rehearsal) (s : Step Timer) : Rehearsal := { r with desk := r.desk.step s }

/-- Start a fetch if it waits. -/
def startLoad (r : Rehearsal) (i : Nat) : Rehearsal :=
  match r.desk.tasks.loads[i]? with
  | some ⟨ticket, .waiting⟩ =>
    let (delay, backend) := r.backend.startFetch ticket.apiId
    let timer := ⟨r.clock + min (delay.getD r.limit) r.limit, Backend.isInTime delay r.limit⟩
    { r with backend }.step (.startLoad i timer)
  | _ => r

/-- Start a save if it waits. -/
def startSave (r : Rehearsal) (i : Nat) : Rehearsal :=
  match r.desk.tasks.saves[i]? with
  | some ⟨⟨id, pending⟩, .waiting⟩ =>
    let backend := r.backend.startUpdate ⟨id, pending.field, pending.content⟩
    { r with backend }.step (.startSave i ⟨r.clock + r.backend.updateDelay, true⟩)
  | _ => r

/-- Finish a fetch if it is due. -/
def finishLoad (r : Rehearsal) (i : Nat) : Rehearsal :=
  match r.desk.tasks.loads[i]? with
  | some ⟨ticket, .running timer⟩ =>
    if r.clock < timer.due then r
    else if timer.answered then
      let (outcome, backend) := r.backend.finishFetch ticket.apiId
      { r with backend }.step (.finishLoad i (Definition.Directory.ofFetched outcome))
    else r.step (.finishLoad i (.error (.timeout (.milliseconds r.limit))))
  | _ => r

/-- Finish a save if it is due. -/
def finishSave (r : Rehearsal) (i : Nat) (now : Time.Instant) : Rehearsal :=
  match r.desk.tasks.saves[i]? with
  | some ⟨⟨id, pending⟩, .running timer⟩ =>
    if r.clock < timer.due then r
    else
      let (outcome, backend) := r.backend.finishUpdate ⟨id, pending.field, pending.content⟩ now
      { r with backend }.step (.finishSave i outcome)
  | _ => r

/-- Let milliseconds pass. Every save that is stored then has the time `now`. -/
def settle (r : Rehearsal) (milliseconds : Nat) (now : Time.Instant) : Rehearsal :=
  let loads := List.range r.desk.tasks.loads.length
  let saves := List.range r.desk.tasks.saves.length
  let r := loads.foldl startLoad r
  let r := saves.foldl startSave r
  let r := { r with clock := r.clock + milliseconds }
  let r := loads.foldl finishLoad r
  let r := saves.foldl (fun r i => r.finishSave i now) r
  r.step .collect

/-- Give up all work in the background. -/
def abort (r : Rehearsal) : Rehearsal := { r with desk := { r.desk with tasks := .none } }

end Rehearsal

end PublisherConsole.Simulation
