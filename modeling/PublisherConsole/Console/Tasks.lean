import PublisherConsole.Console.App

/-!
# Work in the background

Fetches and saves run beside the console. `Tasks.spawn` takes over what the console has queued: a
new fetch replaces every older one, saves line up. `Tasks.collect` hands the finished ones over,
the fetches first, in the order in which they were taken over. `η` is what the host knows running
work by.
-/

namespace PublisherConsole

/-- How far a piece of work has come. -/
inductive Progress (η ρ : Type)
  | waiting
  | running (handle : η)
  | finished (result : ρ)
  deriving Repr, Inhabited

namespace Progress

variable {η ρ : Type}

/-- Start work that waits; other work is left alone. -/
def start (handle : η) : Progress η ρ → Progress η ρ
  | .waiting => .running handle
  | p => p

/-- End running work with its result; other work is left alone. -/
def finish (result : ρ) : Progress η ρ → Progress η ρ
  | .running _ => .finished result
  | p => p

end Progress

/-- A fetch that was taken over. -/
structure LoadTask (η : Type) where
  ticket : Definition.Ticket
  progress : Progress η (Except Definition.LoadFault Definition.Directory)
  deriving Repr, Inhabited

/-- A save that was taken over. -/
structure SaveTask (η : Type) where
  request : SaveRequest
  progress : Progress η (Except Storage.Fault Record)
  deriving Repr, Inhabited

/-- All work in the background. -/
structure Tasks (η : Type) where
  loads : List (LoadTask η)
  saves : List (SaveTask η)
  deriving Repr, Inhabited

namespace Tasks

variable {η : Type}

/-- No work. -/
def none : Tasks η := ⟨[], []⟩

/-- Take over what the console has queued. -/
def spawn (t : Tasks η) (a : App) : Tasks η × App :=
  ( { loads := match a.pendingLoad with
        | some ticket => [⟨ticket, .waiting⟩]
        | .none => t.loads
      saves := match a.pendingSave with
        | some request => t.saves ++ [⟨request, .waiting⟩]
        | .none => t.saves }
  , { a with pendingLoad := .none, pendingSave := .none } )

/-- Hand over the finished fetches; the others are left. -/
def collectLoads : List (LoadTask η) → App → List (LoadTask η) × App
  | [], a => ([], a)
  | task :: rest, a =>
    match task.progress with
    | .finished result => collectLoads rest (a.deliverServers task.ticket result)
    | _ =>
      let (left, a) := collectLoads rest a
      (task :: left, a)

/-- Hand over the finished saves; the others are left. -/
def collectSaves : List (SaveTask η) → App → List (SaveTask η) × App
  | [], a => ([], a)
  | task :: rest, a =>
    match task.progress with
    | .finished outcome => collectSaves rest (a.completeSave task.request.pending.field outcome)
    | _ =>
      let (left, a) := collectSaves rest a
      (task :: left, a)

/-- Hand over everything that is finished. -/
def collect (t : Tasks η) (a : App) : Tasks η × App :=
  let (loads, a) := collectLoads t.loads a
  let (saves, a) := collectSaves t.saves a
  (⟨loads, saves⟩, a)

/-- Change how far the fetch with the given number has come. -/
def modifyLoad (t : Tasks η) (i : Nat)
    (f : Progress η (Except Definition.LoadFault Definition.Directory) →
      Progress η (Except Definition.LoadFault Definition.Directory)) : Tasks η :=
  { t with loads := t.loads.modify i fun task => { task with progress := f task.progress } }

/-- Change how far the save with the given number has come. -/
def modifySave (t : Tasks η) (i : Nat)
    (f : Progress η (Except Storage.Fault Record) → Progress η (Except Storage.Fault Record)) :
    Tasks η :=
  { t with saves := t.saves.modify i fun task => { task with progress := f task.progress } }

/-- Give up the fetch with the given number. -/
def dropLoad (t : Tasks η) (i : Nat) : Tasks η := { t with loads := t.loads.eraseIdx i }

end Tasks

end PublisherConsole
