import PublisherConsole.Storage.FileStore

/-!
# Callers that share a store

Updates of several callers may overlap. Each caller takes the one lock, performs its calls one by
one while others may try to take the lock, and releases it with its result. A step lets one caller
go on by one call.
-/

namespace PublisherConsole.Storage

/-- How far a caller has come. -/
inductive Caller (α : Type)
  | waiting (work : Script α)
  | working (work : Script α)
  | finished (result : α)

/-- The callers of a store, the files they work on, and who holds the lock. -/
structure Shared (α : Type) where
  tree : FileTree
  holder : Option Nat
  callers : List (Caller α)

namespace Shared

variable {α : Type}

/-- Callers that have not begun. -/
def start (tree : FileTree) (work : List (Script α)) : Shared α :=
  ⟨tree, none, work.map .waiting⟩

/-- Let one caller go on. -/
def step (s : Shared α) (i : Nat) : Shared α :=
  match s.callers[i]? with
  | some (.waiting work) =>
    if s.holder = none then
      { s with holder := some i, callers := s.callers.set i (.working work) }
    else s
  | some (.working (.done a)) =>
    { s with holder := none, callers := s.callers.set i (.finished a) }
  | some (.working (.step call next)) =>
    let (reply, tree) := s.tree.answer call
    { s with tree, callers := s.callers.set i (.working (next reply)) }
  | _ => s

/-- Let callers go on in the given order. -/
def run (s : Shared α) (schedule : List Nat) : Shared α := schedule.foldl step s

/-- The number of calls of a script on a tree. -/
def callCount : FileTree → Script α → Nat
  | _, .done _ => 0
  | t, .step call next => callCount (t.answer call).2 (next (t.answer call).1) + 1

/-- The number of steps that take a caller to its end when no other caller steps in between. -/
def stepsLeft (t : FileTree) : Caller α → Nat
  | .waiting work => callCount t work + 2
  | .working work => callCount t work + 1
  | .finished _ => 0

/-- Let one caller go on until it has finished. -/
def finish (s : Shared α) (i : Nat) : Shared α :=
  match s.callers[i]? with
  | some caller => s.run (List.replicate (stepsLeft s.tree caller) i)
  | none => s

/-- Let each caller go on until it has finished, in the order in which they came. -/
def settle (s : Shared α) : Shared α := (List.range s.callers.length).foldl finish s

/-- The results of the callers that have finished. -/
def results (s : Shared α) : List α :=
  s.callers.filterMap fun
    | .finished a => some a
    | _ => none

end Shared

end PublisherConsole.Storage
