import PublisherConsole.Terminal.Host

/-!
# Typing at a console

A typist sits at a hosted console and types one text after the other. An empty text is a short rest;
during long rests the console gets ticks. In the end the typist interrupts the console until it is
left.
-/

namespace PublisherConsole.Simulation

open Storage (Script Stamp)
open Terminal (Host Input.feed)

/-- The milliseconds of a rest. -/
def restSpan : Nat := 10

/-- The milliseconds without events after which a tick comes. -/
def tickSpan : Nat := 250

/-- How often the typist interrupts at most. Help, a save that is under way and the dialog each take
one time, and leaving the overview the last one. -/
def interruptLimit : Nat := 8

/-- The control key with the letter that interrupts. -/
def interrupt : Event := .key { key := .char 'c', control := true }

/-- Type texts. `waiting` are characters that make no event yet, `rest` the milliseconds since the
last event. -/
def typeTexts (h : Host) (stamp : Stamp) :
    List String → List Char → Nat → Desk Unit → Script (Desk Unit)
  | [], _, _, d => .done d
  | text :: texts, waiting, rest, d =>
    if text.isEmpty then
      if rest + restSpan < tickSpan then typeTexts h stamp texts waiting (rest + restSpan) d
      else do
        let d ← h.turns stamp d [.tick]
        typeTexts h stamp texts waiting 0 d
    else do
      let (events, waiting) := Input.feed waiting text.toList
      let d ← h.turns stamp d events
      typeTexts h stamp texts waiting 0 d

/-- Type texts and leave the console. -/
def typeAndLeave (h : Host) (stamp : Stamp) (texts : List String) : Script (Desk Unit) := do
  let d ← typeTexts h stamp texts [] 0 h.start
  h.turns stamp d (List.replicate interruptLimit interrupt)

end PublisherConsole.Simulation
