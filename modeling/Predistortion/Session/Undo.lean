import Predistortion.Chip.Transport

/-!
# Undoing changes of pins

A change of several pins can fail halfway. `RewireM` is a computation that notes, after each step
that succeeded, how to reverse it; `rollback` replays these notes, the newest first. A step that
cannot be reversed is counted and does not stop the others.
-/

namespace Predistortion

/-- How to reverse a step that succeeded. -/
inductive UndoStep where
  /-- Claim a pin that was released. -/
  | reacquire (pin : Pin) (feature : Feature)
  /-- Release a pin that was claimed. -/
  | release (pin : Pin) (feature : Feature)
  /-- Restore the direction of a pin. -/
  | direction (pin : Pin) (previous : Direction)
  /-- Restore the source control of a group. -/
  | source (group : SourceGroup) (previous : UInt8)
deriving DecidableEq

/-- Reverses a step; `false` when the table of pins refuses. -/
def UndoStep.undo : UndoStep → ChipM Bool
  | .reacquire pin feature => Chip.perform (.acquire pin feature)
  | .release pin feature => Chip.perform (.release pin feature)
  | .direction pin previous => do
    Chip.perform (.directionSet pin previous)
    return true
  | .source group previous => do
    Chip.perform (.sourceSet group previous)
    return true

/-- The steps to reverse, the newest first. -/
abbrev UndoLog := List UndoStep

/-- Reverses the steps of a log in order. Gives the count of steps that could not be reversed. -/
def UndoLog.rollback : UndoLog → Chip → Nat × Chip
  | [], chip => (0, chip)
  | step :: older, chip =>
    match step.undo chip with
    | .ok true chip => rollback older chip
    | .ok false chip | .error _ chip =>
      let rest := rollback older chip
      (rest.1 + 1, rest.2)

/-- A chip whose pins are being changed. -/
structure Rewiring where
  /-- The chip. -/
  chip : Chip
  /-- The steps that succeeded so far. -/
  log : UndoLog

/-- A computation that changes pins and notes how to reverse it. -/
abbrev RewireM := EStateM Error Rewiring

namespace RewireM

/-- Runs a computation on the chip. -/
def onChip {α : Type} (m : ChipM α) : RewireM α := fun s =>
  match m s.chip with
  | .ok a chip => .ok a { s with chip }
  | .error e chip => .error (.ofTransport e) { s with chip }

/-- Makes a request to the chip. -/
def perform (r : Request) : RewireM r.Reply := onChip (Chip.perform r)

/-- Notes how to reverse the step that has just succeeded. -/
def note (step : UndoStep) : RewireM Unit := fun s => .ok () { s with log := step :: s.log }

end RewireM

end Predistortion
