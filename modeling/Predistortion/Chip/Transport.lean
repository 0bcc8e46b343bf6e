import Predistortion.Chip.Firmware

/-!
# Calls on the chip

`Chip.perform` is the only way in which a session touches the chip. It looks for a fault that
refuses the request; a refused request changes nothing but the list of calls. A request that is
served has the effect of `Chip.serve`, and a transaction enters the journal.
-/

namespace Predistortion

/-- A computation on the chip; a failed one keeps the state that it reached. -/
abbrev ChipM := EStateM TransportError Chip

namespace Chip

/-- The error with which a request is refused, if any. Faults that refuse a kind of call come first,
in the order of injection; a status wait then reports the firmware error of the last command. -/
def refusal? (chip : Chip) (r : Request) : Option TransportError :=
  match chip.faults.findSome? (·.refusal? r.kind (chip.callCount r.kind + 1)) with
  | some e => some e
  | none =>
    match r with
    | .statusWait opcode _ _ =>
      (chip.faults.findSome? (·.deviceCode? chip.lastObject)).map
        (.device opcode chip.lastObject ·)
    | _ => none

/-- The reply to a request, and the chip after serving it. -/
def serve (chip : Chip) : (r : Request) → r.Reply × Chip
  | .command opcode payload => ((), chip.takeCommand opcode payload)
  | .statusWait .. => (chip.lastStatus, chip)
  | .objectWrite object offset data => ((), chip.writeObject object offset data)
  | .objectRead object offset length => ((chip.object object).window offset.toNat length, chip)
  | .memoryWrite address data => ((), chip.writeMemory address data)
  | .memoryRead address length => (chip.memory.readRun address length, chip)
  | .bulkWrite address data _ => ((), chip.writeMemory address data)
  | .bulkRead address length _ => (chip.memory.readRun address length, chip)
  | .registerWrite address value =>
    ((), { chip with registers := chip.registers.insert address value })
  | .streamStart stream => ((), chip.runStream stream)
  | .clockStatus c => ((chip.channel c).clock, chip)
  | .sourceGet group => (chip.pins.source group, chip)
  | .sourceSet group value => ((), { chip with pins := chip.pins.setSource group value })
  | .directionSet pin direction => ((), { chip with pins := chip.pins.setDirection pin direction })
  | .featureGet pin => (chip.pins.feature pin, chip)
  | .acquire pin feature =>
    if pin.isAssigned && (chip.pins.feature pin == .unused || chip.pins.feature pin == feature) then
      (true, { chip with pins := chip.pins.setFeature pin feature })
    else
      (false, chip)
  | .release pin feature =>
    if pin.isAssigned && chip.pins.feature pin == feature then
      (true, { chip with pins := chip.pins.setFeature pin .unused })
    else
      (false, chip)
  | .streamPinSet signal pin => ((), { chip with streamPins := chip.streamPins.insert signal pin })
  | .signalSet signal pin => ((), chip.setSignal signal pin)
  | .signalGet signal => (chip.signal signal, chip)

/-- The chip with a call added to the list of calls. -/
def recordCall (chip : Chip) (call : Call) : Chip := { chip with calls := call :: chip.calls }

/-- The chip with a request added to the journal, if it is a transaction. -/
def recordJournal (chip : Chip) (r : Request) : Chip :=
  if r.isTransaction then { chip with journal := r :: chip.journal } else chip

/-- Makes a request. -/
def perform (r : Request) : ChipM r.Reply := fun chip =>
  match chip.refusal? r with
  | some e => .error e (chip.recordCall ⟨r, .error e⟩)
  | none =>
    let answer := chip.serve r
    .ok answer.1 ((answer.2.recordJournal r).recordCall ⟨r, .ok answer.1⟩)

/-- A refused request fails with the refusal and changes nothing but the list of calls, in which it
stands with the refusal as its outcome. -/
theorem perform_of_refusal {chip : Chip} {r : Request} {e : TransportError}
    (h : chip.refusal? r = some e) :
    perform r chip = .error e (chip.recordCall ⟨r, .error e⟩) := by
  simp [perform, h]

/-- A request that nothing refuses is served. It is entered in the list of calls with its answer,
and in the journal if it is a transaction. -/
theorem perform_of_not_refusal {chip : Chip} {r : Request} (h : chip.refusal? r = none) :
    perform r chip =
      .ok (chip.serve r).1
        (((chip.serve r).2.recordJournal r).recordCall ⟨r, .ok (chip.serve r).1⟩) := by
  simp [perform, h]

/-- Without faults nothing is refused. -/
theorem refusal?_of_no_faults {chip : Chip} (h : chip.faults = []) (r : Request) :
    chip.refusal? r = none := by
  cases r <;> simp [refusal?, h]

end Chip

end Predistortion
