import Predistortion.Chip.Transport

/-!
# What requests touch

To serve a request changes some parts of the chip and leaves the others alone. Most mailbox commands
only lead to answers in memory, to changes of channels and to counts of work; the chip apart from
these is its `core`. The trigger and the flag of captures are touched by the commands for the two
objects that are named after them, and by nothing else.

Main statements: no request touches the faults, the list of calls or the automatic completion
(`permanent_serve`), and a request that is no command leaves what the firmware keeps of captures
alone (`captures_serve`).
-/

namespace Predistortion

/-- The request only asks. -/
def Request.isRead (r : Request) : Bool :=
  match r.kind with
  | .objectRead | .memoryRead | .bulkRead | .clockStatus | .sourceGet | .featureGet | .signalGet =>
    true
  | _ => false

namespace Chip

variable (chip : Chip) (payload : Bytes)

/-! ## Commands -/

/-- The chip apart from what most commands work on. -/
def core : Chip :=
  { chip with
    memory := .blank
    channels := .replicate .initial
    readDones := 0
    tableClears := 0 }

/-- The memory is no part of the core, so answers in memory leave it. -/
@[simp] theorem core_writeMemory (address : UInt32) (data : Bytes) :
    (chip.writeMemory address data).core = chip.core := rfl

/-- What is kept for a channel is no part of the core. -/
@[simp] theorem core_modifyChannel (c : Channel) (f : ChannelState → ChannelState) :
    (chip.modifyChannel c f).core = chip.core := rfl

/-- What is kept for the channels of a mask is no part of the core. -/
@[simp] theorem core_modifyChannels (mask : UInt8) (f : ChannelState → ChannelState) :
    (chip.modifyChannels mask f).core = chip.core := rfl

/-- Work on tracking leads to answers, to changes of channels and to counts. None of these is in the
core. -/
theorem core_track (channels sub : UInt8) : (chip.track channels sub).core = chip.core := by
  unfold track
  repeat' split
  all_goals try simp only [core_modifyChannels, core_modifyChannel, core_writeMemory]
  all_goals rfl

/-- A command that asks only puts its answer into the memory, which is not in the core. -/
theorem core_executeGet (object : UInt8) : (chip.executeGet object payload).core = chip.core := by
  unfold executeGet
  repeat' split
  all_goals simp only [core_writeMemory]

/-- A command that sets something leaves the core, unless it is for one of the two objects of
captures. -/
theorem core_executeSet {object : UInt8} (htrigger : object ≠ Object.captureTrigger)
    (hdone : object ≠ Object.captureDone) :
    (chip.executeSet object payload).core = chip.core := by
  unfold executeSet
  rw [if_neg htrigger, if_neg hdone]
  repeat' split
  · rfl
  · rfl
  · exact chip.core_track _ _
  · rfl

/-- A command to trigger a capture is counted, and the capture may complete at once. Whether it does
so is set up with the chip. -/
theorem executeSet_captureTrigger : chip.executeSet Object.captureTrigger payload =
    { chip with
      triggers := chip.triggers + 1
      captureDone := chip.captureDone || chip.autoComplete } := rfl

/-- A command for the flag of captures clears it if its value is zero, and does nothing
otherwise. -/
theorem executeSet_captureDone : chip.executeSet Object.captureDone payload =
    if payload[1]? = some 0 then { chip with captureDone := false } else chip := rfl

/-- What the firmware keeps of captures. -/
def captures : Bool × Nat := (chip.captureDone, chip.triggers)

/-- What no command touches when it is carried out. -/
def fixed : List Fault × List Call × Bool × UInt8 × Std.HashMap UInt8 Bytes :=
  (chip.faults, chip.calls, chip.autoComplete, chip.lastStatus, chip.objects)

/-- What leaves the core leaves all that no command touches, since that is part of the core. -/
theorem fixed_of_core {c : Chip} (h : c.core = chip.core) : c.fixed = chip.fixed := by
  have hcore : c.core.fixed = chip.core.fixed := by rw [h]
  exact hcore

/-- What leaves the core leaves what the firmware keeps of captures: the flag and the count. -/
theorem captures_of_core {c : Chip} (h : c.core = chip.core) : c.captures = chip.captures := by
  have hcore : c.core.captures = chip.core.captures := by rw [h]
  exact hcore

/-- A view of the chip is left by every command, if it shows nothing of what most commands work on
and nothing of captures. -/
theorem view_execute {γ : Type} {f : Chip → γ} (hcore : ∀ c : Chip, f c.core = f c)
    (hcaptures : ∀ (c : Chip) triggers captureDone, f { c with triggers, captureDone } = f c)
    (opcode : UInt8) : f (chip.execute opcode payload) = f chip := by
  have of_core {c : Chip} (h : c.core = chip.core) : f c = f chip := by
    rw [← hcore c, h, hcore]
  have set (object : UInt8) : f (chip.executeSet object payload) = f chip := by
    by_cases htrigger : object = Object.captureTrigger
    · rw [htrigger, executeSet_captureTrigger]
      exact hcaptures ..
    · by_cases hdone : object = Object.captureDone
      · rw [hdone, executeSet_captureDone]
        split
        · exact hcaptures ..
        · rfl
      · exact of_core (chip.core_executeSet payload htrigger hdone)
  unfold execute
  dsimp only
  split
  · exact set _
  · split
    · exact of_core (chip.core_executeGet payload _)
    · rfl

/-- No command touches faults, calls, the automatic completion, the status or the objects when it is
carried out. -/
theorem fixed_execute (opcode : UInt8) : (chip.execute opcode payload).fixed = chip.fixed :=
  chip.view_execute payload (fun _ => rfl) (fun _ _ _ => rfl) opcode

/-- The status that a fault forces on commands for an object, if one does. -/
def forced (object : UInt8) : Option UInt8 := chip.faults.findSome? (·.forcedStatus? object)

/-- A command for which a fault forces a status is not carried out. It is remembered with this
status, which is what the wait for it answers. -/
theorem takeCommand_of_forced (opcode : UInt8) {status : UInt8}
    (h : chip.forced (payload.byteAt 0) = some status) :
    chip.takeCommand opcode payload =
      { chip with lastObject := payload.byteAt 0, lastStatus := status } := by
  simp only [forced] at h
  simp only [takeCommand, h]

/-- Any other command is remembered with status zero and carried out. Only a fault keeps the
firmware from it. -/
theorem takeCommand_of_not_forced (opcode : UInt8) (h : chip.forced (payload.byteAt 0) = none) :
    chip.takeCommand opcode payload =
      { chip with lastObject := payload.byteAt 0, lastStatus := 0 }.execute opcode payload := by
  simp only [forced] at h
  simp only [takeCommand, h]

/-! ## Requests that only ask -/

/-- A request that is served by an answer alone. -/
theorem serve_of_isRead {r : Request} (h : r.isRead = true) : (chip.serve r).2 = chip := by
  cases r <;> first | rfl | cases h

/-! ## All requests -/

/-- A stream only gates clocks, which belong to the channels. -/
theorem core_runStream (stream : UInt8) : (chip.runStream stream).core = chip.core := by
  unfold runStream
  dsimp only
  repeat' split
  all_goals rfl

/-- What only commands and writes of objects may touch. -/
def still : List Fault × List Call × Bool × (Bool × Nat) × Std.HashMap UInt8 Bytes :=
  (chip.faults, chip.calls, chip.autoComplete, chip.captures, chip.objects)

/-- A request that is neither a command nor a write to an object leaves faults, calls, captures and
objects alone. -/
theorem still_serve {r : Request} (hcommand : r.kind ≠ .command) (hwrite : r.kind ≠ .objectWrite) :
    (chip.serve r).2.still = chip.still := by
  cases r with
  | command opcode payload => exact absurd rfl hcommand
  | objectWrite object offset data => exact absurd rfl hwrite
  | streamStart stream =>
    have hcore : (chip.runStream stream).core.still = chip.core.still := by rw [core_runStream]
    exact hcore
  | acquire pin feature => simp only [serve]; split <;> rfl
  | release pin feature => simp only [serve]; split <;> rfl
  | signalSet signal pin => cases signal <;> rfl
  | _ => rfl

/-- To take a command changes one thing among the objects, the pins, the faults and the status: the
status becomes the one that a fault forces, or zero. -/
theorem fixed_takeCommand (opcode : UInt8) :
    (chip.takeCommand opcode payload).fixed =
      { chip with lastStatus := (chip.forced (payload.byteAt 0)).getD 0 }.fixed := by
  cases h : chip.forced (payload.byteAt 0) with
  | some status => rw [takeCommand_of_forced _ _ _ h]; rfl
  | none =>
    rw [takeCommand_of_not_forced _ _ _ h, fixed_execute]
    rfl

/-- What no request touches when it is served. -/
def permanent : List Fault × List Call × Bool := (chip.faults, chip.calls, chip.autoComplete)

/-- No request touches faults, calls or the automatic completion when it is served. Calls are
entered outside. -/
theorem permanent_serve (r : Request) : (chip.serve r).2.permanent = chip.permanent := by
  by_cases hcommand : r.kind = .command
  · cases r with
    | command opcode payload =>
      have hfixed := chip.fixed_takeCommand payload opcode
      simp only [fixed, Prod.mk.injEq] at hfixed
      obtain ⟨hfaults, hcalls, hauto, -⟩ := hfixed
      simp only [permanent, serve, hfaults, hcalls, hauto]
    | _ => cases hcommand
  · by_cases hwrite : r.kind = .objectWrite
    · cases r with
      | objectWrite object offset data => rfl
      | _ => cases hwrite
    · have hstill := chip.still_serve hcommand hwrite
      simp only [still, Prod.mk.injEq] at hstill
      obtain ⟨hfaults, hcalls, hauto, -⟩ := hstill
      simp only [permanent, hfaults, hcalls, hauto]

/-- A request that is no command leaves what the firmware keeps of captures alone. So only commands
can complete a capture, or take back that one completed. -/
theorem captures_serve {r : Request} (hcommand : r.kind ≠ .command) :
    (chip.serve r).2.captures = chip.captures := by
  by_cases hwrite : r.kind = .objectWrite
  · cases r with
    | objectWrite object offset data => rfl
    | _ => cases hwrite
  · have hstill := chip.still_serve hcommand hwrite
    simp only [still, Prod.mk.injEq] at hstill
    exact hstill.2.2.2.1

end Chip

end Predistortion
