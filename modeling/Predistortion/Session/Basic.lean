import Predistortion.Capture.Basic
import Predistortion.Chip.Transport
import Predistortion.Session.Command
import Predistortion.Settings.Basic

/-!
# Sessions

A session drives one chip. Beside the chip it holds the settings and what the firmware does not
report back: the trigger pin, whether swap mode is on, and the phase of the capture. Operations are
computations in `SessionM`; one that fails keeps the state that it reached. `execute` sends a
mailbox command and decodes its status, and the register functions read and write 32-bit registers.
-/

namespace Predistortion

/-- A session. -/
structure Session where
  /-- The chip. -/
  chip : Chip
  /-- The settings. -/
  settings : Settings
  /-- The pin that triggers captures. -/
  triggerPin : Pin
  /-- Swap mode, as it was last switched. -/
  swapMode : Bool
  /-- The phase of the capture. -/
  phase : Capture.Phase

namespace Session

/-- A new session. -/
def start (chip : Chip) (settings : Settings) : Session where
  chip
  settings
  triggerPin := .unassigned
  swapMode := false
  phase := .idle

/-- Arguments are checked. -/
def rangeCheck (s : Session) : Bool := s.settings.validation.rangeCheck

end Session

/-- An operation of a session; a failed one keeps the state that it reached. -/
abbrev SessionM := EStateM Error Session

namespace SessionM

variable {α : Type}

/-! ## Building blocks -/

/-- Runs a computation on the chip of the session. -/
def onChip (m : ChipM α) : SessionM α := fun s =>
  match m s.chip with
  | .ok a chip => .ok a { s with chip }
  | .error e chip => .error (.ofTransport e) { s with chip }

/-- Makes a request to the chip. -/
def perform (r : Request) : SessionM r.Reply := onChip (Chip.perform r)

/-- Runs an operation and hands its outcome on instead of failing. -/
def attempt (m : SessionM α) : SessionM (Except Error α) := fun s =>
  match m s with
  | .ok a s => .ok (.ok a) s
  | .error e s => .ok (.error e) s

/-- Makes a check of the arguments, if the settings ask for such checks. -/
def checked (check : Except Error Unit) : SessionM Unit := do
  if (← get).rangeCheck then ofExcept check

/-! ## Mailbox -/

/-- The longest wait of a budget. -/
def timeoutUs (settings : Settings) : Budget → UInt64
  | .ordinary => settings.mailbox.timeoutUs
  | .tableUpdate => settings.mailbox.tableTimeoutUs

/-- Sends a command, waits for its status, and fails if the status flags an error. -/
def execute (k : Command) : SessionM Unit := do
  let settings := (← get).settings
  perform (.command k.opcode k.payload)
  let status ← perform
    (.statusWait k.waitOpcode (timeoutUs settings k.budget) settings.mailbox.intervalUs)
  if status &&& k.errorMask ≠ 0 then
    throw (.command k.opcode k.object status
      (DeviceCode.ofCommandStatus k.waitOpcode k.object status))

/-! ## Registers -/

/-- Reads a 32-bit register. -/
def readRegister (address : UInt32) : SessionM UInt32 := do
  let bytes ← perform (.bulkRead address 4 false)
  return LittleEndian.uint32At bytes 0

/-- Writes a 32-bit register. -/
def writeRegister (address value : UInt32) : SessionM Unit :=
  perform (.bulkWrite address (LittleEndian.ofUInt32 value) false)

/-- Replaces the bits of a mask in a 32-bit register. -/
def updateRegister (address mask value : UInt32) : SessionM Unit := do
  let current ← readRegister address
  writeRegister address (current &&& ~~~mask ||| value &&& mask)

end SessionM

end Predistortion
