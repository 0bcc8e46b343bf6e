import Predistortion.Capture.Limits
import Predistortion.Capture.Record
import Predistortion.Session.Pins
import Predistortion.Session.Tables

/-!
# Captures of a session

A capture is configured, triggered, polled for and read back; the session keeps the phase. A failure
of the device or the bus during any of these operations moves the session to the phase `failed`, in
which no capture is triggered or polled for. The parts of the record are also read and written on
their own.
-/

namespace Predistortion.Session

open SessionM
open Capture (Config Control Level Threshold Boundary Status Samples Buffer Data Phase)

/-! ## The phase -/

/-- Runs an operation and moves to the phase `failed` when it ends with a hardware failure. -/
def tracked {α : Type} (m : SessionM α) : SessionM α := fun s =>
  match m s with
  | .ok a s => .ok a s
  | .error e s => .error e (if e.isHardwareFailure then { s with phase := .failed } else s)

/-- Moves to a phase. -/
def setPhase (phase : Phase) : SessionM Unit := modify ({ · with phase })

/-- Gives up a capture, or leaves the phase `failed`. -/
def resetPhase : SessionM Unit := setPhase .idle

/-- Refuses an operation in the phase `failed`. -/
def requireNotFailed (operation : String) : SessionM Unit := do
  let phase := (← get).phase
  if phase = .failed then throw (.phase operation phase.label)

/-! ## The record -/

/-- Writes a part of the capture record. -/
def writeCapture (offset : UInt16) (data : Bytes) : SessionM Unit :=
  perform (.objectWrite Object.capture offset data)

/-- Reads a part of the capture record. -/
def readCapture (offset : UInt16) (length : Nat) : SessionM Bytes :=
  perform (.objectRead Object.capture offset length)

/-- Configures captures: routes the trigger pin, assigns the completion pin, writes the record. -/
def setConfig (config : Config) : SessionM Unit := do
  checked config.check
  tracked do
    routeTriggerPin config.triggerPin
    setDonePin config.donePin
    writeCapture 0 config.encode
  setPhase .configured

/-- The configuration of captures. The trigger pin is the one that the session remembers, the
completion pin the one that has the tag. -/
def config : SessionM Config :=
  tracked do
    let donePin ← donePin
    let record ← readCapture 0 Config.recordLength
    ofExcept (Config.decode record (← get).triggerPin donePin)

/-- Writes the control part. -/
def setControl (control : Control) : SessionM Unit := do
  checked control.check
  tracked (writeCapture Control.offset control.encode)

/-- The control part. -/
def control : SessionM Control := do
  let record ← tracked (readCapture Control.offset Control.recordLength)
  ofExcept (Control.decode record)

/-- Writes the level part. -/
def setLevel (level : Level) : SessionM Unit :=
  tracked (writeCapture Level.offset level.encode)

/-- The level part. -/
def level : SessionM Level := do
  let record ← tracked (readCapture Level.offset Level.recordLength)
  ofExcept (Level.decode record)

/-- Writes the thresholds of a boundary. -/
def setThreshold (boundary : Boundary) (threshold : Threshold) : SessionM Unit := do
  checked threshold.check
  tracked (writeCapture boundary.offset threshold.encode)

/-- The thresholds of a boundary. -/
def threshold (boundary : Boundary) : SessionM Threshold := do
  let record ← tracked (readCapture boundary.offset Threshold.recordLength)
  ofExcept (Threshold.decode record)

/-! ## Triggering and polling -/

/-- Arms a capture at the time-division edge, past the mailbox. -/
def armTdd (c : Channel) : SessionM Unit :=
  perform (.registerWrite tddTriggerRegister (tddTriggerTag ||| c.bit))

/-- Triggers a capture by the control part that is on the device. -/
def trigger : SessionM Unit := do
  requireNotFailed "start capture"
  let control ← control
  tracked <|
    if control.trigger = .tddTxOn then armTdd control.channel
    else execute Command.triggerCapture
  setPhase .armed

/-- The bit of the answer that says that a capture is complete. -/
def doneFlag : UInt8 := 0x01

/-- Asks the firmware whether a capture is complete. -/
def queryDone : SessionM Bool := do
  execute Command.captureDone
  let flag ← perform (.memoryRead mailboxGet 1)
  return flag.byteAt 0 &&& doneFlag != 0

/-- Asks whether a capture is complete; if so, clears the flag. The answer is `true` only when the
flag was cleared. -/
def pollDone : SessionM Bool := do
  requireNotFailed "poll capture done"
  if !(← tracked queryDone) then return false
  tracked (execute Command.clearCaptureDone)
  setPhase .done
  return true

/-- Clears the flag that a capture is complete. -/
def clearDone : SessionM Unit := do
  tracked (execute Command.clearCaptureDone)
  setPhase .idle

/-- Hands the capture buffers back to the firmware. -/
def readDone : SessionM Unit := do
  tracked (execute Command.captureReadDone)
  setPhase .idle

/-- The capture status of a channel. -/
def captureStatus (c : Channel) : SessionM Status :=
  tracked do
    execute (Command.captureStatus c)
    let record ← perform (.memoryRead mailboxGet Status.recordLength)
    ofExcept (Status.decode record)

/-! ## Reading back -/

/-- The most samples of a buffer. -/
def maxSamples : Nat := 4096

/-- The bytes of a sample. -/
def sampleBytes : Nat := 4

/-- The address of a buffer. -/
def bufferAddress : Buffer → UInt32
  | .tx => captureTx
  | .txAlt => captureTxAlt
  | .orx => captureOrx

/-- Reads samples from a buffer, as many as are asked for and the buffer can hold. Nothing is asked
of the chip for no samples. -/
def readBuffer (buffer : Buffer) (count : Nat) : SessionM Samples := do
  let count := min count maxSamples
  if count = 0 then return []
  let bytes ← tracked (perform (.bulkRead (bufferAddress buffer) (count * sampleBytes) true))
  return Samples.ofBytes bytes

/-- The tables that hold the samples of an extended peak search. -/
def peakTables : List Table := [27, 28, 29, 30].filterMap Table.ofRaw?

/-- The pages of table memory that hold the samples of an extended peak search: the banks of these
tables, in order. -/
def peakPages (count : Nat) : List (Table × Bank) :=
  (peakTables.flatMap fun t => Bank.all.map fun b => (t, b)).take count

/-- Reads up to `count` samples from pages of table memory. -/
def readPages (c : Channel) : List (Table × Bank) → Nat → SessionM Samples
  | [], _ => return []
  | (t, b) :: rest, count => do
    if count = 0 then return []
    let page ← readTable c t b Table.bankBytes
    let wanted := min count (Table.bankBytes / sampleBytes)
    let samples := Samples.ofBytes (page.take (wanted * sampleBytes))
    return samples ++ (← readPages c rest (count - wanted))

/-- Reads the samples of the configured capture. An extended peak search leaves them in the table
memory of the first two channels and has no alternate samples. -/
def readSamples : SessionM Data := do
  let control ← control
  let count := control.size.samples
  if control.trigger = .extendedPeak then
    let pages := peakPages control.size.pages
    let tx ← readPages .tx1 pages count
    let orx ← readPages .tx2 pages count
    return { tx, txAlt := [], orx }
  else
    let tx ← readBuffer .tx count
    let txAlt ← readBuffer .txAlt count
    let orx ← readBuffer .orx count
    return { tx, txAlt, orx }

/-- The outcome of reading and then releasing: the error of the reading, else that of the release,
else what was read. -/
def readThenRelease {α : Type} (read : Except Error α) (released : Except Error Unit) :
    Except Error α :=
  match read, released with
  | .error e, _ => .error e
  | .ok _, .error e => .error e
  | .ok a, .ok () => .ok a

/-- Reads the samples of the configured capture and hands the buffers back, also when the reading
failed. -/
def captureData : SessionM Data := do
  let data ← tracked do
    let read ← attempt readSamples
    let released ← attempt (execute Command.captureReadDone)
    ofExcept (readThenRelease read released)
  setPhase .idle
  return data

end Predistortion.Session
