import Predistortion.Channel

/-!
# Register map

The numbers that the chip and its firmware understand: opcodes, object numbers, sub-commands, memory
addresses and register bits. A channel's registers lie in one block of its own (`ChannelBlock`), and
its table memory in another.
-/

namespace Predistortion

/-! ## Mailbox commands -/

namespace Opcode

/-- Writes an object. -/
def set : UInt8 := 0x0A

/-- Reads an object. -/
def get : UInt8 := 0x0C

end Opcode

namespace Object

/-- The status that calibrations keep. -/
def calibrationStatus : UInt8 := 0x42

/-- The predistortion calibration. -/
def predistortion : UInt8 := 0x4A

/-- The control of tracking calibrations. -/
def trackingControl : UInt8 := 0x83

/-- The enable bits of the actuators. -/
def actuatorEnable : UInt8 := 0xC0

/-- The models that the actuators run. -/
def modelSelect : UInt8 := 0xC1

/-- The start of a capture. -/
def captureTrigger : UInt8 := 0xC2

/-- The flag that a capture is complete. -/
def captureDone : UInt8 := 0xC3

/-- The capture record. -/
def capture : UInt8 := 0xC4

/-- The model records, one for each channel. -/
def model : UInt8 := 0xC5

/-- The gain-monitor records. -/
def gainMonitor : UInt8 := 0xC6

/-- The swap-mode flag. -/
def swapMode : UInt8 := 0xC7

/-- The model records, two for each channel. -/
def dualModel : UInt8 := 0xC8

end Object

namespace Tracking

/-- Reads the clipper record of a channel. -/
def clipperGet : UInt8 := 0x00

/-- Reads the clip counter of a channel. -/
def clipCountGet : UInt8 := 0x01

/-- Reads how the last promotion of staged tables went. -/
def promotionStatus : UInt8 := 0x04

/-- Writes the clipper record of channels. -/
def clipperSet : UInt8 := 0x10

/-- Zeroes the clip counter of channels. -/
def clipCountReset : UInt8 := 0x11

/-- Says that the captured samples have been read. -/
def captureReadDone : UInt8 := 0x12

/-- Clears all tables. -/
def tableClear : UInt8 := 0x13

/-- Promotes the staged tables. -/
def promote : UInt8 := 0x14

end Tracking

/-- The status bits that flag an error of a tracking command. -/
def trackingErrorMask : UInt8 := 0x0E

/-- The status bits that flag an error of a direct command. -/
def directErrorMask : UInt8 := 0xFE

/-! ## Memory -/

/-- The scratch area in which payloads are handed over. -/
def mailboxSet : UInt32 := 0x20028000

/-- The scratch area in which answers are returned. -/
def mailboxGet : UInt32 := 0x20028100

/-- The buffer of the transmit observation. -/
def captureTx : UInt32 := 0x61400000

/-- The buffer of the alternate transmit observation. -/
def captureTxAlt : UInt32 := 0x61440000

/-- The buffer of the observation receiver. -/
def captureOrx : UInt32 := 0x61480000

/-- The first row of the staging area. -/
def stagingBase : UInt32 := 0x62020000

/-- The distance between rows of the staging area. -/
def stagingStride : UInt32 := 1024

/-! ## Serial registers and streams -/

/-- The register that arms a capture at the time-division edge. -/
def tddTriggerRegister : UInt16 := 0x00EE

/-- The tag that accompanies the channel bit in that register. -/
def tddTriggerTag : UInt8 := 0x10

/-- The register that names the channel whose clock is gated. -/
def clockChannelRegister : UInt16 := 0x15B7

/-- The register that says how the clock is gated. -/
def clockActionRegister : UInt16 := 0x17B7

/-- The stream that gates the clock. -/
def clockStream : UInt8 := 0x9C

/-- The action that starts the clock. -/
def clockEnable : UInt8 := 0x02

/-- The action that stops the clock. -/
def clockDisable : UInt8 := 0x01

/-! ## Channel blocks -/

/-- The addresses of one channel. -/
structure ChannelBlock where
  /-- The table memory: 32 tables of four banks of 1024 bytes. -/
  tables : UInt32
  /-- The configuration register. -/
  config : UInt32
  /-- The mode register. -/
  mode : UInt32
  /-- The power register, one bit for each table, set when the table is off. -/
  tablePower : UInt32
  /-- The status register. -/
  status : UInt32
deriving DecidableEq

/-- The addresses of a channel. -/
def Channel.block : Channel → ChannelBlock
  | .tx1 => ⟨0x61800000, 0x49080000, 0x49080004, 0x49080010, 0x49080020⟩
  | .tx2 => ⟨0x61900000, 0x49180000, 0x49180004, 0x49180010, 0x49180020⟩
  | .tx3 => ⟨0x61A00000, 0x49280000, 0x49280004, 0x49280010, 0x49280020⟩
  | .tx4 => ⟨0x61B00000, 0x49380000, 0x49380004, 0x49380010, 0x49380020⟩

namespace ConfigBit

/-- The actuator is enabled. -/
def enable : UInt32 := 0x00000001

/-- The signal passes the actuator by. -/
def passthru : UInt32 := 0x00000002

/-- Transmit observation lies before the actuator. -/
def txTap : UInt32 := 0x00010000

/-- Alternate observation lies before the crest-factor reduction. -/
def altTap : UInt32 := 0x00200000

end ConfigBit

/-- The bits of the mode register that select the table exposed to memory accesses. -/
def ramSelectMask : UInt32 := 0x1F

end Predistortion
