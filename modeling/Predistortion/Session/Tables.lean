import Predistortion.Actuator.Table
import Predistortion.Capture.Basic
import Predistortion.Session.Basic

/-!
# Tables of a session

The actuator exposes a table to memory accesses only while the table is powered, the actuator is
enabled, its clock runs and its memory access points at the table. Every access therefore opens the
table first and restores the actuator afterwards.
-/

namespace Predistortion.Session

open SessionM

/-! ## The actuator clock -/

/-- Looks at the clock of a channel until it is in the wanted state, at most `n` times. -/
def awaitClock (c : Channel) (on : Bool) : Nat → SessionM Bool
  | 0 => return false
  | n + 1 => do
    let running ← perform (.clockStatus c)
    if running = on then return true else awaitClock c on n

/-- Starts or stops the clock of a channel and waits until it has followed. -/
def setClock (c : Channel) (on : Bool) : SessionM Unit := do
  perform (.registerWrite clockChannelRegister c.bit)
  perform (.registerWrite clockActionRegister (if on then clockEnable else clockDisable))
  perform (.streamStart clockStream)
  let clock := (← get).settings.clock
  if !(← awaitClock c on clock.attempts.toNat) then
    throw (.timeout "actuator clock" (clock.attempts.toUInt64 * clock.intervalMs * 1000))

/-! ## Register fields -/

/-- A table is powered. -/
def tablePower (c : Channel) (t : Table) : SessionM Bool := do
  let off ← readRegister c.block.tablePower
  return off &&& t.powerBit == 0

/-- Powers a table on or off. -/
def setTablePower (c : Channel) (t : Table) (on : Bool) : SessionM Unit :=
  updateRegister c.block.tablePower t.powerBit (if on then 0 else t.powerBit)

/-- The enable and passthru bits of a channel. -/
def enablePassthru (c : Channel) : SessionM (Bool × Bool) := do
  let config ← readRegister c.block.config
  return (config &&& ConfigBit.enable != 0, config &&& ConfigBit.passthru != 0)

/-- Sets the enable and passthru bits of a channel. -/
def setEnablePassthru (c : Channel) (enable passthru : Bool) : SessionM Unit :=
  updateRegister c.block.config (ConfigBit.enable ||| ConfigBit.passthru)
    ((if enable then ConfigBit.enable else 0) ||| (if passthru then ConfigBit.passthru else 0))

/-- The table at which memory accesses point. -/
def ramSelect (c : Channel) : SessionM Table := do
  let mode ← readRegister c.block.mode
  return Table.ofMode mode

/-- Points memory accesses at a table. -/
def setRamSelect (c : Channel) (t : Table) : SessionM Unit :=
  updateRegister c.block.mode ramSelectMask t.raw.toUInt32

/-- Where the transmit signal is observed. -/
def txTap (c : Channel) : SessionM Capture.TxTap := do
  let config ← readRegister c.block.config
  return if config &&& ConfigBit.txTap ≠ 0 then .preActuator else .postActuator

/-- Chooses where the transmit signal is observed. -/
def setTxTap (c : Channel) (tap : Capture.TxTap) : SessionM Unit :=
  updateRegister c.block.config ConfigBit.txTap (if tap = .preActuator then ConfigBit.txTap else 0)

/-- Where the alternate signal is observed. -/
def altTap (c : Channel) : SessionM Capture.AltTap := do
  let config ← readRegister c.block.config
  return if config &&& ConfigBit.altTap ≠ 0 then .preCfr else .actuator

/-- Chooses where the alternate signal is observed. -/
def setAltTap (c : Channel) (tap : Capture.AltTap) : SessionM Unit :=
  updateRegister c.block.config ConfigBit.altTap (if tap = .preCfr then ConfigBit.altTap else 0)

/-! ## The swap-mode flag -/

/-- Switches swap mode in the firmware and remembers it. -/
def setSwapMode (on : Bool) : SessionM Unit := do
  perform (.objectWrite Object.swapMode 0 [if on then 1 else 0])
  modify ({ · with swapMode := on })

/-- Swap mode is on, according to the source that the settings name. -/
def isSwapMode : SessionM Bool := do
  let s ← get
  match s.settings.tables.swapSource with
  | .cache => return s.swapMode
  | .device =>
    let flag ← perform (.objectRead Object.swapMode 0 1)
    return flag.byteAt 0 != 0

/-! ## Access -/

/-- What opening a table changes. -/
structure OpenState where
  /-- The table was powered. -/
  powered : Bool
  /-- The actuator was enabled. -/
  enabled : Bool
  /-- The signal passed the actuator by. -/
  passthru : Bool
  /-- The table at which memory accesses pointed. -/
  ramSelect : Table
deriving DecidableEq

/-- Opens a table for memory accesses. Gives the state before. -/
def openTable (c : Channel) (t : Table) : SessionM OpenState := do
  let powered ← tablePower c t
  setTablePower c t true
  let (enabled, passthru) ← enablePassthru c
  setEnablePassthru c true passthru
  setClock c true
  let selected ← ramSelect c
  setRamSelect c t
  return { powered, enabled, passthru, ramSelect := selected }

/-- Writes data into a table from a bank on. The enable and passthru bits are restored; the power
only if the settings say so; the memory access only while swap mode is off. The clock is stopped. -/
def writeTable (c : Channel) (t : Table) (b : Bank) (data : Bytes) : SessionM Unit := do
  checked (Table.checkAccess b data.machineLength)
  let before ← openTable c t
  perform (.bulkWrite (Table.address c t b) data true)
  setEnablePassthru c before.enabled before.passthru
  if (← get).settings.tables.restorePower then setTablePower c t before.powered
  if !(← isSwapMode) then setRamSelect c before.ramSelect
  setClock c false

/-- Reads the bytes of a table from a bank on. Power, enable and passthru bits and the memory access
are restored, and the clock is stopped. -/
def readTable (c : Channel) (t : Table) (b : Bank) (length : Nat) : SessionM Bytes := do
  checked (Table.checkAccess b (UInt64.ofNat length))
  let before ← openTable c t
  let data ← perform (.bulkRead (Table.address c t b) length true)
  setTablePower c t before.powered
  setEnablePassthru c before.enabled before.passthru
  setRamSelect c before.ramSelect
  setClock c false
  return data

/-- Clears every table of every channel. -/
def clearTables : SessionM Unit := execute Command.clearTables

end Predistortion.Session
