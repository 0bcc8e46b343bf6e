import Predistortion.Actuator.Staging
import Predistortion.Actuator.Swap
import Predistortion.Session.Actuator

/-!
# Batches of tables

Two ways to write many tables at once. In swap mode every payload is written twice, to its own table
in the active bank and to the next table in the holding bank. For the model that is not running,
tables are staged in memory and promoted by the firmware.
-/

namespace Predistortion.Session

open SessionM

/-! ## Swap mode -/

/-- Refuses a swap-mode write while swap mode is off. -/
def requireSwapMode (on : Bool) : Except Error Unit :=
  if on then .ok ()
  else .error (.invalid "swapMode" "false" "LUT swap mode must be enabled first")

/-- Writes the payloads of a set in swap mode: all of them to the active bank, then all of them to
the holding bank. After either pass memory accesses are parked on the last table. -/
def writeSwapSet (c : Channel) (bank : Bank) (set : SwapSet) : SessionM Unit := do
  let compander := (← model c).compander
  if (← get).rangeCheck then
    ofExcept (requireSwapMode (← isSwapMode))
    ofExcept (set.check compander bank)
  set.payloads.forM fun p => writeTable c (SwapSet.activeTable p.1) bank p.2
  setRamSelect c Table.park
  set.payloads.forM fun p => writeTable c (SwapSet.heldTable p.1) compander.holdingBank p.2
  setRamSelect c Table.park

/-! ## Staged tables -/

/-- Makes the writes that stage a table. -/
def stage (table : UInt64) (data : Bytes) : SessionM Unit :=
  (Staging.tableWrites table data).forM fun w => perform (.bulkWrite w.1 w.2 true)

/-- Stages one table. -/
def stageTable (table : UInt64) (data : Bytes) : SessionM Unit := do
  checked (Staging.check table data)
  stage table data

/-- A payload for each staged table; a table without one is zeroed. -/
abbrev StagedTables := Vector (Option Bytes) Staging.tables

/-- The tables with their numbers and payloads, in ascending order. -/
def StagedTables.toList (tables : StagedTables) : List (UInt64 × Bytes) :=
  (List.finRange Staging.tables).map fun i => (UInt64.ofNat i.val, tables[i].getD [])

/-- Stages every table. All payloads are checked before the first is written. -/
def stageTables (tables : StagedTables) : SessionM Unit := do
  checked (tables.toList.forM fun p => Staging.check p.1 p.2)
  (StagedTables.toList tables).forM fun p => stage p.1 p.2

/-- Asks the firmware to promote the staged tables into a model of a channel. -/
def promote (c : Channel) (slot : ModelSlot) : SessionM Unit := do
  ofExcept slot.requireDual
  perform (.memoryWrite mailboxSet [slot.raw])
  execute (Command.promote c)

/-- How the last promotion of a channel went. -/
def promotionStatus (c : Channel) : SessionM Staging.Promotion := do
  execute (Command.promotionStatus c)
  let record ← perform (.memoryRead mailboxSet 2)
  let bank ← ofExcept (Bank.ofIndex (record.byteAt 1).toNat)
  return { status := record.byteAt 0, bank }

end Predistortion.Session
