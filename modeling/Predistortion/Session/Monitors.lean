import Predistortion.Monitor.Clipper
import Predistortion.Monitor.Gain
import Predistortion.Session.Basic

/-!
# Monitors of a session

The gain monitor and the hard clipper of each channel. Both take lists of entries; a channel that
several entries name ends with the last of them.
-/

namespace Predistortion.Session

open SessionM

/-! ## Gain monitor -/

/-- Refuses an empty list of entries. -/
def requireEntries {α : Type} (field : String) (entries : List α) : Except Error Unit :=
  if entries.isEmpty then .error (.missing field) else .ok ()

/-- Writes the gain monitors of the channels that the entries name. -/
def setGainMonitor (entries : List GainMonitor) : SessionM Unit := do
  ofExcept (requireEntries "gainMonitorConfigs" entries)
  checked (entries.forM GainMonitor.check)
  entries.forM fun g =>
    g.mask.channels.forM fun c =>
      perform (.objectWrite Object.gainMonitor (GainMonitor.offset c) (g.encode c))

/-- The gain monitor of a channel. -/
def gainMonitor (c : Channel) : SessionM GainMonitor := do
  let record ← perform
    (.objectRead Object.gainMonitor (GainMonitor.offset c) GainMonitor.recordLength)
  ofExcept (GainMonitor.decode c record)

/-! ## Hard clipper -/

/-- Stages a clipper record and applies it to a channel. -/
def applyClipper (k : Clipper) (c : Channel) : SessionM Unit := do
  perform (.memoryWrite mailboxSet k.encode)
  execute (Command.setClipper c)

/-- Sets the clippers of the channels that the entries name. -/
def setClipper (entries : List Clipper) : SessionM Unit := do
  ofExcept (requireEntries "hardClipperConfigs" entries)
  checked (Clipper.checkAll entries)
  entries.forM fun k => k.mask.channels.forM (applyClipper k)

/-- The clipper of a channel. -/
def clipper (c : Channel) : SessionM Clipper := do
  execute (Command.getClipper c)
  let record ← perform (.memoryRead mailboxSet Clipper.recordLength)
  return Clipper.decode c record

/-- Zeroes the clip counters of the channels of a mask. -/
def resetClipCount (mask : ChannelMask) : SessionM Unit := do
  checked mask.requireNonempty
  mask.channels.forM fun c => execute (Command.resetClipCount c)

/-- The clips counted for a channel since the last reset, 24 bits. -/
def clipCount (c : Channel) : SessionM UInt32 := do
  execute (Command.getClipCount c)
  let bytes ← perform (.memoryRead mailboxSet 4)
  return LittleEndian.uint32At bytes 0 &&& Clipper.counterMask

end Predistortion.Session
