import Predistortion.Chip.Basic
import Predistortion.RegisterMap
import Predistortion.Bytes.LittleEndian

/-!
# Firmware

What the chip does with a mailbox command. The first payload byte names the object; a command that
names no known object, sub-command or channel changes nothing. Answers go to one of the two scratch
areas.
-/

namespace Predistortion.Chip

/-- The byte that stands for a flag. -/
def flagByte (b : Bool) : UInt8 := if b then 1 else 0

/-- Carries out a tracking command: a channel byte and a sub-command. Payloads are taken from the
SET scratch area, and answers are returned in it. -/
def track (chip : Chip) (channels sub : UInt8) : Chip :=
  if sub = Tracking.clipperSet then
    let clipper := chip.memory.readBlock mailboxSet 3
    chip.modifyChannels channels ({ · with clipper })
  else if sub = Tracking.clipperGet then
    match Channel.ofBit? channels with
    | some c => chip.writeMemory mailboxSet (chip.channel c).clipper.toList
    | none => chip
  else if sub = Tracking.clipCountReset then
    chip.modifyChannels channels ({ · with clipCount := 0 })
  else if sub = Tracking.clipCountGet then
    match Channel.ofBit? channels with
    | some c => chip.writeMemory mailboxSet (LittleEndian.ofUInt32 (chip.channel c).clipCount)
    | none => chip
  else if sub = Tracking.captureReadDone then
    { chip with readDones := chip.readDones + 1 }
  else if sub = Tracking.tableClear then
    { chip with tableClears := chip.tableClears + 1 }
  else if sub = Tracking.promote then
    match Channel.ofBit? channels with
    | some c =>
      chip.modifyChannel c ({ · with promotion := #v[1, chip.memory.read mailboxSet] })
    | none => chip
  else if sub = Tracking.promotionStatus then
    match Channel.ofBit? channels with
    | some c => chip.writeMemory mailboxSet (chip.channel c).promotion.toList
    | none => chip
  else
    chip

/-- Carries out a SET command. -/
def executeSet (chip : Chip) (object : UInt8) (payload : Bytes) : Chip :=
  let value := payload.byteAt 1
  if object = Object.captureTrigger then
    { chip with
      triggers := chip.triggers + 1
      captureDone := chip.captureDone || chip.autoComplete }
  else if object = Object.captureDone then
    if payload[1]? = some 0 then { chip with captureDone := false } else chip
  else if object = Object.actuatorEnable then
    chip.modifyChannels (value &&& 0x0F) ({ · with enabled := value &&& 0x80 != 0 })
  else if object = Object.modelSelect then
    chip.modifyChannels (value &&& 0x0F) ({ · with model := value >>> 4 })
  else if object = Object.trackingControl then
    chip.track (payload.byteAt 2) (payload.byteAt 3)
  else
    chip

/-- Carries out a GET command. -/
def executeGet (chip : Chip) (object : UInt8) (payload : Bytes) : Chip :=
  if object = Object.captureDone then
    chip.writeMemory mailboxGet [flagByte chip.captureDone]
  else if object = Object.actuatorEnable then
    match Channel.ofBit? (payload.byteAt 1) with
    | some c => chip.writeMemory mailboxGet [flagByte (chip.channel c).enabled]
    | none => chip
  else if object = Object.modelSelect then
    match Channel.ofBit? (payload.byteAt 1) with
    | some c => chip.writeMemory mailboxGet [(chip.channel c).model]
    | none => chip
  else if object = Object.calibrationStatus then
    match payload[2]?.bind fun i => Channel.ofIndex? i.toNat with
    | some c => chip.writeMemory mailboxGet (chip.channel c).status.toList
    | none => chip
  else
    chip

/-- Carries out a command. -/
def execute (chip : Chip) (opcode : UInt8) (payload : Bytes) : Chip :=
  let object := payload.byteAt 0
  if opcode = Opcode.set then chip.executeSet object payload
  else if opcode = Opcode.get then chip.executeGet object payload
  else chip

/-- Takes a command: it is carried out with status zero, unless a fault forces a status, and then it
is not carried out. -/
def takeCommand (chip : Chip) (opcode : UInt8) (payload : Bytes) : Chip :=
  let object := payload.byteAt 0
  match chip.faults.findSome? (·.forcedStatus? object) with
  | some status => { chip with lastObject := object, lastStatus := status }
  | none => { chip with lastObject := object, lastStatus := 0 }.execute opcode payload

/-- What a stream does: the clock stream gates the clocks of the channels named in one register by
the action named in another, unless the clock is stuck. -/
def runStream (chip : Chip) (stream : UInt8) : Chip :=
  if stream = clockStream ∧ Fault.clockStuck ∉ chip.faults then
    let mask := chip.registers.getD clockChannelRegister 0
    match chip.registers[clockActionRegister]? with
    | some action =>
      if action = clockEnable then chip.modifyChannels mask ({ · with clock := true })
      else if action = clockDisable then chip.modifyChannels mask ({ · with clock := false })
      else chip
    | none => chip
  else
    chip

end Predistortion.Chip
