import Predistortion.Channel
import Predistortion.Bytes.LittleEndian

/-!
# Actuator models

The actuator of a channel runs one of four models. The firmware keeps a record of 48 bytes for a
model: channel, model, bank, gain, compander, output shift, the sum of the in-phase tables (two
bytes), and one selector byte for each of 32 in-phase and 8 envelope terms. The channel byte is
written and not read.
-/

namespace Predistortion

/-! ## Choices -/

/-- A model slot. -/
inductive ModelSlot where
  | model0 | model1 | model2 | model3
deriving DecidableEq, Inhabited

namespace ModelSlot

/-- The firmware's number. -/
def raw : ModelSlot → UInt8
  | .model0 => 0
  | .model1 => 1
  | .model2 => 2
  | .model3 => 3

/-- Decodes a firmware number. -/
def ofRaw (raw : UInt8) : Except Error ModelSlot :=
  if raw = 0 then .ok .model0
  else if raw = 1 then .ok .model1
  else if raw = 2 then .ok .model2
  else if raw = 3 then .ok .model3
  else .error (.invalid "modelSel" (toString raw.toNat) "must be Model0..Model3")

/-- The name shown to users. -/
def label : ModelSlot → String
  | .model0 => "Model0"
  | .model1 => "Model1"
  | .model2 => "Model2"
  | .model3 => "Model3"

/-- The slot exists when two models are kept at once. -/
def isDual : ModelSlot → Bool
  | .model0 | .model1 => true
  | .model2 | .model3 => false

/-- Refuses a slot that does not exist when two models are kept at once. -/
def requireDual (m : ModelSlot) : Except Error Unit :=
  if m.isDual then .ok ()
  else
    .error (.invalid "modelSel" m.label "only Model0 and Model1 are supported in multi-model mode")

/-- The byte of a model names that model, so a model that was written into a record or a command is
read back. -/
@[simp] theorem ofRaw_raw (m : ModelSlot) : ofRaw m.raw = .ok m := by cases m <;> rfl

end ModelSlot

/-- One of the four banks of 1024 bytes in a table. -/
inductive Bank where
  | bank0 | bank1 | bank2 | bank3
deriving DecidableEq, Inhabited

namespace Bank

/-- The banks in address order. -/
def all : List Bank := [bank0, bank1, bank2, bank3]

/-- The position in a table. -/
def index : Bank → Nat
  | bank0 => 0
  | bank1 => 1
  | bank2 => 2
  | bank3 => 3

/-- The firmware's number. -/
def raw (b : Bank) : UInt8 := UInt8.ofNat b.index

/-- The bank at a position. -/
def ofIndex (i : Nat) : Except Error Bank :=
  match all[i]? with
  | some b => .ok b
  | none => .error (.invalid "lutBank" (toString i) "must be Bank0..Bank3")

/-- The name shown to users. -/
def label : Bank → String
  | bank0 => "Bank0"
  | bank1 => "Bank1"
  | bank2 => "Bank2"
  | bank3 => "Bank3"

/-- A bank is found again at its position, which is the number that records carry. -/
@[simp] theorem ofIndex_index (b : Bank) : ofIndex b.index = .ok b := by cases b <;> rfl

end Bank

/-- The width of the compander, which decides how many banks a table of it takes. -/
inductive Compander where
  /-- 256 entries in one bank. -/
  | bits8
  /-- 512 entries in two banks. -/
  | bits9
deriving DecidableEq, Inhabited

namespace Compander

/-- The firmware's number. -/
def raw : Compander → UInt8
  | .bits8 => 0
  | .bits9 => 1

/-- Decodes a firmware number. -/
def ofRaw (raw : UInt8) : Except Error Compander :=
  if raw = 0 then .ok .bits8
  else if raw = 1 then .ok .bits9
  else .error (.invalid "companderSize" (toString raw.toNat) "must be 0 (8-bit) or 1 (9-bit)")

/-- The name shown to users. -/
def label : Compander → String
  | .bits8 => "8-bit"
  | .bits9 => "9-bit"

/-- The longest table that swap mode takes. -/
def maxSwapBytes : Compander → Nat
  | .bits8 => 1024
  | .bits9 => 2048

/-- The bank in which swap mode holds the next table. -/
def holdingBank : Compander → Bank
  | .bits8 => .bank3
  | .bits9 => .bank2

end Compander

/-! ## The model and its record -/

/-- A model of the actuator. -/
structure Model where
  /-- The slot that the model describes. -/
  slot : ModelSlot
  /-- The bank that the model reads. -/
  bank : Bank
  /-- The gain of the squared magnitude. -/
  magnitudeGain : UInt8
  /-- The width of the compander. -/
  compander : Compander
  /-- The output shift, at most 15. -/
  outputShift : UInt8
  /-- The sum of the in-phase tables. -/
  tableSum : UInt16
  /-- The selectors of the in-phase terms. -/
  inPhase : Vector UInt8 32
  /-- The selectors of the envelope terms. -/
  envelope : Vector UInt8 8
deriving DecidableEq

namespace Model

/-- The model of a slot that was never written: every byte is zero. -/
def blank : Model where
  slot := .model0
  bank := .bank0
  magnitudeGain := 0
  compander := .bits8
  outputShift := 0
  tableSum := 0
  inPhase := Vector.replicate 32 0
  envelope := Vector.replicate 8 0

instance : Inhabited Model := ⟨blank⟩

/-- The largest output shift. -/
def maxOutputShift : UInt8 := 15

/-- Checks the fields that the types leave open. A 9-bit compander takes two banks, so it starts at
an even one. -/
def check (m : Model) : Except Error Unit :=
  if m.compander == .bits9 && !(m.bank == .bank0 || m.bank == .bank2) then
    .error (.invalid "lutBank" m.bank.label "9-bit compander requires Bank0 or Bank2")
  else if m.outputShift > maxOutputShift then
    .error (.invalid "outputShift" (toString m.outputShift.toNat)
      s!"must be <= {maxOutputShift.toNat}")
  else
    .ok ()

/-- The length of a record. -/
def recordLength : Nat := 48

/-- The record of a model for a channel. -/
def encode (m : Model) (c : Channel) : Bytes :=
  [c.code, m.slot.raw, m.bank.raw, m.magnitudeGain, m.compander.raw, m.outputShift] ++
  LittleEndian.ofUInt16 m.tableSum ++ m.inPhase.toList ++ m.envelope.toList

/-- Reads a record. The slot is looked at first, then the bank, then the compander. -/
def decode (b : Bytes) : Except Error Model := do
  if b.length < recordLength then
    throw (.invalid "modelRecord" (toString b.length) s!"need {recordLength} bytes")
  let slot ← ModelSlot.ofRaw (b.byteAt 1)
  let bank ← Bank.ofIndex (b.byteAt 2).toNat
  let compander ← Compander.ofRaw (b.byteAt 4)
  return {
    slot
    bank
    magnitudeGain := b.byteAt 3
    compander
    outputShift := b.byteAt 5
    tableSum := LittleEndian.uint16At b 6
    inPhase := Vector.ofFn fun i => b.byteAt (8 + i.val)
    envelope := Vector.ofFn fun i => b.byteAt (40 + i.val) }

/-- Where the record of a channel starts when one model is kept for each. -/
def offset (c : Channel) : UInt16 := UInt16.ofNat (c.index * recordLength)

/-- Where the record of a channel's slot starts when two models are kept for each. -/
def dualOffset (c : Channel) (m : ModelSlot) : UInt16 :=
  UInt16.ofNat (c.index * (2 * recordLength) + if m = .model1 then recordLength else 0)

end Model

end Predistortion
