import Predistortion.Text.Numeral

/-!
# Errors

What can go wrong, as data. `DeviceCode` is a firmware error code, `TransportError` is what a call
on the chip reports, and `Error` is what an operation of a session reports. The wording of each is
one function (`message`), and the predicates at the end sort session errors by who caused them:
the arguments (`isInvalidArgument`), a pin that is taken (`isPinConflict`), or the hardware
(`isHardwareFailure`).
-/

namespace Predistortion

/-! ## Firmware error codes -/

/-- An error code of the capture firmware; codes without a name are kept as they are. -/
inductive DeviceCode where
  /-- No error. -/
  | noError
  /-- The hardware is in use by another calibration. -/
  | hardwareInUse
  /-- The stream processor failed. -/
  | streamError
  /-- A capture failed to complete. -/
  | captureError
  /-- A code without a name. -/
  | other (raw : UInt32)
deriving DecidableEq, Inhabited

namespace DeviceCode

/-- Decodes a raw firmware code. -/
def ofRaw (raw : UInt32) : DeviceCode :=
  if raw = 0 then .noError
  else if raw = 0x1401 then .hardwareInUse
  else if raw = 0x1402 then .streamError
  else if raw = 0x1403 then .captureError
  else .other raw

/-- The raw firmware code. -/
def raw : DeviceCode → UInt32
  | .noError => 0
  | .hardwareInUse => 0x1401
  | .streamError => 0x1402
  | .captureError => 0x1403
  | .other raw => raw

/-- Packs a failing mailbox status with the command it belongs to into one code. -/
def ofCommandStatus (opcode object status : UInt8) : DeviceCode :=
  ofRaw (opcode.toUInt32 <<< 16 ||| object.toUInt32 <<< 8 ||| status.toUInt32)

/-- What the code means, in words. -/
def message : DeviceCode → String
  | .noError => "no error"
  | .hardwareInUse => "DPD hardware in use"
  | .streamError => "stream error"
  | .captureError => "capture error"
  | .other raw => s!"device error 0x{Numeral.hex 6 raw.toNat}"

/-- A code keeps the raw value that it was decoded from, so that no two raw values become the same
code. -/
theorem raw_ofRaw (r : UInt32) : (ofRaw r).raw = r := by
  unfold ofRaw
  split
  · next h => exact h.symm
  · split
    · next h => exact h.symm
    · split
      · next h => exact h.symm
      · split
        · next h => exact h.symm
        · rfl

end DeviceCode

/-! ## Transport errors -/

/-- A failed call on the chip. -/
inductive TransportError where
  /-- A status wait exceeded its budget. -/
  | timeout (operation : String) (timeoutUs : UInt64)
  /-- The co-processor's error handler returned a code. -/
  | device (opcode object : UInt8) (code : UInt32)
  /-- Only a chip reset can recover. -/
  | resetRequired (reason : String)
  /-- The bus failed. -/
  | bus (reason : String)
deriving DecidableEq, Inhabited

/-- The wording of a transport error. -/
def TransportError.message : TransportError → String
  | .timeout operation timeoutUs => s!"{operation} timed out after {timeoutUs.toNat} us"
  | .device opcode object code =>
    s!"device error 0x{Numeral.hex 4 code.toNat} (opcode 0x{Numeral.hex 2 opcode.toNat}, " ++
      s!"object 0x{Numeral.hex 2 object.toNat})"
  | .resetRequired reason => s!"reset required: {reason}"
  | .bus reason => s!"bus error: {reason}"

/-! ## Session errors -/

/-- A failed operation of a session. -/
inductive Error where
  /-- An argument or a decoded field is outside its range: the field, the value that was given, and
  what the field requires. -/
  | invalid (field value requirement : String)
  /-- Required input data is empty. -/
  | missing (field : String)
  /-- A pin is owned elsewhere or cannot be claimed. -/
  | pinConflict (pin : UInt8) (reason : String)
  /-- The co-processor rejected a mailbox command. -/
  | command (opcode object status : UInt8) (code : DeviceCode)
  /-- A status wait or a poll loop ran out of budget. -/
  | timeout (operation : String) (timeoutUs : UInt64)
  /-- Only a chip reset can recover. -/
  | resetRequired (reason : String)
  /-- The capture life cycle refuses the operation in its present phase. -/
  | phase (operation current : String)
  /-- The bus failed. -/
  | bus (reason : String)
deriving DecidableEq, Inhabited

namespace Error

/-- The wording of a session error. -/
def message : Error → String
  | .invalid field value requirement => s!"Invalid {field} ({value}): {requirement}"
  | .missing field => s!"Missing input: {field} is empty"
  | .pinConflict pin reason => s!"Resource conflict on GPIO{Numeral.decimal 2 pin.toNat}: {reason}"
  | .command opcode object status code =>
    s!"Device command error (opcode 0x{Numeral.hex 2 opcode.toNat}, " ++
      s!"object 0x{Numeral.hex 2 object.toNat}, status 0x{Numeral.hex 2 status.toNat}): " ++
      code.message
  | .timeout operation timeoutUs => s!"Timeout after {timeoutUs.toNat} us waiting for {operation}"
  | .resetRequired reason => s!"Hardware reset required: {reason}"
  | .phase operation current => s!"Cannot {operation} while capture state is {current}"
  | .bus reason => s!"Transport error: {reason}"

/-- A transport error as the error of the operation that made the call. A code from the error
handler has no status byte of its own, so its status reads 0. -/
def ofTransport : TransportError → Error
  | .timeout operation timeoutUs => .timeout operation timeoutUs
  | .device opcode object code => .command opcode object 0 (DeviceCode.ofRaw code)
  | .resetRequired reason => .resetRequired reason
  | .bus reason => .bus reason

/-! ### Who caused it -/

/-- A budget ran out. -/
def isTimeout : Error → Bool
  | .timeout .. => true
  | _ => false

/-- The arguments, or a decoded record, failed a range check. -/
def isInvalidArgument : Error → Bool
  | .invalid .. | .missing .. => true
  | _ => false

/-- A pin is taken. -/
def isPinConflict : Error → Bool
  | .pinConflict .. => true
  | _ => false

/-- The co-processor reported the failure. -/
def isDeviceError : Error → Bool
  | .command .. => true
  | _ => false

/-- Recovery needs a chip reset. -/
def requiresReset : Error → Bool
  | .resetRequired .. => true
  | _ => false

/-- The failure came from the device or the bus, not from checking arguments or pins. -/
def isHardwareFailure : Error → Bool
  | .command .. | .timeout .. | .resetRequired .. | .bus .. => true
  | _ => false

/-- Every transport error is a hardware failure. -/
@[simp] theorem isHardwareFailure_ofTransport (e : TransportError) :
    (ofTransport e).isHardwareFailure = true := by
  cases e <;> rfl

/-- An error blames the arguments or the hardware, never both. -/
theorem isHardwareFailure_eq_false_of_isInvalidArgument {e : Error}
    (h : e.isInvalidArgument = true) : e.isHardwareFailure = false := by
  cases e <;> simp_all [isInvalidArgument, isHardwareFailure]

end Error

/-- A success of two steps is a success of both. A check that has passed is taken apart by this, and
so is a decoder that has accepted a record. -/
theorem exists_of_bind_eq_ok {α β : Type} {x : Except Error α} {k : α → Except Error β}
    {r : β} (h : x >>= k = .ok r) : ∃ a, x = .ok a ∧ k a = .ok r := by
  cases x with
  | ok a => exact ⟨a, rfl, h⟩
  | error e => cases h

end Predistortion
