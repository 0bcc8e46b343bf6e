import Predistortion.Channel
import Predistortion.Form.Basic
import Predistortion.Pin

/-!
# Forms of channels, pins and codes

Channels, source groups, directions and signals are written by name, pins by number. A code or a
feature without a name is written as a table that holds its number.
-/

namespace Predistortion

instance : Named Channel where
  names := [("Tx1", .tx1), ("Tx2", .tx2), ("Tx3", .tx3), ("Tx4", .tx4)]

instance : Named SourceGroup where
  names :=
    [("Gpio00To03", .pins0To3), ("Gpio04To07", .pins4To7), ("Gpio08To11", .pins8To11),
      ("Gpio12To15", .pins12To15), ("Gpio16To18", .pins16To18)]

instance : Named Direction where
  names := [("Input", .input), ("Output", .output)]

instance : Named SelectSignal where
  names := [("ModelSel0", .bit0), ("ModelSel1", .bit1)]

instance : Named Polarity where
  names := [("Normal", .normal), ("Inverted", .inverted)]

instance : Form Pin where
  toValue p := Form.toValue p.raw
  ofValue v := do
    match Pin.ofRaw? (← Form.ofValue v) with
    | some p => return p
    | none => .mismatch .rejected

instance : Form SignalPin where
  toValue s := .table
    [("pin", Form.toValue s.pin), ("polarity", Form.toValue s.polarity),
      ("enable", Form.toValue s.enabled)]
  ofValue v := do
    let source ← FieldSource.ofValue ["pin", "polarity", "enable"] v
    return {
      enabled := ← source.get Bool "enable"
      pin := ← source.get Pin "pin"
      polarity := ← source.get Polarity "polarity" }

/-! ## Names with a number for the rest -/

/-- The name under which a number without a name of its own is written. -/
def otherName : String := "Other"

/-- The features with a name. -/
instance : Named Feature where
  names := [("Unused", .unused), ("ExtDpdCaptureDone", .captureDone)]

/-- The codes with a name. -/
instance : Named DeviceCode where
  names :=
    [("NoError", .noError), ("HwInUse", .hardwareInUse), ("StreamError", .streamError),
      ("CaptureError", .captureError)]

/-- Reads a name, or a number in a table. -/
def ofNamedOrOther {α β : Type} [Named α] [Form β] (other : β → α) : Value → Fitted α
  | .table [(name, content)] =>
    if name = otherName then
      Fitted.within name ((Form.ofValue content).map other)
    else
      Named.ofValue (.table [(name, content)])
  | v => Named.ofValue v

instance : Form Feature where
  toValue
    | .other tag => .table [(otherName, Form.toValue tag)]
    | f => .text (Named.nameOf f)
  ofValue := ofNamedOrOther Feature.other

instance : Form DeviceCode where
  toValue
    | .other raw => .table [(otherName, Form.toValue raw)]
    | c => .text (Named.nameOf c)
  ofValue := ofNamedOrOther DeviceCode.other

end Predistortion
