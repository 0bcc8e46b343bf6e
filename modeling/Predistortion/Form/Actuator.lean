import Predistortion.Actuator.Staging
import Predistortion.Form.Mask
import Predistortion.Monitor.Gain

/-!
# Forms of actuators and monitors

Models, promotions and gain monitors as tables; tables of the actuator by number.
-/

namespace Predistortion

instance : Named ModelSlot where
  names :=
    [("Model0", .model0), ("Model1", .model1), ("Model2", .model2), ("Model3", .model3)]

instance : Named Bank where
  names := [("Bank0", .bank0), ("Bank1", .bank1), ("Bank2", .bank2), ("Bank3", .bank3)]

instance : Named Compander where
  names := [("Bits8", .bits8), ("Bits9", .bits9)]

instance : Form Table where
  toValue t := Form.toValue t.raw
  ofValue v := do
    match Table.ofRaw? (← Form.ofValue v) with
    | some t => return t
    | none => .mismatch .rejected

instance : Form Model where
  toValue m := .table
    [("model", Form.toValue m.slot), ("bank", Form.toValue m.bank),
      ("mag_sq_gain", Form.toValue m.magnitudeGain), ("compander", Form.toValue m.compander),
      ("output_shift", Form.toValue m.outputShift), ("lut_i_sum", Form.toValue m.tableSum),
      ("i_sel", Form.toValue m.inPhase), ("j_sel", Form.toValue m.envelope)]
  ofValue v := do
    let source ← FieldSource.ofValue
      ["model", "bank", "mag_sq_gain", "compander", "output_shift", "lut_i_sum", "i_sel",
        "j_sel"] v
    return {
      bank := ← source.get Bank "bank"
      compander := ← source.get Compander "compander"
      inPhase := ← source.get (Vector UInt8 32) "i_sel"
      envelope := ← source.get (Vector UInt8 8) "j_sel"
      tableSum := ← source.get UInt16 "lut_i_sum"
      magnitudeGain := ← source.get UInt8 "mag_sq_gain"
      slot := ← source.get ModelSlot "model"
      outputShift := ← source.get UInt8 "output_shift" }

instance : Form Staging.Promotion where
  toValue p := .table
    [("update_status", Form.toValue p.status), ("bank", Form.toValue p.bank)]
  ofValue v := do
    let source ← FieldSource.ofValue ["update_status", "bank"] v
    return {
      bank := ← source.get Bank "bank"
      status := ← source.get UInt8 "update_status" }

instance : Form GainMonitor where
  toValue g := .table
    [("channel_mask", Form.toValue g.mask), ("enable", Form.toValue g.enable),
      ("qual_thresh", Form.toValue g.qualify), ("lower_thresh", Form.toValue g.lower),
      ("upper_thresh", Form.toValue g.upper), ("lower_model", Form.toValue g.lowerModel),
      ("upper_model", Form.toValue g.upperModel), ("iir_decay", Form.toValue g.decay)]
  ofValue v := do
    let source ← FieldSource.ofValue
      ["channel_mask", "enable", "qual_thresh", "lower_thresh", "upper_thresh", "lower_model",
        "upper_model", "iir_decay"] v
    return {
      mask := ← source.get ChannelMask "channel_mask"
      enable := ← source.get Bool "enable"
      decay := ← source.get UInt8 "iir_decay"
      lowerModel := ← source.get ModelSlot "lower_model"
      lower := ← source.get UInt8 "lower_thresh"
      qualify := ← source.get UInt16 "qual_thresh"
      upperModel := ← source.get ModelSlot "upper_model"
      upper := ← source.get UInt8 "upper_thresh" }

end Predistortion
