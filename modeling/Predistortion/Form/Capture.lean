import Predistortion.Capture.Basic
import Predistortion.Form.Device

/-!
# Forms of captures

The names of the choices of a capture, and its configuration, status and samples as tables. All
fields of a table are needed, and fields with other names are passed over.
-/

namespace Predistortion.Capture

/-! ## Choices -/

instance : Named Trigger where
  names :=
    [("Immediate", .immediate), ("PowerLevel", .powerLevel), ("PeakDetection", .peak),
      ("TddTxOnSync", .tddTxOn), ("ExtendedPeakSearch", .extendedPeak)]

instance : Named TxTap where
  names := [("PostActuator", .postActuator), ("PreActuator", .preActuator)]

instance : Named AltTap where
  names := [("Actuator", .actuator), ("PreCfr", .preCfr)]

instance : Named Size where
  names :=
    [("Samples4096", .samples4096), ("Samples2048", .samples2048), ("Samples1024", .samples1024),
      ("Samples512", .samples512), ("Samples256", .samples256), ("Samples128", .samples128),
      ("Samples64", .samples64), ("Samples32", .samples32)]

instance : Named PeakInput where
  names := [("Dpd", .dpd), ("Cfr", .cfr)]

instance : Named PulseUnit where
  names := [("X1", .x1), ("X256", .x256), ("X65536", .x65536), ("X16777216", .x16777216)]

instance : Named PowerBand where
  names := [("Band0", .band0), ("Band1", .band1), ("Band2", .band2), ("Band3", .band3)]

instance : Named BandDirection where
  names := [("Any", .any), ("Ascending", .ascending), ("Descending", .descending)]

instance : Named Boundary where
  names := [("Band01", .between01), ("Band12", .between12), ("Band23", .between23)]

instance : Named Phase where
  names :=
    [("Idle", .idle), ("Configured", .configured), ("Armed", .armed), ("Done", .done),
      ("Error", .failed)]

instance : Named Buffer where
  names := [("Tx", .tx), ("TxAlt", .txAlt), ("Orx", .orx)]

/-! ## The configuration -/

instance : Form PeakSearch where
  toValue p := .table
    [("decay", Form.toValue p.decay), ("window_count", Form.toValue p.windowCount),
      ("input_sel", Form.toValue p.input), ("iir_enable", Form.toValue p.filterEnable),
      ("iir_bypass", Form.toValue p.filterBypass),
      ("extended_window_us", Form.toValue p.extendedWindowUs)]
  ofValue v := do
    let source ← FieldSource.ofValue
      ["decay", "window_count", "input_sel", "iir_enable", "iir_bypass", "extended_window_us"] v
    return {
      decay := ← source.get UInt8 "decay"
      extendedWindowUs := ← source.get UInt32 "extended_window_us"
      filterBypass := ← source.get Bool "iir_bypass"
      filterEnable := ← source.get Bool "iir_enable"
      input := ← source.get PeakInput "input_sel"
      windowCount := ← source.get UInt32 "window_count" }

instance : Form Control where
  toValue c := .table
    [("channel", Form.toValue c.channel), ("capture_type", Form.toValue c.trigger),
      ("tx_obs_sel", Form.toValue c.txTap), ("tx_alt_obs_sel", Form.toValue c.altTap),
      ("size", Form.toValue c.size), ("peak", Form.toValue c.peak),
      ("align_delay", Form.toValue c.alignDelay), ("capture_delay", Form.toValue c.captureDelay)]
  ofValue v := do
    let source ← FieldSource.ofValue
      ["channel", "capture_type", "tx_obs_sel", "tx_alt_obs_sel", "size", "peak", "align_delay",
        "capture_delay"] v
    return {
      alignDelay := ← source.get UInt16 "align_delay"
      captureDelay := ← source.get UInt32 "capture_delay"
      trigger := ← source.get Trigger "capture_type"
      channel := ← source.get Channel "channel"
      peak := ← source.get PeakSearch "peak"
      size := ← source.get Size "size"
      altTap := ← source.get AltTap "tx_alt_obs_sel"
      txTap := ← source.get TxTap "tx_obs_sel" }

instance : Form Level where
  toValue l := .table
    [("timeout", Form.toValue l.timeout), ("band_sel", Form.toValue l.band),
      ("band_dir", Form.toValue l.direction)]
  ofValue v := do
    let source ← FieldSource.ofValue ["timeout", "band_sel", "band_dir"] v
    return {
      direction := ← source.get BandDirection "band_dir"
      band := ← source.get PowerBand "band_sel"
      timeout := ← source.get UInt16 "timeout" }

instance : Form Threshold where
  toValue t := .table
    [("low_to_high_limit", Form.toValue t.riseLimit),
      ("high_to_low_limit", Form.toValue t.fallLimit), ("pulse_width_res", Form.toValue t.unit),
      ("low_to_high_pulse_width", Form.toValue t.riseWidth),
      ("high_to_low_pulse_width", Form.toValue t.fallWidth)]
  ofValue v := do
    let source ← FieldSource.ofValue
      ["low_to_high_limit", "high_to_low_limit", "pulse_width_res", "low_to_high_pulse_width",
        "high_to_low_pulse_width"] v
    return {
      fallLimit := ← source.get UInt8 "high_to_low_limit"
      fallWidth := ← source.get UInt16 "high_to_low_pulse_width"
      riseLimit := ← source.get UInt8 "low_to_high_limit"
      riseWidth := ← source.get UInt16 "low_to_high_pulse_width"
      unit := ← source.get PulseUnit "pulse_width_res" }

instance : Form Thresholds where
  toValue t := Form.toValue t.toList
  ofValue v := do
    let items : Vector Threshold 3 ← Form.ofValue v
    return ⟨items[0], items[1], items[2]⟩

instance : Form PathDelay where
  toValue d := .table
    [("fifo_delay", Form.toValue d.fifo), ("interpolation_index", Form.toValue d.interpolation)]
  ofValue v := do
    let source ← FieldSource.ofValue ["fifo_delay", "interpolation_index"] v
    return {
      fifo := ← source.get UInt8 "fifo_delay"
      interpolation := ← source.get UInt8 "interpolation_index" }

instance : Form Config where
  toValue c := .table
    [("trigger_pin", Form.toValue c.triggerPin), ("done_pin", Form.toValue c.donePin),
      ("path_delay", Form.toValue c.pathDelay), ("ctrl", Form.toValue c.control),
      ("level", Form.toValue c.level), ("pwr_thresh", Form.toValue c.thresholds),
      ("envelope_decay", Form.toValue c.envelopeDecay)]
  ofValue v := do
    let source ← FieldSource.ofValue
      ["trigger_pin", "done_pin", "path_delay", "ctrl", "level", "pwr_thresh", "envelope_decay"] v
    return {
      control := ← source.get Control "ctrl"
      donePin := ← source.get Pin "done_pin"
      envelopeDecay := ← source.get UInt16 "envelope_decay"
      level := ← source.get Level "level"
      pathDelay := ← source.get PathDelay "path_delay"
      thresholds := ← source.get Thresholds "pwr_thresh"
      triggerPin := ← source.get Pin "trigger_pin" }

/-! ## What is read back -/

instance : Form Status where
  toValue s := .table
    [("error_code", Form.toValue s.error), ("timeout", Form.toValue s.timeout),
      ("band_transition_count", Form.toValue s.transitions),
      ("power_band_status", Form.toValue s.powerBand),
      ("capture_count", Form.toValue s.completed)]
  ofValue v := do
    let source ← FieldSource.ofValue
      ["error_code", "timeout", "band_transition_count", "power_band_status", "capture_count"] v
    return {
      transitions := ← source.get UInt8 "band_transition_count"
      completed := ← source.get UInt16 "capture_count"
      error := ← source.get DeviceCode "error_code"
      powerBand := ← source.get UInt8 "power_band_status"
      timeout := ← source.get UInt8 "timeout" }

/-- Samples written as two lists, which need not be of one length. -/
structure Lanes where
  /-- The in-phase parts. -/
  i : List Int16
  /-- The quadrature parts. -/
  q : List Int16
deriving DecidableEq

/-- The two lists of some samples. -/
def Lanes.ofSamples (s : Samples) : Lanes := ⟨s.map (·.i), s.map (·.q)⟩

instance : Form Lanes where
  toValue l := .table [("i", Form.toValue l.i), ("q", Form.toValue l.q)]
  ofValue v := do
    let source ← FieldSource.ofValue ["i", "q"] v
    return { i := ← source.get (List Int16) "i", q := ← source.get (List Int16) "q" }

/-- The lists of all buffers of a capture. -/
structure DataLanes where
  /-- Transmit observation. -/
  tx : Lanes
  /-- Alternate transmit observation. -/
  txAlt : Lanes
  /-- Observation receiver. -/
  orx : Lanes
deriving DecidableEq

instance : Form DataLanes where
  toValue d := .table
    [("tx", Form.toValue d.tx), ("tx_alt", Form.toValue d.txAlt), ("orx", Form.toValue d.orx)]
  ofValue v := do
    let source ← FieldSource.ofValue ["tx", "tx_alt", "orx"] v
    return {
      orx := ← source.get Lanes "orx"
      tx := ← source.get Lanes "tx"
      txAlt := ← source.get Lanes "tx_alt" }

end Predistortion.Capture
