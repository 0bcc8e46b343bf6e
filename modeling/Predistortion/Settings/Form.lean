import Predistortion.Form.Basic
import Predistortion.Settings.Basic

/-!
# Settings as values

The settings and their parts as tables. A field that is left out has its default, and fields with
other names are passed over. Of several mismatches the one whose path comes first is reported: in a
table that is the first by name, in a list the first by position.
-/

namespace Predistortion

instance : Named SwapSource where
  names := [("cache", .cache), ("device", .device)]

instance : Form ValidationSettings where
  toValue s := .table
    [("range_check", Form.toValue s.rangeCheck),
      ("initialized_tx_mask", Form.toValue s.initialized.bits)]
  ofValue v := do
    let source ← FieldSource.ofValue ["range_check", "initialized_tx_mask"] v
    let base : ValidationSettings := default
    let (rangeCheck, bits) ←
      (source.getD "range_check" base.rangeCheck).both
        (source.getD "initialized_tx_mask" base.initialized.bits)
    return { rangeCheck, initialized := ⟨bits⟩ }

instance : Form TableSettings where
  toValue s := .table
    [("power_restore_on_write", Form.toValue s.restorePower),
      ("swap_mode_source", Form.toValue s.swapSource)]
  ofValue v := do
    let source ← FieldSource.ofValue ["power_restore_on_write", "swap_mode_source"] v
    let base : TableSettings := default
    let (restorePower, swapSource) ←
      (source.getD "power_restore_on_write" base.restorePower).both
        (source.getD "swap_mode_source" base.swapSource)
    return { restorePower, swapSource }

instance : Form MailboxSettings where
  toValue s := .table
    [("timeout_us", Form.toValue s.timeoutUs), ("interval_us", Form.toValue s.intervalUs),
      ("lut_update_timeout_us", Form.toValue s.tableTimeoutUs)]
  ofValue v := do
    let source ← FieldSource.ofValue
      ["timeout_us", "interval_us", "lut_update_timeout_us"] v
    let base : MailboxSettings := default
    let (timeoutUs, intervalUs, tableTimeoutUs) ←
      (source.getD "timeout_us" base.timeoutUs).both
        ((source.getD "interval_us" base.intervalUs).both
          (source.getD "lut_update_timeout_us" base.tableTimeoutUs))
    return { timeoutUs, intervalUs, tableTimeoutUs }

instance : Form ClockSettings where
  toValue s := .table
    [("poll_attempts", Form.toValue s.attempts), ("poll_interval_ms", Form.toValue s.intervalMs)]
  ofValue v := do
    let source ← FieldSource.ofValue ["poll_attempts", "poll_interval_ms"] v
    let base : ClockSettings := default
    let (attempts, intervalMs) ←
      (source.getD "poll_attempts" base.attempts).both
        (source.getD "poll_interval_ms" base.intervalMs)
    return { attempts, intervalMs }

instance : Form Settings where
  toValue s := .table
    [("log_level", Form.toValue s.logLevel), ("validation", Form.toValue s.validation),
      ("lut", Form.toValue s.tables), ("mailbox", Form.toValue s.mailbox),
      ("clock", Form.toValue s.clock)]
  ofValue v := do
    let source ← FieldSource.ofValue ["log_level", "validation", "lut", "mailbox", "clock"] v
    let base : Settings := default
    let (logLevel, validation, tables, mailbox, clock) ←
      (source.getD "log_level" base.logLevel).both
        ((source.getD "validation" base.validation).both
          ((source.getD "lut" base.tables).both
            ((source.getD "mailbox" base.mailbox).both (source.getD "clock" base.clock))))
    return { logLevel, validation, tables, mailbox, clock }

end Predistortion
