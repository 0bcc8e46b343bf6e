import Predistortion.Channel

/-!
# Settings

The settings of a session: the level of its log, which checks it makes, how it treats tables, how
long it waits. Every setting has a default. `Settings.complaint?` looks for the first rule that a
choice of settings breaks.
-/

namespace Predistortion

/-- Which checks are made. -/
structure ValidationSettings where
  /-- Arguments are checked before the chip is touched. -/
  rangeCheck : Bool
  /-- The channels whose actuator may be enabled. -/
  initialized : ChannelMask
deriving DecidableEq

instance : Inhabited ValidationSettings := ⟨⟨true, ⟨0x0F⟩⟩⟩

/-- Where the swap-mode flag is read. -/
inductive SwapSource where
  /-- The session remembers what it wrote. -/
  | cache
  /-- The flag is read from the firmware. -/
  | device
deriving DecidableEq, Inhabited

/-- How tables are treated. -/
structure TableSettings where
  /-- A table's power is restored after a write. -/
  restorePower : Bool
  /-- Where the swap-mode flag is read. -/
  swapSource : SwapSource
deriving DecidableEq, Inhabited

/-- How long the session waits for mailbox commands, in microseconds. -/
structure MailboxSettings where
  /-- For an ordinary command. -/
  timeoutUs : UInt64
  /-- Between two looks at the status. -/
  intervalUs : UInt64
  /-- For clearing or promoting tables. -/
  tableTimeoutUs : UInt64
deriving DecidableEq

instance : Inhabited MailboxSettings := ⟨⟨1000000, 10000, 5000000⟩⟩

/-- How long the session waits for the actuator clock. -/
structure ClockSettings where
  /-- The count of looks at the clock. -/
  attempts : UInt32
  /-- The time between two looks, in milliseconds. -/
  intervalMs : UInt64
deriving DecidableEq

instance : Inhabited ClockSettings := ⟨⟨40, 1⟩⟩

/-- The settings of a session. -/
structure Settings where
  /-- The level of the log. -/
  logLevel : String
  /-- Which checks are made. -/
  validation : ValidationSettings
  /-- How tables are treated. -/
  tables : TableSettings
  /-- How long mailbox commands may take. -/
  mailbox : MailboxSettings
  /-- How long the clock may take. -/
  clock : ClockSettings
deriving DecidableEq

instance : Inhabited Settings := ⟨⟨"info", default, default, default, default⟩⟩

/-- The names of the log levels. -/
def logLevelNames : List String := ["trace", "debug", "info", "warn", "error"]

namespace Settings

/-- A rule that settings break. -/
inductive Complaint where
  /-- The log level has no such name. -/
  | unknownLevel (name : String)
  /-- Channels are initialized that do not exist. -/
  | strayChannels (mask : ChannelMask)
  /-- The interval between looks at the status is zero. -/
  | zeroInterval
  /-- The interval is longer than a timeout, which is named. -/
  | intervalTooLong (interval : UInt64) (name : String) (timeout : UInt64)
  /-- The clock is never looked at. -/
  | noAttempts
deriving DecidableEq

/-- The wording of a complaint. -/
def Complaint.message : Complaint → String
  | .unknownLevel name =>
    s!"Invalid log_level '{name}'. Must be one of: " ++ ", ".intercalate logLevelNames
  | .strayChannels mask => s!"initialized_tx_mask {mask.label} has bits outside Tx1..Tx4"
  | .zeroInterval => "mailbox.interval_us must be greater than 0"
  | .intervalTooLong interval name timeout =>
    s!"mailbox.interval_us ({interval.toNat}) exceeds mailbox.{name} ({timeout.toNat})"
  | .noAttempts => "clock.poll_attempts must be greater than 0"

/-- The first rule that the settings break. -/
def complaint? (s : Settings) : Option Complaint :=
  if s.logLevel ∉ logLevelNames then
    some (.unknownLevel s.logLevel)
  else if s.validation.initialized.strayBits ≠ 0 then
    some (.strayChannels s.validation.initialized)
  else if s.mailbox.intervalUs = 0 then
    some .zeroInterval
  else if s.mailbox.intervalUs > s.mailbox.timeoutUs then
    some (.intervalTooLong s.mailbox.intervalUs "timeout_us" s.mailbox.timeoutUs)
  else if s.mailbox.intervalUs > s.mailbox.tableTimeoutUs then
    some (.intervalTooLong s.mailbox.intervalUs "lut_update_timeout_us" s.mailbox.tableTimeoutUs)
  else if s.clock.attempts = 0 then
    some .noAttempts
  else
    none

end Settings

end Predistortion
