import Predistortion.Session.Batches
import Predistortion.Session.Capture
import Predistortion.Session.Monitors
import Predistortion.Form.Capture
import Predistortion.Form.Actuator
import Predistortion.Settings.Form
import Predistortion.Toml.Document
import Predistortion.Settings.Load
import Predistortion.Log
import Predistortion.Proofs.Footprint
import Predistortion.Proofs.Outcome
import Predistortion.Proofs.Refusal
import Predistortion.Proofs.Contract
import Predistortion.Proofs.Frame
import Predistortion.Proofs.Lifecycle
import Predistortion.Proofs.FailedPhase
import Predistortion.Proofs.Undoing
import Predistortion.Proofs.DonePin
import Predistortion.Proofs.Assignment
import Predistortion.Proofs.SoleOwner
import Predistortion.Proofs.TriggerPin
import Predistortion.Proofs.TriggerRoute
import Predistortion.Proofs.Interface
import Predistortion.Proofs.Reporting
import Predistortion.Proofs.Latch
import Predistortion.Proofs.Healthy
import Predistortion.Proofs.Polling
import Predistortion.Proofs.Completion
import Predistortion.Proofs.RoundTrip
import Predistortion.Proofs.LastSetting
import Predistortion.Proofs.LastWrite
import Predistortion.Proofs.Acceptance
import Predistortion.Proofs.NormalForm
import Predistortion.Proofs.SwapSet
import Predistortion.Proofs.Rejection
import Predistortion.Proofs.Surface
import Predistortion.Proofs.SwapMirror
import Predistortion.Proofs.Panel
import Predistortion.Proofs.Mailbox
import Predistortion.Proofs.MaskCommand
import Predistortion.Proofs.MemoryMap
import Predistortion.Proofs.Bench
import Predistortion.Proofs.TableAccess
import Predistortion.Proofs.TableStore
import Predistortion.Proofs.SwapWrite
import Predistortion.Proofs.ModelStore
import Predistortion.Proofs.TableWrite
import Predistortion.Proofs.CaptureReading
import Predistortion.Proofs.SampleLayout
import Predistortion.Proofs.BufferRelease
import Predistortion.Proofs.TableRead
import Predistortion.Proofs.RegisterFields
import Predistortion.Proofs.StagedRows
import Predistortion.Proofs.GainRecords
import Predistortion.Proofs.ChannelRecords
import Predistortion.Proofs.ClipperTraffic
import Predistortion.Proofs.FloatArithmetic
import Predistortion.Proofs.ThresholdCode
import Predistortion.Proofs.AddressArithmetic
