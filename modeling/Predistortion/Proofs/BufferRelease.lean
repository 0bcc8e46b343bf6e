import Predistortion.Proofs.Mailbox
import Predistortion.Proofs.Reporting

/-!
# Handing the buffers back

When the samples of a capture are read, the firmware waits for its buffers. They are handed back by
a command, which is given once and after all reading, whatever went wrong before: the record may not
be readable, a buffer may not be, or any of the requests that open and close a table may fail.

Main statement: this holds of every session, with all faults and in every phase
(`Session.releasesOnce`). The calls up to the command are those of the reading alone, and none of
them is a command, as all that is done to read is hosted by a contract without commands
(`commandless_hosts`). The error of the reading is reported before that of the command.
-/

namespace Predistortion

open SessionM
open Session (readSamples captureData)
open Capture (Data)

variable {α : Type}

/-! ## Reading gives no commands -/

/-- The contract to make no mailbox commands. -/
def commandless : Contract Session := growing fun c => c.kind ≠ .command

/-- To give no command is a contract that all functions of pins, tables and captures can be held to,
since it allows every request but the two that belong to commands. -/
theorem commandless_hosts : commandless.Hosts := by
  refine .of_requests (fun r hr => ?_) (fun s _ => .refl _ s.chip) fun s t hchip _ _ => ?_
  · exact obeys_growing_perform fun _ => hr
  · show s.chip.Grows _ t.chip
    rw [hchip]
    exact .refl _ s.chip

/-! ## A command is given once -/

/-- Between the two moments a command was given, and nothing else was done but to wait for it. -/
def Chip.Gives (k : Command) (chip later : Chip) : Prop :=
  ∃ outcome waiting, later.calls = waiting ++ ⟨k.request, outcome⟩ :: chip.calls ∧
    ∀ c ∈ waiting, c.kind = .statusWait

/-- However a command ends, it was given: the request for it is the first thing that is done. After
it there is at most the wait, which is not made if the request was refused. -/
theorem ends_execute_gives (k : Command) (s : Session) :
    Ends (execute k) s (fun _ t => Chip.Gives k s.chip t.chip)
      (fun _ t => Chip.Gives k s.chip t.chip) := by
  have hgiven := s.chip.calls_served k.request
  have waited {later : Chip} {c : Call} (hkind : c.kind = .statusWait)
      (hcalls : later.calls = c :: (s.chip.served k.request).calls) :
      Chip.Gives k s.chip later := by
    rw [hgiven] at hcalls
    exact ⟨_, [c], hcalls, by simpa using hkind⟩
  unfold execute perform
  rw [ends_bind, ends_get, ends_bind, ends_onChip]
  refine Chip.ends_perform_of ?_ fun e _ => ⟨.error e, [], rfl, by simp⟩
  rw [ends_bind, ends_onChip]
  refine Chip.ends_perform_of ?_ fun e _ => waited rfl rfl
  rw [ends_ite]
  exact ⟨fun _ => waited rfl (Chip.calls_served ..), fun _ => waited rfl (Chip.calls_served ..)⟩

/-! ## Reading back and handing back -/

/-- The session after a computation, however it ended. -/
def Session.after (s : Session) (m : SessionM α) : Session :=
  match m s with
  | .ok _ t => t
  | .error _ t => t

/-- What is demanded of every end is true of the session after, so a statement about both ends needs
no case split where it is used. -/
theorem Session.after_of_ends {s : Session} {m : SessionM α} {P : Session → Prop}
    (h : Ends m s (fun _ t => P t) (fun _ t => P t)) : P (s.after m) := by
  unfold after
  cases hrun : m s with
  | ok a t => exact h.of_ok hrun
  | error e t => exact h.of_error hrun

namespace Session

section captureData

variable (s : Session)

/-- To keep books on the phase leaves the chip as the computation left it, whether it succeeded or
not. -/
theorem chip_after_tracked (m : SessionM α) :
    (s.after (tracked m)).chip = (s.after m).chip := by
  unfold after tracked
  cases m s with
  | ok a t => rfl
  | error e t => dsimp only; split <;> rfl

/-- To enter a phase after a success leaves the chip alone. After a failure no phase is entered. -/
theorem chip_after_setPhase (m : SessionM α) (phase : Capture.Phase) :
    (s.after (do
      let a ← m
      setPhase phase
      return a)).chip = (s.after m).chip := by
  unfold after
  simp only [bind, EStateM.bind]
  cases m s <;> rfl

/-- What is answered of a capture comes of the reading, and of the command after it. How the two are
combined is said by `readThenRelease`. -/
theorem answer_captureData : s.answer captureData =
    readThenRelease (s.answer readSamples)
      ((s.after readSamples).answer (execute .captureReadDone)) := by
  unfold answer after captureData
  simp only [tracked, attempt, bind, EStateM.bind]
  cases readSamples s with
  | ok data u => dsimp only; cases execute .captureReadDone u <;> rfl
  | error e u => dsimp only; cases execute .captureReadDone u <;> rfl

/-- Reading back makes the calls of the reading, and of the command after it. What stands around
them keeps books on the phase only. -/
theorem chip_after_captureData : (s.after captureData).chip =
    ((s.after readSamples).after (execute .captureReadDone)).chip := by
  unfold captureData
  rw [chip_after_setPhase, chip_after_tracked]
  unfold after
  simp only [attempt, bind, EStateM.bind]
  cases readSamples s with
  | ok data u => dsimp only; cases execute .captureReadDone u <;> rfl
  | error e u => dsimp only; cases execute .captureReadDone u <;> rfl

end captureData

/-- To read back a capture hands the buffers back once, after all reading, and reports the first of
what went wrong. -/
structure ReleasesOnce (s : Session) : Prop where
  /-- The calls up to a moment are those of the reading, and none of them is a command; then follows
  the command that hands the buffers back, and nothing but the wait for it. -/
  calls : ∃ reading outcome waiting,
    (s.after readSamples).chip.calls = reading ++ s.chip.calls ∧
    (∀ c ∈ reading, c.kind ≠ .command) ∧
    (s.after captureData).chip.calls =
      waiting ++ ⟨.command Opcode.set [Object.trackingControl, Object.predistortion, 0,
        Tracking.captureReadDone], outcome⟩ :: reading ++ s.chip.calls ∧
    ∀ c ∈ waiting, c.kind = .statusWait
  /-- The error of the reading is reported, whatever came of the command. -/
  reading_fails (e : Error) (hread : s.answer readSamples = .error e) :
    s.answer captureData = .error e
  /-- The error of the command is reported if the samples were read. -/
  release_fails (data : Data) (e : Error) (hread : s.answer readSamples = .ok data)
    (hrelease : (s.after readSamples).answer (execute .captureReadDone) = .error e) :
    s.answer captureData = .error e
  /-- What was read is answered if nothing went wrong. -/
  succeeds (data : Data) (hread : s.answer readSamples = .ok data)
    (hrelease : (s.after readSamples).answer (execute .captureReadDone) = .ok ()) :
    s.answer captureData = .ok data

/-- The buffers are handed back once after every reading, whatever came of it. This holds of every
session: of all phases, records, faults and settings. -/
theorem releasesOnce (s : Session) : s.ReleasesOnce where
  calls := by
    obtain ⟨reading, hreading, hplain⟩ : s.chip.Grows (fun c => c.kind ≠ .command)
        (s.after readSamples).chip := after_of_ends (Obeys.readSamples commandless_hosts s)
    obtain ⟨outcome, waiting, hgiven, hwaiting⟩ : Chip.Gives .captureReadDone
        (s.after readSamples).chip (s.after captureData).chip := by
      rw [chip_after_captureData]
      exact after_of_ends (ends_execute_gives .captureReadDone (s.after readSamples))
    refine ⟨reading, outcome, waiting, hreading, hplain, ?_, hwaiting⟩
    rw [hgiven, hreading]
    simp [Command.request, Command.captureReadDone, Command.tracking]
  reading_fails e hread := by
    rw [answer_captureData, hread]
    rfl
  release_fails data e hread hrelease := by
    rw [answer_captureData, hread, hrelease]
    rfl
  succeeds data hread hrelease := by
    rw [answer_captureData, hread, hrelease]
    rfl

end Session

end Predistortion
