import Predistortion.Proofs.Frame
import Predistortion.Proofs.Refusal
import Predistortion.Session.Capture

/-!
# The life cycle of a capture

An `Operation` is one call of the capture interface of a session, and `Operation.run` carries it
out. Main statement: each operation moves the phase in one fixed way (`capture_lifecycle`). A
success leads to the phase that `Operation.next` names. A failure that comes from the hardware leads
to `failed`, and any other failure leaves the phase as it was. The law holds from every session, for
every content of the chip and under every list of faults; the phase `failed` itself refuses to
trigger and to poll.

The proofs follow the text of the operations. What runs under `tracked` needs only to leave the
phase alone unless the hardware fails (`Steady`, `phaseLaw_tracked`); the rest is put together by
`PhaseLaw.bind`.
-/

namespace Predistortion

open SessionM
open Capture (Config Control Level Threshold Boundary Status Samples Buffer Data Phase)

variable {α β : Type}

/-! ## Operations -/

/-- One call of the capture interface. -/
inductive Operation where
  /-- Configure captures. -/
  | setConfig (config : Config)
  /-- Read the configuration. -/
  | config
  /-- Write the control part. -/
  | setControl (control : Control)
  /-- Read the control part. -/
  | control
  /-- Write the level part. -/
  | setLevel (level : Level)
  /-- Read the level part. -/
  | level
  /-- Write the thresholds of a boundary. -/
  | setThreshold (boundary : Boundary) (threshold : Threshold)
  /-- Read the thresholds of a boundary. -/
  | threshold (boundary : Boundary)
  /-- Trigger a capture. -/
  | trigger
  /-- Ask whether a capture is complete. -/
  | pollDone
  /-- Clear the flag that a capture is complete. -/
  | clearDone
  /-- Hand the buffers back. -/
  | readDone
  /-- Give up a capture, or leave the phase `failed`. -/
  | reset
  /-- Read the capture status of a channel. -/
  | status (channel : Channel)
  /-- Read samples from a buffer. -/
  | readBuffer (buffer : Buffer) (count : Nat)
  /-- Read the samples of the configured capture and hand the buffers back. -/
  | data
deriving DecidableEq

namespace Operation

/-- What an operation answers. -/
@[reducible] def Answer : Operation → Type
  | .config => Config
  | .control => Control
  | .level => Level
  | .threshold _ => Threshold
  | .pollDone => Bool
  | .status _ => Status
  | .readBuffer .. => Samples
  | .data => Data
  | _ => Unit

/-- Carries out an operation. -/
def run : (o : Operation) → SessionM o.Answer
  | .setConfig c => Session.setConfig c
  | .config => Session.config
  | .setControl c => Session.setControl c
  | .control => Session.control
  | .setLevel l => Session.setLevel l
  | .level => Session.level
  | .setThreshold boundary t => Session.setThreshold boundary t
  | .threshold boundary => Session.threshold boundary
  | .trigger => Session.trigger
  | .pollDone => Session.pollDone
  | .clearDone => Session.clearDone
  | .readDone => Session.readDone
  | .reset => Session.resetPhase
  | .status channel => Session.captureStatus channel
  | .readBuffer buffer count => Session.readBuffer buffer count
  | .data => Session.captureData

/-- The phase after a success: from the answer and the phase before. -/
def next : (o : Operation) → o.Answer → Phase → Phase
  | .setConfig _, _, _ => .configured
  | .trigger, _, _ => .armed
  | .pollDone, complete, phase => if complete then .done else phase
  | .clearDone, _, _ | .readDone, _, _ | .reset, _, _ | .data, _, _ => .idle
  | _, _, phase => phase

/-- A success does not fail a session. Only failures do, and those of the hardware only. -/
theorem next_ne_failed (o : Operation) (a : o.Answer) {phase : Phase} (h : phase ≠ .failed) :
    o.next a phase ≠ .failed := by
  cases o with
  | pollDone =>
    cases a with
    | true => simp [next]
    | false => exact h
  | setConfig | trigger | clearDone | readDone | reset | data => simp [next]
  | _ => exact h

end Operation

/-! ## The law of the phase -/

/-- A success moves the phase to what `next` makes of the answer and the phase before; a failure of
the hardware moves it to `failed`, and any other failure leaves it. -/
def PhaseLaw (m : SessionM α) (next : α → Phase → Phase) : Prop :=
  ∀ s : Session, Ends m s (fun a t => t.phase = next a s.phase)
    (fun e t => t.phase = if e.isHardwareFailure then .failed else s.phase)

/-- Under `tracked` a success is as it was, and a failure of the hardware enters the phase
`failed`. -/
theorem ends_tracked {m : SessionM α} {s : Session} {done : α → Session → Prop}
    {failed : Error → Session → Prop} :
    Ends (Session.tracked m) s done failed ↔
      Ends m s done
        (fun e t => failed e (if e.isHardwareFailure then { t with phase := .failed } else t)) := by
  unfold Ends Session.tracked
  cases m s <;> rfl

/-- The phase is left alone, unless the hardware fails. -/
def Steady (m : SessionM α) : Prop :=
  ∀ s : Session, Ends m s (fun _ t => t.phase = s.phase)
    (fun e t => e.isHardwareFailure = false → t.phase = s.phase)

namespace Steady

/-- What never touches the phase is steady. -/
theorem of_keeps {m : SessionM α} (h : Keeps Session.phase m) : Steady m :=
  fun s => (h s).mono (fun _ _ ht => ht) (fun _ _ ht _ => ht)

/-- What keeps the phase but for failures of the hardware is steady. Whether it has noted a failure
itself does not matter to what comes after. -/
theorem of_phaseLaw {m : SessionM α} (h : PhaseLaw m fun _ phase => phase) : Steady m := by
  intro s
  refine (h s).mono (fun _ _ ht => ht) (fun e t ht he => ?_)
  simpa [he] using ht

/-- Two steady computations in turn are steady, also where the first one fails and the second is not
reached. -/
theorem bind {m : SessionM α} {k : α → SessionM β} (hm : Steady m) (hk : ∀ a, Steady (k a)) :
    Steady (m >>= k) := by
  intro s
  rw [ends_bind]
  refine (hm s).mono (fun a t ht => ?_) (fun _ _ ht => ht)
  have hkt := hk a t
  rwa [ht] at hkt

/-- To answer is steady. -/
theorem pure (a : α) : Steady (pure a) := of_keeps (.pure a)

end Steady

/-- What runs under `tracked` has to leave the phase alone only while the hardware works. -/
theorem phaseLaw_tracked {m : SessionM α} (h : Steady m) :
    PhaseLaw (Session.tracked m) (fun _ phase => phase) := by
  intro s
  rw [ends_tracked]
  refine (h s).mono (fun _ _ ht => ht) (fun e t ht => ?_)
  cases he : e.isHardwareFailure with
  | true => simp
  | false => simpa using ht he

/-- What never touches the phase may run under `tracked`. -/
theorem phaseLaw_tracked_of_keeps {m : SessionM α} (h : Keeps Session.phase m) :
    PhaseLaw (Session.tracked m) (fun _ phase => phase) :=
  phaseLaw_tracked (.of_keeps h)

namespace PhaseLaw

/-- To answer leaves the phase. -/
theorem pure (a : α) : PhaseLaw (pure a) (fun _ phase => phase) := fun _ => rfl

/-- To enter a phase leads to it from any other. -/
theorem setPhase (phase : Phase) : PhaseLaw (Session.setPhase phase) (fun _ _ => phase) :=
  fun _ => rfl

/-- A refusal is no failure of the hardware, so neither way to end moves the phase. -/
theorem ofExcept {x : Except Error α} (h : Refuses x) :
    PhaseLaw (ofExcept x) (fun _ phase => phase) := by
  intro s
  rw [ends_ofExcept]
  cases x with
  | ok a => rfl
  | error e =>
    have := h.not_hardware rfl
    simp [this]

/-- A check that fails only with refusals leaves the phase, whether it passes or not. -/
theorem checked {check : Except Error Unit} (h : Refuses check) :
    PhaseLaw (SessionM.checked check) (fun _ phase => phase) := by
  intro s
  rw [ends_checked]
  split
  · have hcheck := ofExcept h s
    rw [ends_ofExcept] at hcheck
    cases check with
    | ok => exact hcheck
    | error e => exact hcheck
  · rfl

/-- What follows a computation that leaves the phase alone decides the phase. -/
theorem bind {m : SessionM α} {k : α → SessionM β} {next : β → Phase → Phase}
    (hm : PhaseLaw m fun _ phase => phase) (hk : ∀ a, PhaseLaw (k a) next) :
    PhaseLaw (m >>= k) next := by
  intro s
  rw [ends_bind]
  refine (hm s).mono (fun a t ht => ?_) (fun _ _ ht => ht)
  have hkt := hk a t
  rwa [ht] at hkt

/-- A choice follows a law if both of its branches do. -/
theorem ite {c : Prop} [Decidable c] {m n : SessionM α} {next : α → Phase → Phase}
    (hm : PhaseLaw m next) (hn : PhaseLaw n next) : PhaseLaw (if c then m else n) next := by
  split
  · exact hm
  · exact hn

/-- To ask that the session is not failed leaves the phase. What it reports is a refusal and no
failure of the hardware. -/
theorem requireNotFailed (operation : String) :
    PhaseLaw (Session.requireNotFailed operation) (fun _ phase => phase) := by
  intro s
  unfold Session.requireNotFailed
  rw [ends_bind, ends_get, ends_ite]
  exact ⟨fun _ => rfl, fun _ => rfl⟩

end PhaseLaw

/-! ## Each operation -/

section operations

open Session

/-- To set a configuration leads to `configured`. All of it runs under `tracked`, so its failures
follow the law. -/
theorem phaseLaw_setConfig (config : Config) :
    PhaseLaw (setConfig config) (fun _ _ => .configured) := by
  have routed (pin : Pin) : Keeps Session.phase (routeTriggerPin pin) :=
    .bind (.perform offChip_phase _) fun _ _ => rfl
  have written : Keeps Session.phase (writeCapture 0 config.encode) := .perform offChip_phase _
  refine .bind (.checked (.checkConfig config)) fun _ => .bind ?_ fun _ => .setPhase _
  refine phaseLaw_tracked_of_keeps (.bind (routed _) fun _ => .bind ?_ fun _ => written)
  exact .setDonePin offChip_phase _

/-- To read the configuration leaves the phase, and so does the search for the completion pin that
belongs to it. -/
theorem phaseLaw_config : PhaseLaw Session.config (fun _ phase => phase) := by
  -- a record that does not decode is no failure of the hardware, so it does not matter that the
  -- decoding is tracked too
  have read : Keeps Session.phase donePin := .onChip offChip_phase _
  refine phaseLaw_tracked_of_keeps (.bind read fun _ => ?_)
  exact .bind (.perform offChip_phase _) fun _ => .bind .get fun _ => .ofExcept _

/-- To check a part of the record and write it leaves the phase, since the check is a refusal and
the write is tracked. -/
theorem phaseLaw_writePart {check : Except Error Unit} (h : Refuses check) (offset : UInt16)
    (data : Bytes) :
    PhaseLaw (do checked check; tracked (writeCapture offset data)) (fun _ phase => phase) :=
  .bind (.checked h) fun _ => phaseLaw_tracked_of_keeps (.perform offChip_phase _)

/-- To read a part of the record and decode it leaves the phase. A part that does not decode is
refused, after a reading that is tracked. -/
theorem phaseLaw_readPart {decode : Bytes → Except Error α} (h : ∀ b, Refuses (decode b))
    (offset : UInt16) (length : Nat) :
    PhaseLaw (do let record ← tracked (readCapture offset length); ofExcept (decode record))
      (fun _ phase => phase) :=
  .bind (phaseLaw_tracked_of_keeps (.perform offChip_phase _)) fun b => .ofExcept (h b)

/-- To read the control part leaves the phase, as it does for every part. -/
theorem phaseLaw_control : PhaseLaw Session.control (fun _ phase => phase) :=
  phaseLaw_readPart Refuses.decodeControl _ _

/-- A command under `tracked` leaves the phase, unless the hardware fails. -/
theorem phaseLaw_trackedExecute (k : Command) :
    PhaseLaw (tracked (execute k)) (fun _ phase => phase) :=
  phaseLaw_tracked_of_keeps (.execute offChip_phase k)

/-- To trigger a capture leads to `armed`. It starts from a phase that is not `failed`. -/
theorem phaseLaw_trigger : PhaseLaw trigger (fun _ _ => .armed) := by
  refine .bind (.requireNotFailed _) fun _ => .bind phaseLaw_control fun _ => ?_
  refine .bind (phaseLaw_tracked_of_keeps ?_) fun _ => .setPhase _
  exact .ite (.perform offChip_phase _) (.execute offChip_phase _)

/-- A poll leads to `done` if it answers yes, and leaves the phase otherwise. It starts from a phase
that is not `failed`, as a trigger does. -/
theorem phaseLaw_pollDone :
    PhaseLaw pollDone (fun complete phase => if complete then .done else phase) := by
  have query : Keeps Session.phase queryDone :=
    .bind (.execute offChip_phase _) fun _ => .bind (.perform offChip_phase _) fun _ => .pure _
  refine .bind (.requireNotFailed _) fun _ => .bind (phaseLaw_tracked_of_keeps query) ?_
  rintro (_ | _)
  · exact .pure false
  · refine .bind (phaseLaw_trackedExecute _) fun _ s => ?_
    rfl

/-- To ask for the status of a channel leaves the phase. -/
theorem phaseLaw_status (c : Channel) : PhaseLaw (captureStatus c) (fun _ phase => phase) :=
  phaseLaw_tracked_of_keeps
    (.bind (.execute offChip_phase _) fun _ => .bind (.perform offChip_phase _) fun _ =>
      .ofExcept _)

/-- To read a buffer leaves the phase. -/
theorem phaseLaw_readBuffer (buffer : Buffer) (count : Nat) :
    PhaseLaw (readBuffer buffer count) (fun _ phase => phase) := by
  unfold readBuffer
  refine .ite (.pure _) (.bind (phaseLaw_tracked_of_keeps ?_) fun _ => .pure _)
  exact .perform offChip_phase _

/-- To read pages of tables never touches the phase, on success or failure. It is the one part of
the reading that is not tracked. -/
theorem keeps_readPages (c : Channel) (pages : List (Table × Bank)) (count : Nat) :
    Keeps Session.phase (readPages c pages count) := by
  induction pages generalizing count with
  | nil => exact .pure _
  | cons page rest ih =>
    refine .ite (.pure _) (.bind (.readTable offChip_phase _ _ _ _) fun _ => ?_)
    exact .bind (ih _) fun _ => .pure _

/-- The parts of the reading are tracked, or do not touch the phase at all. So a failure is noted
once where it is noted. -/
theorem steady_readSamples : Steady readSamples := by
  unfold readSamples
  refine .bind (.of_phaseLaw phaseLaw_control) fun control => ?_
  have pages (c : Channel) (count : Nat) :
      Steady (readPages c (peakPages control.size.pages) count) :=
    .of_keeps (keeps_readPages c _ count)
  have buffer (b : Buffer) (count : Nat) : Steady (readBuffer b count) :=
    .of_phaseLaw (phaseLaw_readBuffer b count)
  dsimp only
  split
  · exact .bind (pages _ _) fun _ => .bind (pages _ _) fun _ => .pure _
  · exact .bind (buffer _ _) fun _ => .bind (buffer _ _) fun _ => .bind (buffer _ _) fun _ =>
      .pure _

/-- The release of the buffers leaves the phase alone, and it cannot hide that the reading failed.
-/
theorem steady_readAndRelease :
    Steady (do
      let read ← attempt readSamples
      let released ← attempt (execute Command.captureReadDone)
      ofExcept (readThenRelease read released)) := by
  intro s
  have release : Keeps Session.phase (execute Command.captureReadDone) := .execute offChip_phase _
  rw [ends_bind, ends_attempt]
  refine (steady_readSamples s).mono (fun data t ht => ?_) (fun e t ht => ?_)
  · rw [ends_bind, ends_attempt]
    refine (release t).mono (fun _ u hu => ?_) (fun _ u hu => ?_)
    · exact hu.trans ht
    · exact fun _ => hu.trans ht
  · rw [ends_bind, ends_attempt]
    refine (release t).mono (fun _ u hu => ?_) (fun _ u hu => ?_)
    · exact fun he => hu.trans (ht he)
    · exact fun he => hu.trans (ht he)

/-- To read the samples and hand the buffers back leads to `idle`. The failure of the reading is
looked at before that of the handing back. -/
theorem phaseLaw_captureData : PhaseLaw captureData (fun _ _ => .idle) := by
  refine .bind (phaseLaw_tracked steady_readAndRelease) fun data s => ?_
  rfl

/-! ## All operations -/

/-- Every operation moves the phase by the law, one case for each of them. -/
theorem phaseLaw_run (o : Operation) : PhaseLaw o.run o.next := by
  cases o with
  | setConfig config => exact phaseLaw_setConfig config
  | config => exact phaseLaw_config
  | setControl control => exact phaseLaw_writePart (.checkControl control) _ _
  | control => exact phaseLaw_control
  | setLevel level => exact phaseLaw_tracked_of_keeps (.perform offChip_phase _)
  | level => exact phaseLaw_readPart Refuses.decodeLevel _ _
  | setThreshold boundary threshold => exact phaseLaw_writePart (.checkThreshold threshold) _ _
  | threshold boundary => exact phaseLaw_readPart Refuses.decodeThreshold _ _
  | trigger => exact phaseLaw_trigger
  | pollDone => exact phaseLaw_pollDone
  | clearDone => exact .bind (phaseLaw_trackedExecute _) fun _ => .setPhase _
  | readDone => exact .bind (phaseLaw_trackedExecute _) fun _ => .setPhase _
  | reset => exact .setPhase _
  | status channel => exact phaseLaw_status channel
  | readBuffer buffer count => exact phaseLaw_readBuffer buffer count
  | data => exact phaseLaw_captureData

/-- In the phase `failed` what asks for another phase is refused, and the session stays as it is. -/
theorem requireNotFailed_of_failed {s : Session} (h : s.phase = .failed) (operation : String) :
    requireNotFailed operation s = .error (.phase operation "error") s := by
  change (if s.phase = .failed then throw (.phase operation s.phase.label) else pure () :
    SessionM Unit) s = _
  rw [if_pos h, h]
  rfl

/-- In the phase `failed` no capture is triggered, and nothing at all is asked of the chip. -/
theorem trigger_of_failed {s : Session} (h : s.phase = .failed) :
    trigger s = .error (.phase "start capture" "error") s := by
  unfold trigger
  simp only [bind, EStateM.bind, requireNotFailed_of_failed h]

/-- In the phase `failed` no capture is polled for, and nothing at all is asked of the chip. -/
theorem pollDone_of_failed {s : Session} (h : s.phase = .failed) :
    pollDone s = .error (.phase "poll capture done" "error") s := by
  unfold pollDone
  simp only [bind, EStateM.bind, requireNotFailed_of_failed h]

/-- The life cycle: how each operation moves the phase, from every session and under all faults, and
that a failed session refuses to trigger and to poll without touching the chip. -/
theorem capture_lifecycle :
    (∀ o : Operation, PhaseLaw o.run o.next) ∧
      ∀ s : Session, s.phase = .failed →
        trigger s = .error (.phase "start capture" "error") s ∧
          pollDone s = .error (.phase "poll capture done" "error") s := by
  refine ⟨phaseLaw_run, fun s hs => ⟨?_, ?_⟩⟩
  · exact trigger_of_failed hs
  · exact pollDone_of_failed hs

end operations

end Predistortion
