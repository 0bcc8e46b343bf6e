import Predistortion.Proofs.Lifecycle
import Predistortion.Proofs.SwapSet
import Predistortion.Session.Batches
import Predistortion.Session.Monitors

/-!
# Rejected arguments

Many operations look at their arguments before they do anything, and some of them once more on the
way: a batch of tables is checked as a whole and then written table by table, and each of these
writes makes its own check. Nothing of this happens too late. When an operation reports that it was
given a bad argument, then all that it has done is to read (`Session.OnlyRead`).

The argument splits an operation. What stands before its first write only reads (`reading`); what
comes after blames no argument any more (`blameless`), because the checks before imply the later
ones. Main statement: `rejection_only_reads`.
-/

namespace Predistortion

open SessionM
open Capture (Config Control Boundary Threshold)

variable {α β : Type}

/-! ## Reads -/

/-- From the one session to the other nothing was done but to read: no other request was even tried,
and all that has changed are the lists of calls and of transactions. -/
def Session.OnlyRead (s t : Session) : Prop :=
  ∃ (calls : List Call) (journal : List Request),
    (∀ call ∈ calls, call.request.isRead = true) ∧ (∀ r ∈ journal, r.isRead = true) ∧
      t = { s with chip := { s.chip with
        calls := calls ++ s.chip.calls
        journal := journal ++ s.chip.journal } }

namespace Session.OnlyRead

variable {s t u : Session}

/-- To do nothing is only to read. -/
theorem refl (s : Session) : s.OnlyRead s := ⟨[], [], by simp, by simp, rfl⟩

/-- To read twice is only to read, and the lists of calls and of transactions grow by both. -/
theorem trans (hst : s.OnlyRead t) (htu : t.OnlyRead u) : s.OnlyRead u := by
  obtain ⟨calls, journal, hcalls, hjournal, rfl⟩ := hst
  obtain ⟨calls', journal', hcalls', hjournal', rfl⟩ := htu
  refine ⟨calls' ++ calls, journal' ++ journal, ?_, ?_, by simp⟩
  · intro call hcall
    rcases List.mem_append.1 hcall with h | h
    · exact hcalls' call h
    · exact hcalls call h
  · intro r hr
    rcases List.mem_append.1 hr with h | h
    · exact hjournal' r h
    · exact hjournal r h

/-- The settings are not changed by reads, so that what is checked stays the same. -/
theorem settings (h : s.OnlyRead t) : t.settings = s.settings := by
  obtain ⟨_, _, _, _, rfl⟩ := h
  rfl

end Session.OnlyRead

/-- The contract only to read. -/
def reading : Contract Session := .ofRelation Session.OnlyRead .refl .trans

/-- A read obeys the contract whether it is served or refused. A refusal adds to the list of calls
alone. -/
theorem obeys_reading_perform {r : Request} (h : r.isRead = true) : Obeys reading (perform r) := by
  refine .request (fun s => ?_) fun s e _ => ?_
  · rw [Chip.served_of_isRead _ h]
    refine ⟨[⟨r, .ok (s.chip.serve r).1⟩], if r.isTransaction then [r] else [], ?_, ?_, ?_⟩
    · simpa using h
    · split
      · simpa using h
      · simp
    · split <;> rfl
  · refine ⟨[⟨r, .error e⟩], [], ?_, by simp, rfl⟩
    simpa using h

/-- To ask for swap mode obeys the contract from either source: the flag of the session needs no
request, and the one of the chip is read. -/
theorem obeys_reading_isSwapMode : Obeys reading Session.isSwapMode := by
  refine .bind .get fun s => ?_
  split
  · exact .pure _
  · exact .bind (obeys_reading_perform rfl) fun _ => .pure _

/-- To read the model of a channel obeys the contract, also where what was read is refused by its
decoder. -/
theorem obeys_reading_model (c : Channel) : Obeys reading (Session.model c) := by
  refine .bind (obeys_reading_perform rfl) fun record s => ?_
  rw [ends_ofExcept]
  split
  · exact .refl s
  · exact .refl s

/-! ## What blames no argument -/

/-- A refusal by the chip blames no argument. -/
theorem Error.isInvalidArgument_ofTransport (e : TransportError) :
    (ofTransport e).isInvalidArgument = false := by
  cases e <;> rfl

/-- The contract, under given settings, to keep them and to blame no argument. -/
def blameless (settings : Settings) : Contract Session where
  done s t := s.settings = settings → t.settings = settings
  failed s e t := s.settings = settings → e.isInvalidArgument = false ∧ t.settings = settings
  refl _ := id
  trans hst htu hs := htu (hst hs)
  fail hst htu hs := htu (hst hs)
  late hst htu hs := ⟨(hst hs).1, htu (hst hs).2⟩

section blameless

variable {settings : Settings}

/-- No request blames an argument, and none changes the settings. -/
theorem obeys_blameless_perform (r : Request) : Obeys (blameless settings) (perform r) :=
  .request (fun _ hs => hs) fun _ e _ hs => ⟨Error.isInvalidArgument_ofTransport e, hs⟩

/-- The same for the requests of a program text whose contract is given by its parts. -/
theorem blameless_serves : (blameless settings).Serves := fun r _ => obeys_blameless_perform r

/-- To find a pin owned by another feature blames that feature, and not the argument. -/
theorem blameless_mayConflict : (blameless settings).MayConflict := fun _ _ _ hs => ⟨rfl, hs⟩

/-- The contract does not look at the phase, so it is kept where failures are watched for. -/
theorem blameless_tolerant : (blameless settings).Tolerant := fun _ _ _ h hs => (h hs).2

/-- To switch a clock blames no argument. It may run out of time, which is an error of the
hardware. -/
theorem obeys_blameless_setClock (c : Channel) (on : Bool) :
    Obeys (blameless settings) (Session.setClock c on) :=
  .setClock blameless_serves (fun _ _ hs => ⟨rfl, hs⟩) c on

/-- A command blames no argument, also when it completes with a status that flags an error. -/
theorem obeys_blameless_execute (k : Command) : Obeys (blameless settings) (execute k) :=
  .command (obeys_blameless_perform _) (fun _ _ => obeys_blameless_perform _) fun _ _ _ hs =>
    ⟨rfl, hs⟩

/-- A check that cannot fail, under settings that ask for it, blames no argument. This is used where
a check is made twice. -/
theorem obeys_blameless_checked {check : Except Error Unit}
    (h : settings.validation.rangeCheck = true → check = .ok ()) :
    Obeys (blameless settings) (checked check) := by
  intro s
  refine (ends_checked_self check s).mono ?_ ?_
  · rintro _ t ⟨rfl, -⟩ hs
    exact hs
  · rintro e t ⟨rfl, hon, herror⟩ rfl
    rw [h hon] at herror
    cases herror

/-- To watch for failures changes the phase alone, so that it blames nothing more. -/
theorem obeys_blameless_tracked {m : SessionM α} (h : Obeys (blameless settings) m) :
    Obeys (blameless settings) (Session.tracked m) := by
  intro s
  rw [ends_tracked]
  refine (h s).mono (fun _ _ ht => ht) fun e t ht hs => ⟨(ht hs).1, ?_⟩
  split
  · exact (ht hs).2
  · exact (ht hs).2

/-- To go on to a phase cannot fail. -/
theorem obeys_blameless_setPhase (phase : Capture.Phase) :
    Obeys (blameless settings) (Session.setPhase phase) := fun _ hs => hs

/-- To write into a table blames no argument once its access was checked, because its own check then
finds nothing wrong. -/
theorem obeys_blameless_writeTable {c : Channel} {t : Table} {b : Bank} {data : Bytes}
    (h : settings.validation.rangeCheck = true →
      Table.checkAccess b data.machineLength = .ok ()) :
    Obeys (blameless settings) (Session.writeTable c t b data) :=
  .writeTable blameless_serves obeys_blameless_setClock c t b data (obeys_blameless_checked h)

/-- To stage a payload makes the requests for its two rows and nothing else, and no request blames
an argument. -/
theorem obeys_blameless_stage (table : UInt64) (data : Bytes) :
    Obeys (blameless settings) (Session.stage table data) :=
  .forM fun _ _ => obeys_blameless_perform _

end blameless

/-! ## Operations that look at their arguments first -/

/-- An error that blames an argument is reported, from this session on, before anything was done but
to read. -/
def CarefulAt (s : Session) (m : SessionM α) : Prop :=
  Ends m s (fun _ _ => True) (fun e t => e.isInvalidArgument = true → s.OnlyRead t)

namespace CarefulAt

variable {s : Session}

/-- An operation that blames no argument is careful for the reason that it never has to be. After
the last check of a call this is all that is needed. -/
theorem of_blameless {m : SessionM α} (h : Obeys (blameless s.settings) m) : CarefulAt s m := by
  refine (h s).mono (fun _ _ _ => trivial) fun e t ht hblamed => ?_
  rw [(ht rfl).1] at hblamed
  cases hblamed

/-- What was read before does not matter, as long as what follows is careful from there on under the
same settings. -/
theorem reading_bind {m : SessionM α} {k : α → SessionM β} (hm : Obeys reading m)
    (hk : ∀ a t, t.settings = s.settings → CarefulAt t (k a)) : CarefulAt s (m >>= k) := by
  unfold CarefulAt
  rw [ends_bind]
  refine (hm s).mono (fun a t hst => ?_) fun _ _ hst _ => hst
  refine (hk a t hst.settings).mono (fun _ _ _ => trivial) fun e u htu hblamed => ?_
  exact hst.trans (htu hblamed)

/-- A refusal at this point comes in time, since nothing was done yet. What follows may use what the
check has found. -/
theorem check_bind {x : Except Error α} {k : α → SessionM β}
    (hk : ∀ a, x = .ok a → CarefulAt s (k a)) : CarefulAt s (ofExcept x >>= k) := by
  unfold CarefulAt
  rw [ends_bind, ends_ofExcept]
  cases hx : x with
  | ok a => exact hk a hx
  | error e => exact fun _ => .refl s

/-- A check that fails does so in time, so what follows has to be looked at only if it passes. There
it may be used that the check found nothing wrong. -/
theorem checked_bind {check : Except Error Unit} {k : Unit → SessionM α}
    (hk : (s.rangeCheck = true → check = .ok ()) → CarefulAt s (checked check >>= k)) :
    CarefulAt s (checked check >>= k) := by
  by_cases hpasses : s.rangeCheck = true → check = .ok ()
  · exact hk hpasses
  · unfold CarefulAt
    rw [ends_bind]
    refine (ends_checked_self check s).mono ?_ ?_
    · rintro _ t ⟨rfl, hcheck⟩
      exact absurd hcheck hpasses
    · rintro e t ⟨rfl, -⟩ _
      exact .refl t

/-- An operation that makes one check, after which nothing is blamed. Most operations are of this
form. -/
theorem checked_blameless {check : Except Error Unit} {k : Unit → SessionM α}
    (hk : Obeys (blameless s.settings) (k ())) : CarefulAt s (checked check >>= k) :=
  checked_bind fun hcheck =>
    of_blameless (.bind (obeys_blameless_checked hcheck) fun _ => hk)

variable (s)

/-! ### Captures -/

/-- A configuration is checked as a whole, and after this the pins are routed and the record is
written. -/
theorem setConfig (config : Config) : CarefulAt s (Session.setConfig config) := by
  refine checked_blameless (.bind (obeys_blameless_tracked ?_) fun _ => ?_)
  · have routed : Obeys (blameless s.settings) (Session.routeTriggerPin config.triggerPin) :=
      .bind (obeys_blameless_perform _) fun _ _ hs => hs
    refine .bind routed fun _ => .bind ?_ fun _ => obeys_blameless_perform _
    exact .setDonePin blameless_serves blameless_mayConflict blameless_tolerant _
  · exact obeys_blameless_setPhase _

/-- A part of the record is checked before it is written. The control part and the thresholds share
this program text. -/
theorem writePart (check : Except Error Unit) (offset : UInt16) (data : Bytes) :
    CarefulAt s (do checked check; Session.tracked (Session.writeCapture offset data)) :=
  checked_blameless (obeys_blameless_tracked (obeys_blameless_perform _))

/-! ### Tables -/

/-- An access that is written is checked before the clock of the channel is touched. -/
theorem writeTable (c : Channel) (t : Table) (b : Bank) (data : Bytes) :
    CarefulAt s (Session.writeTable c t b data) :=
  checked_bind fun hcheck => of_blameless (obeys_blameless_writeTable hcheck)

/-- An access that is read is checked before the clock of the channel is touched. -/
theorem readTable (c : Channel) (t : Table) (b : Bank) (length : Nat) :
    CarefulAt s (Session.readTable c t b length) :=
  checked_bind fun hcheck => of_blameless
    (.readTable blameless_serves obeys_blameless_setClock c t b length
      (obeys_blameless_checked hcheck))

/-- Each write of a batch makes a check of its own, which the check of the whole set implies. So no
write of the batch is rejected after others were made. -/
theorem writeSwapSet (c : Channel) (bank : Bank) (set : SwapSet) :
    CarefulAt s (Session.writeSwapSet c bank set) := by
  refine reading_bind (obeys_reading_model c) fun m t _ => ?_
  have passes {u : Session} (hcheck : u.settings.validation.rangeCheck = true →
      set.check m.compander bank = .ok ()) : CarefulAt u (do
        set.payloads.forM fun p => Session.writeTable c (SwapSet.activeTable p.1) bank p.2
        Session.setRamSelect c Table.park
        set.payloads.forM fun p =>
          Session.writeTable c (SwapSet.heldTable p.1) m.compander.holdingBank p.2
        Session.setRamSelect c Table.park) := by
    have parked : Obeys (blameless u.settings) (Session.setRamSelect c Table.park) :=
      .updateRegister blameless_serves _ _ _
    refine of_blameless (.bind (.forM fun p hp => ?_) fun _ => .bind parked fun _ =>
      .bind (.forM fun p hp => ?_) fun _ => parked)
    · exact obeys_blameless_writeTable fun hon => (SwapSet.checkAccess_of_check (hcheck hon) hp).1
    · exact obeys_blameless_writeTable fun hon => (SwapSet.checkAccess_of_check (hcheck hon) hp).2
  unfold CarefulAt
  rw [ends_bind, ends_get, ends_ite]
  refine ⟨fun hon => ?_, fun hoff => ?_⟩
  · refine reading_bind obeys_reading_isSwapMode fun on u _ => ?_
    exact check_bind fun _ _ => check_bind fun _ hcheck => passes fun _ => hcheck
  · exact passes fun hon => absurd hon hoff

/-- The number of the table and the length of its payload are checked before the first row is
written. -/
theorem stageTable (table : UInt64) (data : Bytes) :
    CarefulAt s (Session.stageTable table data) :=
  checked_blameless (obeys_blameless_stage table data)

/-- All payloads are checked before the first one is written. -/
theorem stageTables (tables : Session.StagedTables) : CarefulAt s (Session.stageTables tables) :=
  checked_blameless (.forM fun p _ => obeys_blameless_stage p.1 p.2)

/-- The slot is checked before its bank is put into the scratch area. This check is made under all
settings. -/
theorem promote (c : Channel) (slot : ModelSlot) : CarefulAt s (Session.promote c slot) :=
  check_bind fun _ _ => of_blameless
    (.bind (obeys_blameless_perform _) fun _ => obeys_blameless_execute _)

/-! ### Models and actuators -/

/-- The model is checked before its record is written. -/
theorem setModel (c : Channel) (m : Model) : CarefulAt s (Session.setModel c m) :=
  checked_blameless (obeys_blameless_perform _)

/-- The slot and then the model are checked before the record is written. -/
theorem setDualModel (c : Channel) (m : Model) : CarefulAt s (Session.setDualModel c m) :=
  check_bind fun _ _ => checked_blameless (obeys_blameless_perform _)

/-- The mask is checked twice, for being empty and against what is initialized, before the one
command is given. -/
theorem setActuatorEnable (mask : ChannelMask) (on : Bool) :
    CarefulAt s (Session.setActuatorEnable mask on) :=
  checked_blameless (obeys_blameless_execute _)

/-- The mask is checked before the register of its first channel is read. -/
theorem setPassthru (mask : ChannelMask) (on : Bool) :
    CarefulAt s (Session.setPassthru mask on) := by
  refine checked_blameless (.forM fun c _ => .bind ?_ fun _ => ?_)
  · exact .bind (.readRegister blameless_serves _) fun _ => .pure _
  · exact .updateRegister blameless_serves _ _ _

/-- The mask is checked before the one command is given. -/
theorem selectModel (mask : ChannelMask) (slot : ModelSlot) :
    CarefulAt s (Session.selectModel mask slot) :=
  checked_blameless (obeys_blameless_execute _)

/-! ### Monitors and pins -/

/-- All entries are checked before the record of the first one is written. -/
theorem setGainMonitor (entries : List GainMonitor) :
    CarefulAt s (Session.setGainMonitor entries) :=
  check_bind fun _ _ => checked_blameless
    (.forM fun _ _ => .forM fun _ _ => obeys_blameless_perform _)

/-- All entries are checked before the record of the first one is sent. -/
theorem setClipper (entries : List Clipper) : CarefulAt s (Session.setClipper entries) :=
  check_bind fun _ _ => checked_blameless (.forM fun _ _ => .forM fun _ _ =>
    .bind (obeys_blameless_perform _) fun _ => obeys_blameless_execute _)

/-- The mask is checked before the command for its first channel is given. -/
theorem resetClipCount (mask : ChannelMask) : CarefulAt s (Session.resetClipCount mask) :=
  checked_blameless (.forM fun _ _ => obeys_blameless_execute _)

/-- The value and then the pin are checked before the register of the group is written. Both checks
are made under all settings. -/
theorem setSourceControl (pin : Pin) (value : UInt8) :
    CarefulAt s (Session.setSourceControl pin value) := by
  unfold CarefulAt Session.setSourceControl
  rw [ends_ite]
  refine ⟨fun _ _ => .refl s, fun _ => ?_⟩
  exact check_bind fun group _ => of_blameless (obeys_blameless_perform _)

end CarefulAt

/-! ## All of them -/

/-- A call of an operation that looks at its arguments. -/
inductive GuardedCall where
  /-- Configure captures. -/
  | setConfig (config : Config)
  /-- Write the control part of the capture record. -/
  | setControl (control : Control)
  /-- Write the thresholds of a boundary. -/
  | setThreshold (boundary : Boundary) (threshold : Threshold)
  /-- Write the model of a channel. -/
  | setModel (c : Channel) (m : Model)
  /-- Write one of the two models of a channel. -/
  | setDualModel (c : Channel) (m : Model)
  /-- Write into a table. -/
  | writeTable (c : Channel) (t : Table) (b : Bank) (data : Bytes)
  /-- Read from a table. -/
  | readTable (c : Channel) (t : Table) (b : Bank) (length : Nat)
  /-- Write a set of tables in swap mode. -/
  | writeSwapSet (c : Channel) (bank : Bank) (set : SwapSet)
  /-- Stage one table. -/
  | stageTable (table : UInt64) (data : Bytes)
  /-- Stage all tables. -/
  | stageTables (tables : Session.StagedTables)
  /-- Promote the staged tables. -/
  | promote (c : Channel) (slot : ModelSlot)
  /-- Set gain monitors. -/
  | setGainMonitor (entries : List GainMonitor)
  /-- Set clippers. -/
  | setClipper (entries : List Clipper)
  /-- Zero the clip counters of a mask. -/
  | resetClipCount (mask : ChannelMask)
  /-- Enable or disable the actuators of a mask. -/
  | setActuatorEnable (mask : ChannelMask) (on : Bool)
  /-- Set the passthru bits of a mask. -/
  | setPassthru (mask : ChannelMask) (on : Bool)
  /-- Select the model of a mask. -/
  | selectModel (mask : ChannelMask) (slot : ModelSlot)
  /-- Write the source control of the group of a pin. -/
  | setSourceControl (pin : Pin) (value : UInt8)

namespace GuardedCall

/-- What the call answers. -/
@[reducible] def Answer : GuardedCall → Type
  | .readTable .. => Bytes
  | _ => Unit

/-- Makes the call. -/
def run : (k : GuardedCall) → SessionM k.Answer
  | .setConfig config => Session.setConfig config
  | .setControl control => Session.setControl control
  | .setThreshold boundary threshold => Session.setThreshold boundary threshold
  | .setModel c m => Session.setModel c m
  | .setDualModel c m => Session.setDualModel c m
  | .writeTable c t b data => Session.writeTable c t b data
  | .readTable c t b length => Session.readTable c t b length
  | .writeSwapSet c bank set => Session.writeSwapSet c bank set
  | .stageTable table data => Session.stageTable table data
  | .stageTables tables => Session.stageTables tables
  | .promote c slot => Session.promote c slot
  | .setGainMonitor entries => Session.setGainMonitor entries
  | .setClipper entries => Session.setClipper entries
  | .resetClipCount mask => Session.resetClipCount mask
  | .setActuatorEnable mask on => Session.setActuatorEnable mask on
  | .setPassthru mask on => Session.setPassthru mask on
  | .selectModel mask slot => Session.selectModel mask slot
  | .setSourceControl pin value => Session.setSourceControl pin value

/-- Every call is careful, one case for each operation above. The two parts of the capture record
share one. -/
theorem careful (k : GuardedCall) (s : Session) : CarefulAt s k.run := by
  cases k with
  | setConfig config => exact .setConfig s config
  | setControl control => exact .writePart s control.check _ _
  | setThreshold boundary threshold => exact .writePart s threshold.check _ _
  | setModel c m => exact .setModel s c m
  | setDualModel c m => exact .setDualModel s c m
  | writeTable c t b data => exact .writeTable s c t b data
  | readTable c t b length => exact .readTable s c t b length
  | writeSwapSet c bank set => exact .writeSwapSet s c bank set
  | stageTable table data => exact .stageTable s table data
  | stageTables tables => exact .stageTables s tables
  | promote c slot => exact .promote s c slot
  | setGainMonitor entries => exact .setGainMonitor s entries
  | setClipper entries => exact .setClipper s entries
  | resetClipCount mask => exact .resetClipCount s mask
  | setActuatorEnable mask on => exact .setActuatorEnable s mask on
  | setPassthru mask on => exact .setPassthru s mask on
  | selectModel mask slot => exact .selectModel s mask slot
  | setSourceControl pin value => exact .setSourceControl s pin value

end GuardedCall

/-- Under all settings, faults and states: a call that reports a bad argument has done nothing but
to read. The trigger pin, the swap flag, the phase and the whole chip are as they were, up to the
lists of calls and of transactions, to which only reads were added. -/
theorem rejection_only_reads (k : GuardedCall) {s t : Session} {e : Error}
    (hrun : k.run s = .error e t) (hblamed : e.isInvalidArgument = true) : s.OnlyRead t :=
  (k.careful s).of_error hrun hblamed

/-- Tables to stage, with a payload of a bad length after a good one. -/
def oddPayload : Session.StagedTables :=
  ((Vector.replicate 26 none).set 4 (some [1, 2, 3, 4])).set 9 (some [1, 2, 3, 4, 5])

/-- The bad length is found before the good payload is written, although the good one belongs to a
lower table. -/
theorem rejection_only_reads_oddPayload :
    ∃ e t, (GuardedCall.stageTables oddPayload).run (Session.start Chip.initial default) =
        .error e t ∧
      e = .invalid "multiModelLutSize" "5" "must be a multiple of 4" ∧
      (Session.start Chip.initial default).OnlyRead t := by
  have hfails : (match (GuardedCall.stageTables oddPayload).run
      (Session.start Chip.initial default) with
    | .ok .. => false
    | .error e _ => e == .invalid "multiModelLutSize" "5" "must be a multiple of 4") = true := by
    decide +kernel
  cases hrun : (GuardedCall.stageTables oddPayload).run (Session.start Chip.initial default) with
  | ok _ t =>
    rw [hrun] at hfails
    cases hfails
  | error e t =>
    rw [hrun] at hfails
    have he := eq_of_beq hfails
    refine ⟨e, t, rfl, he, rejection_only_reads _ hrun ?_⟩
    rw [he]
    rfl

end Predistortion
