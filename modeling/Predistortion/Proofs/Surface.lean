import Predistortion.Proofs.Interface
import Predistortion.Proofs.Rejection

/-!
# The operations of a session

A `SessionCall` is one call of any operation that a session offers, with all its arguments: the
capture interface, the operations that look at their arguments first, the switches and registers of
the actuators, the pins, and everything that only asks. Main statement: a call obeys every contract
that hosts operations, allows the mailbox commands of the call (`SessionCall.commands`) and allows
to switch swap mode (`Obeys.call`). A property of all runs of a session is therefore shown of
requests and of these commands, and of no operation.
-/

namespace Predistortion

open SessionM
open Capture (TxTap AltTap)

/-! ## Calls -/

/-- A call of an operation of a session. -/
inductive SessionCall where
  /-- Call the capture interface. -/
  | capture (o : Operation)
  /-- Call an operation that looks at its arguments first. -/
  | guarded (k : GuardedCall)
  /-- Arm a capture at the time-division edge. -/
  | armTdd (c : Channel)
  /-- Assign the pin that shows completion. -/
  | setDonePin (pin : Pin)
  /-- Read the pin that shows completion. -/
  | donePin
  /-- Read the source control of the group of a pin. -/
  | sourceControl (pin : Pin)
  /-- Assign the pins of the model-select signals. -/
  | setSelectPins (pin0 pin1 : Pin)
  /-- Read the pins of the model-select signals. -/
  | selectPins
  /-- Start or stop the actuator clock. -/
  | setClock (c : Channel) (on : Bool)
  /-- Read whether a table is powered. -/
  | tablePower (c : Channel) (t : Table)
  /-- Power a table on or off. -/
  | setTablePower (c : Channel) (t : Table) (on : Bool)
  /-- Read the table at which memory accesses point. -/
  | ramSelect (c : Channel)
  /-- Point memory accesses at a table. -/
  | setRamSelect (c : Channel) (t : Table)
  /-- Read where the transmit signal is observed. -/
  | txTap (c : Channel)
  /-- Choose where the transmit signal is observed. -/
  | setTxTap (c : Channel) (tap : TxTap)
  /-- Read where the alternate signal is observed. -/
  | altTap (c : Channel)
  /-- Choose where the alternate signal is observed. -/
  | setAltTap (c : Channel) (tap : AltTap)
  /-- Clear all tables. -/
  | clearTables
  /-- Switch swap mode. -/
  | setSwapMode (on : Bool)
  /-- Read whether swap mode is on. -/
  | isSwapMode
  /-- Read how the last promotion of staged tables went. -/
  | promotionStatus (c : Channel)
  /-- Read whether an actuator is enabled. -/
  | actuatorEnable (c : Channel)
  /-- Read whether the signal passes an actuator by. -/
  | passthru (c : Channel)
  /-- Read the model that is selected for a channel. -/
  | selectedModel (c : Channel)
  /-- Read the model that an actuator runs. -/
  | activeModel (c : Channel)
  /-- Read the model of a channel. -/
  | model (c : Channel)
  /-- Read one of the two models of a channel. -/
  | dualModel (c : Channel) (slot : ModelSlot)
  /-- Read the gain monitor of a channel. -/
  | gainMonitor (c : Channel)
  /-- Read the clipper of a channel. -/
  | clipper (c : Channel)
  /-- Read the clip counter of a channel. -/
  | clipCount (c : Channel)

/-- The mailbox commands that a call may give. -/
def GuardedCall.commands : GuardedCall → List Command
  | .promote c _ => [.promote c]
  | .setClipper entries => entries.flatMap fun k => k.mask.channels.map Command.setClipper
  | .resetClipCount mask => mask.channels.map Command.resetClipCount
  | .setActuatorEnable mask on => [.actuatorEnable mask on]
  | .selectModel mask slot => [.selectModel mask slot]
  | _ => []

namespace SessionCall

/-- What a call answers. -/
@[reducible] def Answer : SessionCall → Type
  | .capture o => o.Answer
  | .guarded k => k.Answer
  | .donePin => Pin
  | .sourceControl _ => UInt8
  | .selectPins => Pin × Pin
  | .tablePower .. => Bool
  | .ramSelect _ => Table
  | .txTap _ => TxTap
  | .altTap _ => AltTap
  | .isSwapMode => Bool
  | .promotionStatus _ => Staging.Promotion
  | .actuatorEnable _ => Bool
  | .passthru _ => Bool
  | .selectedModel _ | .activeModel _ => ModelSlot
  | .model _ | .dualModel .. => Model
  | .gainMonitor _ => GainMonitor
  | .clipper _ => Clipper
  | .clipCount _ => UInt32
  | _ => Unit

/-- Makes a call. -/
def run : (k : SessionCall) → SessionM k.Answer
  | .capture o => o.run
  | .guarded k => k.run
  | .armTdd c => Session.armTdd c
  | .setDonePin pin => Session.setDonePin pin
  | .donePin => Session.donePin
  | .sourceControl pin => Session.sourceControl pin
  | .setSelectPins pin0 pin1 => Session.setSelectPins pin0 pin1
  | .selectPins => Session.selectPins
  | .setClock c on => Session.setClock c on
  | .tablePower c t => Session.tablePower c t
  | .setTablePower c t on => Session.setTablePower c t on
  | .ramSelect c => Session.ramSelect c
  | .setRamSelect c t => Session.setRamSelect c t
  | .txTap c => Session.txTap c
  | .setTxTap c tap => Session.setTxTap c tap
  | .altTap c => Session.altTap c
  | .setAltTap c tap => Session.setAltTap c tap
  | .clearTables => Session.clearTables
  | .setSwapMode on => Session.setSwapMode on
  | .isSwapMode => Session.isSwapMode
  | .promotionStatus c => Session.promotionStatus c
  | .actuatorEnable c => Session.actuatorEnable c
  | .passthru c => Session.passthru c
  | .selectedModel c => Session.selectedModel c
  | .activeModel c => Session.activeModel c
  | .model c => Session.model c
  | .dualModel c slot => Session.dualModel c slot
  | .gainMonitor c => Session.gainMonitor c
  | .clipper c => Session.clipper c
  | .clipCount c => Session.clipCount c

/-- The mailbox commands that a call may give. -/
def commands : SessionCall → List Command
  | .capture o => o.commands
  | .guarded k => k.commands
  | .clearTables => [.clearTables]
  | .promotionStatus c => [.promotionStatus c]
  | .actuatorEnable c => [.actuatorEnabled c]
  | .selectedModel c => [.selectedModel c]
  | .clipper c => [.getClipper c]
  | .clipCount c => [.getClipCount c]
  | _ => []

/-- The state after a call, which keeps what it did also when it fails. -/
def after (s : Session) (k : SessionCall) : Session :=
  match k.run s with
  | .ok _ t | .error _ t => t

end SessionCall

/-! ## Under a contract -/

namespace Obeys

variable {α : Type} {C : Contract Session} (h : C.Hosts)

include h

/-! ### Asking -/

/-- To read a record and decode it takes one plain request. What does not decode is refused. -/
theorem readRecord {r : Request} (hr : r.isPlain = true) {decode : r.Reply → Except Error α}
    (hdecode : ∀ b, Refuses (decode b)) :
    Obeys C (do
      let record ← perform r
      ofExcept (decode record)) :=
  bind (h.serves r hr) fun b => refusal h.mayRefuse (hdecode b)

/-- To read a field of a register takes the plain request for its word, from which the field is then
taken. -/
theorem readField (address : UInt32) (field : UInt32 → α) :
    Obeys C (do
      let value ← SessionM.readRegister address
      return field value) :=
  bind (readRegister h.serves address) fun _ => pure _

/-- To give a command and read its answer takes the command and one plain request. What is made of
the answer has to obey the contract as well. -/
theorem answered {k : Command} (hcommand : Obeys C (execute k)) {r : Request}
    (hr : r.isPlain = true) {decode : r.Reply → SessionM α} (hdecode : ∀ b, Obeys C (decode b)) :
    Obeys C (do
      execute k
      let record ← perform r
      decode record) :=
  bind hcommand fun _ => bind (h.serves r hr) hdecode

/-- The record of a model is read and decoded. -/
theorem model (c : Channel) : Obeys C (Session.model c) :=
  readRecord h rfl Refuses.decodeModel

/-! ### Setting -/

/-- Memory accesses are pointed at a table by an update of the mode register. -/
theorem setRamSelect (c : Channel) (t : Table) : Obeys C (Session.setRamSelect c t) :=
  updateRegister h.serves _ _ _

/-- Both flags of a channel are written by one update of its configuration. -/
theorem setEnablePassthru (c : Channel) (enable passthru : Bool) :
    Obeys C (Session.setEnablePassthru c enable passthru) :=
  updateRegister h.serves _ _ _

/-- The pins are refused if they are the same, and else routed one after the other. -/
theorem setSelectPins (pin0 pin1 : Pin) : Obeys C (Session.setSelectPins pin0 pin1) := by
  have apart : Obeys C (SessionM.checked <|
      if pin0.isAssigned && pin0 == pin1 then
        .error (.pinConflict pin0.raw "both model-select signals assigned to the same pin")
      else .ok ()) := by
    refine bind get fun _ => ite ?_ (pure _)
    split
    · exact throw h.mayRefuse rfl
    · exact pure ()
  exact bind apart fun _ => bind (h.serves _ rfl) fun _ => h.serves _ rfl

/-- The registers of the channels in a mask are read and written in turn, once the mask is
checked. -/
theorem setPassthru (mask : ChannelMask) (on : Bool) : Obeys C (Session.setPassthru mask on) := by
  refine bind (checked h.mayRefuse (.requireNonempty mask)) fun _ => forM fun c _ => ?_
  have before : Obeys C (Session.enablePassthru c) := readField h _ _
  exact bind before fun _ => setEnablePassthru h c _ _

/-- A table is written once its access is checked, with the clock as the contract allows it. -/
theorem writeTableChecked (c : Channel) (t : Table) (b : Bank) (data : Bytes) :
    Obeys C (Session.writeTable c t b data) :=
  writeTable h.serves h.clock c t b data (checked h.mayRefuse (.checkAccess _ _))

/-- A set is written in two passes, once swap mode and the whole set are checked. Both branches of
the check end in the same passes. -/
theorem writeSwapSet (c : Channel) (bank : Bank) (set : SwapSet) :
    Obeys C (Session.writeSwapSet c bank set) := by
  refine bind (model h c) fun m => bind get fun s => ?_
  have passes : Obeys C (do
      set.payloads.forM fun p => Session.writeTable c (SwapSet.activeTable p.1) bank p.2
      Session.setRamSelect c Table.park
      set.payloads.forM fun p =>
        Session.writeTable c (SwapSet.heldTable p.1) m.compander.holdingBank p.2
      Session.setRamSelect c Table.park) := by
    refine bind (forM fun p _ => writeTableChecked h c _ _ _) fun _ => ?_
    refine bind (setRamSelect h c _) fun _ => ?_
    exact bind (forM fun p _ => writeTableChecked h c _ _ _) fun _ => setRamSelect h c _
  refine ite ?_ passes
  refine bind (isSwapMode h.serves) fun on => ?_
  refine bind (refusal h.mayRefuse (.requireSwapMode on)) fun _ => ?_
  exact bind (refusal h.mayRefuse (.checkSwapSet set _ _)) fun _ => passes

/-- A payload is staged by requests alone. -/
theorem stage (table : UInt64) (data : Bytes) : Obeys C (Session.stage table data) :=
  forM fun _ _ => h.serves _ rfl

/-- All tables are staged by requests alone, once their payloads are checked. Each table takes the
requests that it would take by itself. -/
theorem stageTables (tables : Session.StagedTables) : Obeys C (Session.stageTables tables) := by
  have payloads : Refuses (tables.toList.forM fun p => Staging.check p.1 p.2) :=
    .forM (fun p : UInt64 × Bytes => .checkStaging p.1 p.2) _
  exact bind (checked h.mayRefuse payloads) fun _ => forM fun p _ => stage h p.1 p.2

/-- The records of all entries are written by requests alone, once the entries are checked. -/
theorem setGainMonitor (entries : List GainMonitor) :
    Obeys C (Session.setGainMonitor entries) := by
  refine bind (refusal h.mayRefuse (.requireEntries _ entries)) fun _ => ?_
  refine bind (checked h.mayRefuse (.forM .checkGain entries)) fun _ => ?_
  exact forM fun g _ => forM fun c _ => h.serves _ rfl

/-- The records of all entries are sent, once the entries are checked. Each of them takes a command,
and the contract has to allow these. -/
theorem setClipper (entries : List Clipper)
    (hcommands : ∀ k ∈ (GuardedCall.setClipper entries).commands, Obeys C (execute k)) :
    Obeys C (Session.setClipper entries) := by
  refine bind (refusal h.mayRefuse (.requireEntries _ entries)) fun _ => ?_
  refine bind (checked h.mayRefuse (.checkClippers entries)) fun _ => ?_
  refine forM fun k hk => forM fun c hc => bind (h.serves _ rfl) fun _ => ?_
  exact hcommands _ (List.mem_flatMap.2 ⟨k, hk, List.mem_map_of_mem hc⟩)

/-- The register of a group is written, unless the value or the pin is refused. -/
theorem setSourceControl (pin : Pin) (value : UInt8) :
    Obeys C (Session.setSourceControl pin value) := by
  refine ite (bind (throw h.mayRefuse rfl) fun _ => ?_) ?_
  · exact bind (refusal h.mayRefuse (.ofPin pin)) fun _ => h.serves _ rfl
  · exact bind (refusal h.mayRefuse (.ofPin pin)) fun _ => h.serves _ rfl

/-! ### All calls -/

/-- A call of an operation that looks at its arguments obeys the contract if its commands do. One
case for each operation, which is its program text. -/
theorem guardedCall (htolerant : C.Tolerant) (k : GuardedCall)
    (hcommands : ∀ command ∈ k.commands, Obeys C (execute command)) : Obeys C k.run := by
  cases k with
  | setConfig config =>
    exact setConfig h config (setDonePin h.serves h.mayRefuse.mayConflict htolerant _)
  | setControl control => exact writePart h (.checkControl control) _ _
  | setThreshold boundary threshold => exact writePart h (.checkThreshold threshold) _ _
  | setModel c m =>
    exact bind (checked h.mayRefuse (.checkModel m)) fun _ => h.serves _ rfl
  | setDualModel c m =>
    refine bind (refusal h.mayRefuse (.requireDual m.slot)) fun _ => ?_
    exact bind (checked h.mayRefuse (.checkModel m)) fun _ => h.serves _ rfl
  | writeTable c t b data => exact writeTableChecked h c t b data
  | readTable c t b length =>
    exact readTable h.serves h.clock c t b length (checked h.mayRefuse (.checkAccess _ _))
  | writeSwapSet c bank set => exact writeSwapSet h c bank set
  | stageTable table data =>
    exact bind (checked h.mayRefuse (.checkStaging table data)) fun _ => stage h table data
  | stageTables tables => exact stageTables h tables
  | promote c slot =>
    refine bind (refusal h.mayRefuse (.requireDual slot)) fun _ => ?_
    exact bind (h.serves _ rfl) fun _ => hcommands _ (List.mem_singleton.2 rfl)
  | setGainMonitor entries => exact setGainMonitor h entries
  | setClipper entries => exact setClipper h entries hcommands
  | resetClipCount mask =>
    refine bind (checked h.mayRefuse (.requireNonempty mask)) fun _ => forM fun c hc => ?_
    exact hcommands _ (List.mem_map_of_mem hc)
  | setActuatorEnable mask on =>
    refine bind get fun s => bind (checked h.mayRefuse ?_) fun _ => ?_
    · exact .bind (.requireNonempty mask) fun _ => .requireInitialized _ mask on
    · exact hcommands _ (List.mem_singleton.2 rfl)
  | setPassthru mask on => exact setPassthru h mask on
  | selectModel mask slot =>
    refine bind (checked h.mayRefuse (.requireNonempty mask)) fun _ => ?_
    exact hcommands _ (List.mem_singleton.2 rfl)
  | setSourceControl pin value => exact setSourceControl h pin value

/-- A call obeys the contract if its commands do and swap mode may be switched. All that a session
can be asked to do is covered by this. -/
theorem call (htolerant : C.Tolerant) (hswap : ∀ on, Obeys C (Session.setSwapMode on))
    (k : SessionCall) (hcommands : ∀ command ∈ k.commands, Obeys C (execute command)) :
    Obeys C k.run := by
  have given {command : Command} (hcommand : k.commands = [command]) : Obeys C (execute command) :=
    hcommands _ (by rw [hcommand]; exact List.mem_singleton.2 rfl)
  cases k with
  | capture o => exact run h htolerant o hcommands
  | guarded k => exact guardedCall h htolerant k hcommands
  | armTdd c => exact h.serves _ rfl
  | setDonePin pin => exact setDonePin h.serves h.mayRefuse.mayConflict htolerant pin
  | donePin => exact findTagged h.serves _
  | sourceControl pin =>
    exact bind (refusal h.mayRefuse (.ofPin pin)) fun _ => bind (h.serves _ rfl) fun _ => pure _
  | setSelectPins pin0 pin1 => exact setSelectPins h pin0 pin1
  | selectPins => exact bind (h.serves _ rfl) fun _ => bind (h.serves _ rfl) fun _ => pure _
  | setClock c on => exact h.clock c on
  | tablePower c t => exact readField h _ _
  | setTablePower c t on => exact updateRegister h.serves _ _ _
  | ramSelect c => exact readField h _ _
  | setRamSelect c t => exact setRamSelect h c t
  | txTap c => exact readField h _ _
  | setTxTap c tap => exact updateRegister h.serves _ _ _
  | altTap c => exact readField h _ _
  | setAltTap c tap => exact updateRegister h.serves _ _ _
  | clearTables => exact given rfl
  | setSwapMode on => exact hswap on
  | isSwapMode => exact isSwapMode h.serves
  | promotionStatus c =>
    refine answered h (given rfl) rfl fun record => ?_
    exact bind (refusal h.mayRefuse (.bank _)) fun _ => pure _
  | actuatorEnable c => exact answered h (given rfl) rfl fun _ => pure _
  | passthru c => exact bind (readField h _ _) fun _ => pure _
  | selectedModel c =>
    exact answered h (given rfl) rfl fun _ => refusal h.mayRefuse (.modelSlot _)
  | activeModel c =>
    exact bind (readRegister h.serves _) fun _ => refusal h.mayRefuse (.modelSlot _)
  | model c => exact model h c
  | dualModel c slot =>
    refine bind (refusal h.mayRefuse (.requireDual slot)) fun _ => ?_
    exact readRecord h rfl Refuses.decodeModel
  | gainMonitor c => exact readRecord h rfl (Refuses.decodeGain c)
  | clipper c => exact answered h (given rfl) rfl fun _ => pure _
  | clipCount c => exact answered h (given rfl) rfl fun _ => pure _

end Obeys

end Predistortion
