import Predistortion.Proofs.Contract
import Predistortion.Proofs.Lifecycle

/-!
# Contracts of the capture interface

The operations of the capture interface, walked through once for all contracts. An operation makes
plain requests, gives commands (`Operation.commands`), and keeps its own books on the phase and the
trigger pin; `Contract.Hosts` says that a contract allows all of this but the commands. Main
statements: an operation that has nothing to clean up when it fails obeys every contract that hosts
it and allows its commands (`Obeys.run_of_not_cleansUp`). An assignment of the completion pin is
rolled back when it fails, and the buffers are handed back also when reading them failed; every
operation obeys the contract if such a clean-up is nothing to it (`Obeys.run`).
-/

namespace Predistortion

open SessionM
open Session (tracked)
open Capture (Config Boundary Buffer Phase)

variable {α : Type}

namespace Operation

/-- The mailbox commands that an operation may give. -/
def commands : Operation → List Command
  | .trigger => [.triggerCapture]
  | .pollDone => [.captureDone, .clearCaptureDone]
  | .clearDone => [.clearCaptureDone]
  | .readDone | .data => [.captureReadDone]
  | .status channel => [.captureStatus channel]
  | _ => []

/-- The operation does something more when a part of it has failed. -/
def cleansUp : Operation → Bool
  | .setConfig _ | .data => true
  | _ => false

end Operation

/-- The contract allows what the operations do beside mailbox commands. -/
structure Contract.Hosts (C : Contract Session) : Prop where
  /-- Plain requests. -/
  serves : C.Serves
  /-- Refusals. -/
  mayRefuse : C.MayRefuse
  /-- Changes of the phase and of the trigger pin. -/
  books : ∀ s t : Session, t.chip = s.chip → t.settings = s.settings → t.swapMode = s.swapMode →
    C.done s t
  /-- The routing of a pin to the stream processor. -/
  route : ∀ signal pin, Obeys C (perform (.streamPinSet signal pin))
  /-- The actuator clock. -/
  clock : ∀ c on, Obeys C (Session.setClock c on)

/-- A contract to which a failure that does nothing is nothing hosts the operations if it allows all
requests but commands. -/
theorem Contract.Hosts.of_requests {C : Contract Session}
    (hrequests : ∀ r : Request, r.kind ≠ .command → Obeys C (perform r))
    (hfails : ∀ s e, C.failed s e s)
    (hbooks : ∀ s t : Session, t.chip = s.chip → t.settings = s.settings →
      t.swapMode = s.swapMode → C.done s t) : C.Hosts := by
  have serves : C.Serves := fun r hr => hrequests r (Request.ne_command_of_isPlain hr)
  refine ⟨serves, fun s e _ => hfails s e, hbooks, fun signal pin => ?_, fun c on => ?_⟩
  · exact hrequests _ fun hkind => nomatch hkind
  · exact .setClock serves (fun s _ => hfails s _) c on

/-- The latch only moves the phase, and a contract that hosts operations does not look at it. -/
theorem Contract.Hosts.ends_tracked {C : Contract Session} (h : C.Hosts) {m : SessionM α}
    {s : Session} (hm : Ends m s (fun _ t => C.done s t) (fun e t => C.failed s e t)) :
    Ends (tracked m) s (fun _ t => C.done s t) (fun e t => C.failed s e t) := by
  rw [Predistortion.ends_tracked]
  refine hm.mono (fun _ _ ht => ht) fun e t ht => ?_
  split
  · exact C.late ht (h.books t _ rfl rfl rfl)
  · exact ht

namespace Obeys

variable {C : Contract Session}

/-! ## Under the phase -/

/-- To enter a phase touches nothing but the phase, which a contract has to leave open. -/
theorem setPhase (h : C.Hosts) (phase : Phase) : Obeys C (Session.setPhase phase) :=
  fun s => h.books s _ rfl rfl rfl

/-- To refuse while the session is failed is a refusal like any other. -/
theorem requireNotFailed (h : C.Hosts) (operation : String) :
    Obeys C (Session.requireNotFailed operation) :=
  bind get fun _ => ite (throw h.mayRefuse rfl) (pure _)

/-- To keep books on failures of the hardware touches nothing but the phase. -/
theorem tracked (h : C.Hosts) {m : SessionM α} (hm : Obeys C m) : Obeys C (tracked m) :=
  fun s => h.ends_tracked (hm s)

/-! ## Parts of the record -/

section hosted

variable (h : C.Hosts)

include h

/-- A part of the capture record is checked and then written with one request. The parts differ in
their checks, and the contract sees these as refusals. -/
theorem writePart {check : Except Error Unit} (hcheck : Refuses check) (offset : UInt16)
    (data : Bytes) :
    Obeys C (do SessionM.checked check; Session.tracked (Session.writeCapture offset data)) :=
  bind (checked h.mayRefuse hcheck) fun _ => tracked h (h.serves _ rfl)

/-- A part of the capture record is read with one request and then decoded. What does not decode is
refused. -/
theorem readPart {decode : Bytes → Except Error α} (hdecode : ∀ b, Refuses (decode b))
    (offset : UInt16) (length : Nat) :
    Obeys C (do
      let record ← Session.tracked (Session.readCapture offset length)
      ofExcept (decode record)) :=
  bind (tracked h (h.serves _ rfl)) fun b => refusal h.mayRefuse (hdecode b)

/-- The pin with the tag is looked for, the record is read, and it is decoded with the two pins.
What does not decode is refused. -/
theorem config : Obeys C Session.config := by
  have tag : Obeys C Session.donePin := findTagged h.serves _
  refine tracked h (bind tag fun _ => bind (h.serves _ rfl) fun b => bind get fun s => ?_)
  exact refusal h.mayRefuse (.decodeConfig b _ _)

/-- The control part is read as every part is. -/
theorem control : Obeys C Session.control := readPart h Refuses.decodeControl _ _

/-- To route a trigger pin takes one request, and the session remembers the pin. -/
theorem routeTriggerPin (p : Pin) : Obeys C (Session.routeTriggerPin p) :=
  bind (h.route _ p) fun _ s => h.books s _ rfl rfl rfl

/-- A configuration, given what becomes of the completion pin. Some contracts allow the whole
assignment and others only one that can be undone. -/
theorem setConfig (c : Config) (hpin : Obeys C (Session.setDonePin c.donePin)) :
    Obeys C (Session.setConfig c) := by
  refine bind (checked h.mayRefuse (.checkConfig c)) fun _ => bind ?_ fun _ => setPhase h _
  refine tracked h (bind (routeTriggerPin h _) fun _ => bind hpin fun _ => ?_)
  exact h.serves _ rfl

/-! ## Triggering, polling and reading back -/

/-- To trigger a capture is one command, if the session is not failed. Else nothing is done. -/
theorem trigger (hcommand : Obeys C (execute .triggerCapture)) : Obeys C Session.trigger := by
  refine bind (requireNotFailed h _) fun _ => bind (control h) fun _ => ?_
  refine bind (tracked h (ite ?_ hcommand)) fun _ => setPhase h _
  exact h.serves _ rfl

/-- A poll gives two commands at most: it asks for the flag, and clears it if it is set. -/
theorem pollDone (hquery : Obeys C (execute .captureDone))
    (hclear : Obeys C (execute .clearCaptureDone)) : Obeys C Session.pollDone := by
  have query : Obeys C Session.queryDone :=
    bind hquery fun _ => bind (h.serves _ rfl) fun _ => pure _
  refine bind (requireNotFailed h _) fun _ => bind (tracked h query) fun complete => ite (pure _) ?_
  exact bind (tracked h hclear) fun _ => bind (setPhase h _) fun _ => pure _

/-- The status of a channel is asked for with one command and read from the memory. A status that
does not decode is refused. -/
theorem captureStatus (c : Channel) (hcommand : Obeys C (execute (.captureStatus c))) :
    Obeys C (Session.captureStatus c) :=
  tracked h (bind hcommand fun _ => bind (h.serves _ rfl) fun b =>
    refusal h.mayRefuse (.decodeStatus b))

/-- A buffer is read with one request, and its bytes are decoded, which cannot fail. -/
theorem readBuffer (buffer : Buffer) (count : Nat) : Obeys C (Session.readBuffer buffer count) := by
  refine ite (pure _) (bind (tracked h ?_) fun _ => pure _)
  exact h.serves _ rfl

/-- Pages are read one after the other, each through an access to its table. -/
theorem readPages (c : Channel) (pages : List (Table × Bank)) (count : Nat) :
    Obeys C (Session.readPages c pages count) := by
  induction pages generalizing count with
  | nil => exact pure _
  | cons page rest ih =>
    refine ite (pure _) (bind ?_ fun _ => bind (ih _) fun _ => pure _)
    exact readTable h.serves h.clock _ _ _ _ (checked h.mayRefuse (.checkAccess _ _))

/-- To read the samples of a capture takes no commands: the control part decides which of the ways
before is taken. -/
theorem readSamples : Obeys C Session.readSamples := by
  refine bind (control h) fun control => ite ?_ ?_
  · exact bind (readPages h _ _ _) fun _ => bind (readPages h _ _ _) fun _ => pure _
  · refine bind (readBuffer h _ _) fun _ => bind (readBuffer h _ _) fun _ => ?_
    exact bind (readBuffer h _ _) fun _ => pure _

/-- Reading and handing back, if it is nothing to the contract that more is done after a failure.
The handing back is tried even where the reading has failed. -/
theorem captureData (htolerant : C.Tolerant) (hcommand : Obeys C (execute .captureReadDone)) :
    Obeys C Session.captureData := by
  refine bind (tracked h fun s => ?_) fun _ => bind (setPhase h _) fun _ => pure _
  rw [ends_bind, ends_attempt]
  -- the buffers are handed back however the reading ended
  refine (readSamples h s).mono (fun data t ht => ?_) (fun e t ht => ?_)
  · rw [ends_bind, ends_attempt]
    refine (hcommand t).mono (fun _ u hu => ?_) (fun e u hu => ?_)
    · exact C.trans ht hu
    · exact C.fail ht hu
  · rw [ends_bind, ends_attempt]
    refine (hcommand t).mono (fun _ u hu => ?_) (fun e' u hu => ?_)
    · exact C.late ht hu
    · exact C.late ht (htolerant _ _ _ hu)

/-! ## All operations -/

/-- An operation without a clean-up obeys the contract if its commands do. One case for each
operation, and each case is its program text. -/
theorem run_of_not_cleansUp {o : Operation} (ho : o.cleansUp = false)
    (hcommands : ∀ k ∈ o.commands, Obeys C (execute k)) : Obeys C o.run := by
  cases o with
  | setConfig c => cases ho
  | config => exact config h
  | setControl control => exact writePart h (.checkControl control) _ _
  | control => exact control h
  | setLevel level => exact tracked h (h.serves _ rfl)
  | level => exact readPart h Refuses.decodeLevel _ _
  | setThreshold boundary threshold => exact writePart h (.checkThreshold threshold) _ _
  | threshold boundary => exact readPart h Refuses.decodeThreshold _ _
  | trigger => exact trigger h (hcommands _ (by decide))
  | pollDone => exact pollDone h (hcommands _ (by decide)) (hcommands _ (by decide))
  | clearDone => exact bind (tracked h (hcommands _ (by decide))) fun _ => setPhase h _
  | readDone => exact bind (tracked h (hcommands _ (by decide))) fun _ => setPhase h _
  | reset => exact setPhase h _
  | status channel => exact captureStatus h channel (hcommands _ (List.mem_singleton.2 rfl))
  | readBuffer buffer count => exact readBuffer h buffer count
  | data => cases ho

/-- Every operation obeys the contract if its commands do and it is nothing to the contract that
more is done after a failure. -/
theorem run (htolerant : C.Tolerant) (o : Operation)
    (hcommands : ∀ k ∈ o.commands, Obeys C (execute k)) : Obeys C o.run := by
  cases ho : o.cleansUp with
  | false => exact run_of_not_cleansUp h ho hcommands
  | true =>
    cases o with
    | setConfig c => exact setConfig h c (setDonePin h.serves h.mayRefuse.mayConflict htolerant _)
    | data => exact captureData h htolerant (hcommands _ (by decide))
    | _ => cases ho

end hosted

end Obeys

end Predistortion
