import Predistortion.Proofs.Outcome
import Predistortion.Proofs.Refusal
import Predistortion.Session.Tables

/-!
# Contracts

A `Contract` says what a computation may do to the state: to which states a success may lead, and
with which errors and in which states it may fail. `Obeys C m` says that `m` does no more than that,
wherever it is started.

Contracts compose along the text of a program, so every function is walked through once, here, for
all contracts. What a contract has to allow is named: the requests to the chip that are no mailbox
commands and on which the session keeps no books (`Contract.Serves`), refusals
(`Contract.MayRefuse`), and, where a failure is caught and something else is done, that a failure is
followed by more (`Contract.Tolerant`). The walk covers registers, changes of pins with their
rollback, and the accesses to tables.
-/

namespace Predistortion

variable {σ α β γ : Type}

/-! ## Contracts of a computation -/

/-- What a computation may do. -/
structure Contract (σ : Type) where
  /-- A success may lead from a state to another. -/
  done : σ → σ → Prop
  /-- A failure may lead from a state to another and report an error. -/
  failed : σ → Error → σ → Prop
  /-- Nothing needs to be done. -/
  refl : ∀ s, done s s
  /-- A success may follow a success. -/
  trans : ∀ {s t u}, done s t → done t u → done s u
  /-- A failure may follow a success. -/
  fail : ∀ {s t u e}, done s t → failed t e u → failed s e u
  /-- A failure may be reported after a success that follows it. -/
  late : ∀ {s t u e}, failed s e t → done t u → failed s e u

/-- The computation does no more than the contract allows. -/
def Obeys (C : Contract σ) (m : EStateM Error σ α) : Prop :=
  ∀ s, Ends m s (fun _ t => C.done s t) (fun e t => C.failed s e t)

namespace Contract

variable (C : Contract σ)

/-- The contract allows to refuse, that is, to do nothing and to blame something else than the
hardware. -/
def MayRefuse : Prop := ∀ s e, e.isHardwareFailure = false → C.failed s e s

/-- The contract allows to refuse a pin that is taken. -/
def MayConflict : Prop := ∀ s pin reason, C.failed s (.pinConflict pin reason) s

/-- A contract that allows every refusal allows to refuse a pin that is taken. -/
theorem MayRefuse.mayConflict {C : Contract σ} (h : C.MayRefuse) : C.MayConflict :=
  fun s _ _ => h s _ rfl

/-- What a failure leads to, a success may lead to. -/
def Tolerant : Prop := ∀ s e t, C.failed s e t → C.done s t

/-- The contract that relates the state before to the state after, however it was reached. -/
def ofRelation (R : σ → σ → Prop) (refl : ∀ s, R s s)
    (trans : ∀ {s t u}, R s t → R t u → R s u) : Contract σ where
  done := R
  failed s _ t := R s t
  refl := refl
  trans := trans
  fail := trans
  late := trans

/-- The contract not to change a view of the state. -/
def keeping (f : σ → γ) : Contract σ :=
  ofRelation (fun s t => f t = f s) (fun _ => rfl) fun hst htu => htu.trans hst

/-- What follows a success has to be allowed only where the success leads. The general rule, from
which the one for all states follows. -/
theorem ends_bind (C : Contract σ) {m : EStateM Error σ α} {k : α → EStateM Error σ β} {s : σ}
    (hm : Ends m s (fun _ t => C.done s t) (fun e t => C.failed s e t))
    (hk : ∀ a t, m s = .ok a t → Ends (k a) t (fun _ u => C.done t u) (fun e u => C.failed t e u)) :
    Ends (m >>= k) s (fun _ t => C.done s t) (fun e t => C.failed s e t) := by
  rw [Predistortion.ends_bind]
  refine (hm.and (ends_self m s)).mono ?_ fun _ _ ht => ht.1
  rintro a t ⟨ht, hrun⟩
  exact (hk a t hrun).mono (fun _ _ hu => C.trans ht hu) (fun _ _ hu => C.fail ht hu)

end Contract

namespace Obeys

variable {C : Contract σ}

/-- To answer is allowed by every contract, since nothing needs to be done. -/
theorem pure (a : α) : Obeys C (pure a : EStateM Error σ α) := C.refl

/-- To look at the state is allowed by every contract. -/
theorem get : Obeys C (get : EStateM Error σ σ) := C.refl

/-- What would follow a refusal is not reached. -/
theorem conflict_bind (h : C.MayConflict) (pin : UInt8) (reason : String)
    {k : α → EStateM Error σ β} :
    Obeys C ((throw (.pinConflict pin reason) : EStateM Error σ α) >>= k) :=
  fun s => h s pin reason

/-- To fail with an error that does not blame the hardware is a refusal. -/
theorem throw (h : C.MayRefuse) {e : Error} (he : e.isHardwareFailure = false) :
    Obeys C (throw e : EStateM Error σ α) := fun s => h s e he

/-- What is known to succeed fails in no way, so it obeys a contract that allows no refusal. -/
theorem ofExcept_ok {x : Except Error α} {a : α} (hx : x = .ok a) :
    Obeys C (ofExcept x : EStateM Error σ α) := by
  rw [hx]
  exact C.refl

/-- A check that fails only with refusals is one, and its success changes nothing. So checks and
decoders need no look at the contract. -/
theorem refusal (h : C.MayRefuse) {x : Except Error α} (hx : Refuses x) :
    Obeys C (ofExcept x : EStateM Error σ α) := by
  intro s
  cases x with
  | ok a => exact C.refl s
  | error e => exact h s e (hx.not_hardware rfl)

/-- Two computations in turn obey a contract if each of them does, whatever the first one
answers. -/
theorem bind {m : EStateM Error σ α} {k : α → EStateM Error σ β} (hm : Obeys C m)
    (hk : ∀ a, Obeys C (k a)) : Obeys C (m >>= k) := fun s => C.ends_bind (hm s) fun a t _ => hk a t

/-- A choice obeys a contract if both of its branches do. Which one is taken does not matter, so no
condition has to be carried along. -/
theorem ite {c : Prop} [Decidable c] {m n : EStateM Error σ α} (hm : Obeys C m)
    (hn : Obeys C n) : Obeys C (if c then m else n) := by
  split
  · exact hm
  · exact hn

/-- A run over a list does no more than its steps, which may depend on the members of the list. By
induction over the list. -/
theorem forM {f : α → EStateM Error σ Unit} {l : List α} (h : ∀ a ∈ l, Obeys C (f a)) :
    Obeys C (l.forM f) := by
  induction l with
  | nil => exact pure ()
  | cons a rest ih =>
    rw [List.forall_mem_cons] at h
    exact bind h.1 fun _ => ih h.2

end Obeys

/-! ## Sessions -/

/-- The request is neither a mailbox command nor the wait for one, and none on which a session keeps
books: it does not switch swap mode, and it does not route a pin to the stream processor. -/
def Request.isPlain (r : Request) : Bool :=
  match r with
  | .command .. | .statusWait .. | .streamPinSet .. => false
  | .objectWrite object .. => object != Object.swapMode
  | _ => true

/-- A plain request is no command, so a contract about commands has nothing to say of it. -/
theorem Request.ne_command_of_isPlain {r : Request} (h : r.isPlain = true) : r.kind ≠ .command := by
  cases r with
  | command opcode payload => cases h
  | _ => exact fun hkind => nomatch hkind

/-- A plain request is not the wait for a command either. -/
theorem Request.ne_statusWait_of_isPlain {r : Request} (h : r.isPlain = true) :
    r.kind ≠ .statusWait := by
  cases r with
  | statusWait opcode timeoutUs intervalUs => cases h
  | _ => exact fun hkind => nomatch hkind

/-- The contract allows to make every plain request. -/
def Contract.Serves (C : Contract Session) : Prop :=
  ∀ r : Request, r.isPlain = true → Obeys C (SessionM.perform r)

namespace SessionM

/-- A computation on the chip may be taken apart before it is put into a session. The walk needs
this where a function is written on the chip and a contract speaks of sessions. -/
theorem onChip_bind (m : ChipM α) (k : α → ChipM β) :
    onChip (m >>= k) = onChip m >>= fun a => onChip (k a) := by
  funext s
  simp only [onChip, bind, EStateM.bind]
  cases m s.chip <;> rfl

end SessionM

/-- A request does no more than a contract that allows both to serve and to refuse it. These are the
two ways in which a request can end. -/
theorem Obeys.request {C : Contract Session} {r : Request}
    (hserved : ∀ s : Session, C.done s { s with chip := s.chip.served r })
    (hrefused : ∀ (s : Session) (e : TransportError), s.chip.faults ≠ [] →
      C.failed s (.ofTransport e) { s with chip := s.chip.refused r e }) :
    Obeys C (SessionM.perform r) := by
  intro s
  unfold SessionM.perform
  rw [ends_onChip]
  exact Chip.ends_perform_of (hserved s) (hrefused s)

namespace Obeys

open SessionM
open Session (findTagged switchSource releaseDonePin acquireDonePin moveDonePin donePinCandidates)

variable {C : Contract Session}

/-- A check that may be switched off is a refusal where it is on, and nothing where it is off. -/
theorem checked (h : C.MayRefuse) {check : Except Error Unit} (hcheck : Refuses check) :
    Obeys C (SessionM.checked check) :=
  bind get fun _ => ite (refusal h hcheck) (pure _)

/-- A command is sent, waited for, and maybe completed with a status that flags an error. What the
contract makes of each of these is left to the contract. -/
theorem command {k : Command} (hsend : Obeys C (perform (.command k.opcode k.payload)))
    (hwait : ∀ timeoutUs intervalUs,
      Obeys C (perform (.statusWait k.waitOpcode timeoutUs intervalUs)))
    (hstatus : ∀ s status code, C.failed s (.command k.opcode k.object status code) s) :
    Obeys C (execute k) :=
  bind get fun _ => bind hsend fun _ => bind (hwait _ _) fun status =>
    ite (fun s => hstatus s status _) (pure _)

/-- To read a register takes plain requests only. -/
theorem readRegister (h : C.Serves) (address : UInt32) : Obeys C (SessionM.readRegister address) :=
  bind (h _ rfl) fun _ => pure _

/-- To change some bits of a register takes plain requests only. -/
theorem updateRegister (h : C.Serves) (address mask value : UInt32) :
    Obeys C (SessionM.updateRegister address mask value) :=
  bind (readRegister h address) fun _ => h _ rfl

/-! ## Pins -/

/-- To look for the pin that carries the tag takes one plain request for each pin that is looked at.
By induction over the candidates. -/
theorem findTagged (h : C.Serves) (pins : List Pin) :
    Obeys C (SessionM.onChip (findTagged pins)) := by
  induction pins with
  | nil => exact pure Pin.unassigned
  | cons p rest ih =>
    unfold Session.findTagged
    rw [onChip_bind]
    refine bind (h (.featureGet p) rfl) fun feature => ?_
    split
    · exact pure p
    · exact ih

/-- To ask whether the source group of a pin is free takes plain requests, and it may end in a
conflict. -/
theorem requireFreeSource (h : C.Serves) (hconflict : C.MayConflict) (p : Pin) :
    Obeys C (Session.requireFreeSource p) := by
  cases p with
  | digital n =>
    have current : Obeys C (Session.sourceControl (.digital n)) :=
      bind (ofExcept_ok rfl) fun _ => bind (h _ rfl) fun _ => pure _
    exact bind current fun _ => ite (fun s => hconflict s _ _) (pure _)
  | unassigned => exact pure _

end Obeys

/-- What a contract allows to a change of pins within a given session. -/
def Contract.onPins (C : Contract Session) (s : Session) : Contract Rewiring where
  done r r' := C.done { s with chip := r.chip } { s with chip := r'.chip }
  failed r e r' := C.failed { s with chip := r.chip } e { s with chip := r'.chip }
  refl _ := C.refl _
  trans := C.trans
  fail := C.fail
  late := C.late

/-- What a contract allows to refuse, it allows to refuse to the part of a rewiring that sees only
the pins. -/
theorem Contract.MayConflict.onPins {C : Contract Session} (h : C.MayConflict) (s : Session) :
    (C.onPins s).MayConflict := fun _ => h _

namespace Obeys

section rewiring

open Session (switchSource releaseDonePin acquireDonePin moveDonePin donePinCandidates)

variable {C : Contract Session} (s : Session)

/-- What obeys a contract in a session obeys it in a rewiring, which has no other state than the
chip and its notes. -/
theorem rewiring_onChip {m : ChipM α} (h : Obeys C (SessionM.onChip m)) :
    Obeys (C.onPins s) (RewireM.onChip m) := by
  intro r
  have hm := h { s with chip := r.chip }
  rw [ends_onChip] at hm
  rwa [ends_rewiring_onChip]

/-- To note a step that can be undone does nothing to the session. -/
theorem note (step : UndoStep) : Obeys (C.onPins s) (RewireM.note step) := fun _ => C.refl _

variable (h : C.Serves) (hconflict : C.MayConflict)

include h

/-- A plain request that a rewiring makes is one that the session makes. -/
theorem rewiring_perform {q : Request} (hq : q.isPlain = true) :
    Obeys (C.onPins s) (RewireM.perform q) := rewiring_onChip s (h q hq)

/-- To switch the source of a pin takes plain requests only, with a note after each that succeeds.
The source that was there is read before. -/
theorem switchSource (n : Fin pinCount) (value : UInt8) :
    Obeys (C.onPins s) (Session.switchSource (.digital n) value) := by
  refine bind (ofExcept_ok rfl) fun group => ?_
  refine bind (rewiring_perform s h rfl) fun prior => ?_
  exact bind (rewiring_perform s h rfl) fun _ => note s _

include hconflict

/-- To take a pin out of use takes plain requests only. Each of them is noted so that it can be
undone. -/
theorem releaseDonePin (p : Pin) : Obeys (C.onPins s) (Session.releaseDonePin p) := by
  refine bind (rewiring_perform s h rfl) fun granted => ite ?_ ?_
  · exact conflict_bind (hconflict.onPins s) _ _
  · refine bind (note s _) fun _ => bind (rewiring_perform s h rfl) fun _ => ?_
    exact note s _

/-- To put a pin into use takes plain requests only, and it may end in a conflict. -/
theorem acquireDonePin (n : Fin pinCount) :
    Obeys (C.onPins s) (Session.acquireDonePin (.digital n)) := by
  refine bind (rewiring_perform s h rfl) fun granted => ite ?_ ?_
  · exact conflict_bind (hconflict.onPins s) _ _
  · refine bind (note s _) fun _ => bind (rewiring_perform s h rfl) fun _ => ?_
    exact bind (note s _) fun _ => switchSource s h _ _

/-- An assignment looks for the pin that has the tag, takes it out of use and puts the new one into
use. Each of these steps obeys the contract. -/
theorem moveDonePin (p : Pin) : Obeys (C.onPins s) (Session.moveDonePin p) := by
  have settle (previous : Pin) : Obeys (C.onPins s)
      (if p.isAssigned then Session.acquireDonePin p
        else if previous.isAssigned then Session.switchSource previous sourceDefault
        else Pure.pure ()) := by
    cases p with
    | digital n => exact acquireDonePin s h hconflict n
    | unassigned =>
      cases previous with
      | digital n => exact switchSource s h n _
      | unassigned => exact pure _
  refine bind (rewiring_onChip s (findTagged h donePinCandidates)) fun previous => ite ?_ ?_
  · exact bind (releaseDonePin s h hconflict previous) fun _ => settle previous
  · exact settle previous

end rewiring

variable {C : Contract Session}

/-- Each step of an undoing is a request, with which the contract deals as with any other. -/
theorem undo (h : C.Serves) (step : UndoStep) : Obeys C (SessionM.onChip step.undo) := by
  cases step with
  | reacquire p f => exact h _ rfl
  | release p f => exact h _ rfl
  | direction p d =>
    unfold UndoStep.undo
    rw [SessionM.onChip_bind]
    exact bind (h _ rfl) fun _ => pure true
  | source g v =>
    unfold UndoStep.undo
    rw [SessionM.onChip_bind]
    exact bind (h _ rfl) fun _ => pure true

/-- A rollback goes on after a step that fails, so the contract has to tolerate that what failed is
followed by more. -/
theorem rollback (h : C.Serves) (htolerant : C.Tolerant) (log : UndoLog) (s : Session) :
    C.done s { s with chip := (log.rollback s.chip).2 } := by
  induction log generalizing s with
  | nil => exact C.refl s
  | cons step older ih =>
    have hstep := undo h step s
    rw [ends_onChip] at hstep
    unfold UndoLog.rollback
    cases hrun : step.undo s.chip with
    | ok reversed c =>
      have hundone : C.done s { s with chip := c } := hstep.of_ok hrun
      cases reversed <;> exact C.trans hundone (ih { s with chip := c })
    | error e c =>
      have hundone : C.done s { s with chip := c } := htolerant _ _ _ (hstep.of_error hrun)
      exact C.trans hundone (ih { s with chip := c })

/-- A rewiring that fails is followed by its rollback. A contract that allows more after a failure
allows both. -/
theorem rewire (h : C.Serves) (htolerant : C.Tolerant) {m : RewireM α}
    (hm : ∀ s, Obeys (C.onPins s) m) : Obeys C (Session.rewire m) := by
  intro s
  rw [ends_rewire]
  refine (hm s ⟨s.chip, []⟩).mono (fun _ r hr => hr) fun e r hr => ?_
  exact C.late hr (rollback h htolerant r.log { s with chip := r.chip })

/-- An assignment asks whether the source is free and then rewires, so a contract has to allow
conflicts and what follows a failure. -/
theorem setDonePin (h : C.Serves) (hconflict : C.MayConflict) (htolerant : C.Tolerant) (p : Pin) :
    Obeys C (Session.setDonePin p) := by
  refine bind (requireFreeSource h hconflict p) fun _ => ?_
  exact rewire h htolerant fun s => moveDonePin s h hconflict p

/-! ## Tables -/

/-- To wait for a clock takes one plain request for each look, however many there are. By induction
over the looks that are left. -/
theorem awaitClock (h : C.Serves) (c : Channel) (on : Bool) (n : Nat) :
    Obeys C (Session.awaitClock c on n) := by
  induction n with
  | zero => exact pure false
  | succ n ih => exact bind (h _ rfl) fun _ => ite (pure _) ih

/-- To ask for the swap mode takes plain requests only, or none if the session remembers it. -/
theorem isSwapMode (h : C.Serves) : Obeys C Session.isSwapMode := by
  refine bind get fun s => ?_
  split
  · exact pure _
  · exact bind (h _ rfl) fun _ => pure _

/-- To switch a clock takes plain requests. Whether the clock follows in time is another question,
so the contract has to allow a timeout. -/
theorem setClock (h : C.Serves) (htimeout : ∀ s us, C.failed s (.timeout "actuator clock" us) s)
    (c : Channel) (on : Bool) : Obeys C (Session.setClock c on) := by
  unfold Session.setClock
  refine bind (h _ rfl) fun _ => bind (h _ rfl) fun _ => bind (h _ rfl) fun _ => ?_
  refine bind get fun s => bind (awaitClock h _ _ _) fun followed => ite ?_ (pure _)
  exact fun t => htimeout t _

section tables

variable (h : C.Serves) (hclock : ∀ c on, Obeys C (Session.setClock c on))

include h hclock

/-- To open a table takes plain requests only. The settings decide which ones. -/
theorem openTable (c : Channel) (t : Table) : Obeys C (Session.openTable c t) := by
  have powered : Obeys C (Session.tablePower c t) := bind (readRegister h _) fun _ => pure _
  have enabled : Obeys C (Session.enablePassthru c) := bind (readRegister h _) fun _ => pure _
  have selected : Obeys C (Session.ramSelect c) := bind (readRegister h _) fun _ => pure _
  unfold Session.openTable
  refine bind powered fun _ => bind (updateRegister h _ _ _) fun _ => bind enabled fun _ => ?_
  refine bind (updateRegister h _ _ _) fun _ => bind (hclock _ _) fun _ => ?_
  exact bind selected fun _ => bind (updateRegister h _ _ _) fun _ => pure _

/-- A write, given what becomes of its check. The check stands apart because some callers know that
it passes and others do not. -/
theorem writeTable (c : Channel) (t : Table) (b : Bank) (data : Bytes)
    (hcheck : Obeys C (SessionM.checked (Table.checkAccess b data.machineLength))) :
    Obeys C (Session.writeTable c t b data) := by
  have finish (selected : Table) : Obeys C (do
      if !(← Session.isSwapMode) then Session.setRamSelect c selected
      Session.setClock c false) := by
    refine bind (isSwapMode h) fun on => ite ?_ (hclock _ _)
    exact bind (updateRegister h _ _ _) fun _ => hclock _ _
  unfold Session.writeTable
  refine bind hcheck fun _ => bind (openTable h hclock c t) fun before => ?_
  refine bind (h _ rfl) fun _ => bind (updateRegister h _ _ _) fun _ => bind get fun s => ?_
  exact ite (bind (updateRegister h _ _ _) fun _ => finish _) (finish _)

/-- A read, given what becomes of its check. It opens and closes the table as a write does, and
stops where a request fails. -/
theorem readTable (c : Channel) (t : Table) (b : Bank) (length : Nat)
    (hcheck : Obeys C (SessionM.checked (Table.checkAccess b (UInt64.ofNat length)))) :
    Obeys C (Session.readTable c t b length) := by
  unfold Session.readTable
  refine bind hcheck fun _ => bind (openTable h hclock c t) fun _ => bind (h _ rfl) fun _ => ?_
  refine bind (updateRegister h _ _ _) fun _ => bind (updateRegister h _ _ _) fun _ => ?_
  exact bind (updateRegister h _ _ _) fun _ => bind (hclock _ _) fun _ => pure _

end tables

end Obeys

end Predistortion
