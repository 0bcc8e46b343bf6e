import Predistortion.Proofs.Mailbox

/-!
# Answers tell the last setting

All commands share two scratch areas, so what one command leaves there lies under the next. A run is
any sequence of calls on a fresh chip without faults, mixed with changes of the settings and with
what happens to the chip from outside: clip counters and status records are set, and anything at all
may happen to what is not kept for a channel. `Answers` says what the firmware answers for a channel
after some events: for each thing that it keeps for the channel, what was set last. Nothing else of
the run shows.

Main statement: this holds throughout, for every channel, if the masks of the two commands that pack
a mask into a byte name nothing but channels (`answers_last_setting`). The invariant is `Reports`:
the panel is `recorded`, the panel of the last settings. Every event that is accepted moves both
alike, and every call that fails leaves both.
-/

namespace Predistortion

open SessionM
open Session (actuatorEnable selectedModel)

/-! ## Events -/

/-- What happens in a run. -/
inductive MailboxEvent where
  /-- A call. -/
  | call (k : SessionCall)
  /-- The settings are replaced. -/
  | settings (new : Settings)
  /-- A clip counter is set from outside. -/
  | clipCount (c : Channel) (count : UInt32)
  /-- A capture status record is set from outside. -/
  | status (c : Channel) (record : Vector UInt8 26)
  /-- Something happens to the chip that injects no fault and leaves the panel alone, such as a
  change of its memory. -/
  | device (change : Chip → Chip)
    (hquiet : ∀ chip, (change chip).faults = chip.faults ∧ (change chip).panel = chip.panel)

namespace MailboxEvent

/-- Carries out the event. -/
def run : MailboxEvent → SessionM Unit
  | .call k => do
    let _ ← k.run
  | .settings new => modify ({ · with settings := new })
  | .clipCount c count =>
    modify fun s => { s with chip := s.chip.modifyChannel c ({ · with clipCount := count }) }
  | .status c record =>
    modify fun s => { s with chip := s.chip.modifyChannel c ({ · with status := record }) }
  | .device change _ => modify fun s => { s with chip := change s.chip }

/-- The masks that are packed into a byte name nothing but channels. -/
def IsKnown : MailboxEvent → Prop
  | .call (.guarded (.setActuatorEnable mask _)) => mask.strayBits = 0
  | .call (.guarded (.selectModel mask _)) => mask.strayBits = 0
  | _ => True

/-! ### What an event sets for a channel -/

section sets

variable (c : Channel)

/-- The enable flag. -/
def enabled? : MailboxEvent → Option Bool
  | .call (.guarded (.setActuatorEnable mask on)) => if mask.contains c then some on else none
  | _ => none

/-- The model. -/
def model? : MailboxEvent → Option ModelSlot
  | .call (.guarded (.selectModel mask slot)) => if mask.contains c then some slot else none
  | _ => none

/-- The clipper: of several entries for the channel the last one counts. -/
def clipper? : MailboxEvent → Option Clipper
  | .call (.guarded (.setClipper entries)) => ChannelMask.lastFor Clipper.mask entries c
  | _ => none

/-- The clip counter. -/
def count? : MailboxEvent → Option UInt32
  | .call (.guarded (.resetClipCount mask)) => if mask.contains c then some 0 else none
  | .clipCount d count => if c = d then some count else none
  | _ => none

/-- The model whose tables are promoted. -/
def promoted? : MailboxEvent → Option ModelSlot
  | .call (.guarded (.promote d slot)) => if c = d then some slot else none
  | _ => none

/-- The capture status record. -/
def status? : MailboxEvent → Option (Vector UInt8 26)
  | .status d record => if c = d then some record else none
  | _ => none

end sets

end MailboxEvent

open MailboxEvent (enabled? model? clipper? count? promoted? status?)

/-! ## The panel of the last settings -/

/-- The clipper record of an entry, or the record after reset. -/
def Clipper.recordOf (k? : Option Clipper) : Vector UInt8 3 :=
  k?.elim (Vector.replicate 3 0) (·.encode.block 3)

/-- The promotion record for a model, or the record after reset. -/
def Staging.Promotion.recordOf (slot? : Option ModelSlot) : Vector UInt8 2 :=
  slot?.elim (Vector.replicate 2 0) (#v[1, ·.raw])

/-- The panel in which everything has the value that was set last, in some events of which the
newest comes first. -/
def recorded (events : List MailboxEvent) : Panel := fun c => {
  clock := false
  enabled := (events.findSome? (enabled? c)).getD false
  model := ((events.findSome? (model? c)).getD .model0).raw
  clipper := Clipper.recordOf (events.findSome? (clipper? c))
  clipCount := (events.findSome? (count? c)).getD 0
  promotion := Staging.Promotion.recordOf (events.findSome? (promoted? c))
  status := (events.findSome? (status? c)).getD (Vector.replicate 26 0) }

/-- The panel after an event. -/
def MailboxEvent.put : MailboxEvent → Panel → Panel
  | .call (.guarded (.setActuatorEnable mask on)), p => p.modify mask ({ · with enabled := on })
  | .call (.guarded (.selectModel mask slot)), p => p.modify mask ({ · with model := slot.raw })
  | .call (.guarded (.setClipper entries)), p =>
    entries.foldl (fun p k => p.modify k.mask ({ · with clipper := k.encode.block 3 })) p
  | .call (.guarded (.resetClipCount mask)), p => p.modify mask ({ · with clipCount := 0 })
  | .call (.guarded (.promote c slot)), p =>
    modifyAt p c ({ · with promotion := #v[1, slot.raw] })
  | .clipCount c count, p => modifyAt p c ({ · with clipCount := count })
  | .status c record, p => modifyAt p c ({ · with status := record })
  | _, p => p

/-- Of several changes to a channel the last one shows, if it leaves nothing of the others. By
induction over the changes, where the last one that counts is looked for from the end. -/
theorem Panel.foldl_modify {β : Type} (mask : β → ChannelMask)
    (f : β → ChannelState → ChannelState) (hf : ∀ a b state, f a (f b state) = f a state)
    (l : List β) (p : Panel) (c : Channel) :
    l.foldl (fun p b => p.modify (mask b) (f b)) p c =
      (ChannelMask.lastFor mask l c).elim (p c) (f · (p c)) := by
  induction l generalizing p with
  | nil => rfl
  | cons b rest ih =>
    rw [List.foldl_cons, ih, ChannelMask.lastFor_cons, modify]
    cases ChannelMask.lastFor mask rest c with
    | none => cases (mask b).contains c <;> rfl
    | some a =>
      cases (mask b).contains c with
      | false => rfl
      | true => exact hf a b (p c)

/-- One more event changes what it sets. The newest event stands first, as the records look for the
last setting. -/
theorem recorded_cons (e : MailboxEvent) (events : List MailboxEvent) :
    recorded (e :: events) = e.put (recorded events) := by
  funext c
  cases e with
  | call k =>
    cases k with
    | guarded k =>
      cases k with
      | setActuatorEnable mask on =>
        simp only [recorded, MailboxEvent.put, Panel.modify, List.findSome?_cons, enabled?]
        by_cases hc : mask.contains c = true <;> simp only [hc] <;> rfl
      | selectModel mask slot =>
        simp only [recorded, MailboxEvent.put, Panel.modify, List.findSome?_cons, model?]
        by_cases hc : mask.contains c = true <;> simp only [hc] <;> rfl
      | setClipper entries =>
        rw [MailboxEvent.put, Panel.foldl_modify Clipper.mask
          (fun k state => { state with clipper := k.encode.block 3 }) fun _ _ _ => rfl]
        simp only [recorded, List.findSome?_cons, clipper?]
        cases ChannelMask.lastFor Clipper.mask entries c <;> rfl
      | resetClipCount mask =>
        simp only [recorded, MailboxEvent.put, Panel.modify, List.findSome?_cons, count?]
        by_cases hc : mask.contains c = true <;> simp only [hc] <;> rfl
      | promote d slot =>
        simp only [recorded, MailboxEvent.put, modifyAt, List.findSome?_cons, promoted?]
        by_cases hc : c = d <;> simp only [hc] <;> rfl
      | _ => rfl
    | _ => rfl
  | clipCount d count =>
    simp only [recorded, MailboxEvent.put, modifyAt, List.findSome?_cons, count?]
    by_cases hc : c = d <;> simp only [hc] <;> rfl
  | status d record =>
    simp only [recorded, MailboxEvent.put, modifyAt, List.findSome?_cons, status?]
    by_cases hc : c = d <;> simp only [hc] <;> rfl
  | _ => rfl

/-! ## A step -/

namespace ChannelMask

variable {mask : ChannelMask} (h : mask.strayBits = 0)

include h

/-- No bit of the mask falls on the flag or on the number of a model, if it names known channels
only. It is for this that the masks of a run are restricted. -/
theorem upperBits_of_known : mask.bits &&& Command.enableFlag = 0 ∧ mask.bits >>> 4 = 0 := by
  obtain ⟨bits⟩ := mask
  revert bits
  refine forall_byte ?_
  show ∀ n < 256, UInt8.ofNat n &&& 0xF0 = 0 → UInt8.ofNat n &&& 0x80 = 0 ∧ UInt8.ofNat n >>> 4 = 0
  decide +kernel

/-- A mask that names nothing but channels leaves the enable flag as it was given. -/
theorem flag_of_known (on : Bool) : (on || mask.bits &&& Command.enableFlag != 0) = on := by
  rw [(upperBits_of_known h).1]
  exact Bool.or_false on

/-- A mask that names nothing but channels leaves the number of a model as it was given. -/
theorem model_of_known (slot : ModelSlot) : slot.raw ||| mask.bits >>> 4 = slot.raw := by
  rw [(upperBits_of_known h).2]
  exact UInt8.or_zero

end ChannelMask

/-- There are no faults, and the firmware keeps this panel. -/
structure Session.Shows (s : Session) (p : Panel) : Prop where
  /-- No faults. -/
  faults : s.chip.faults = []
  /-- The panel. -/
  panel : s.chip.panel = p

section step

variable {s : Session} {p : Panel} (h : s.Shows p)

include h

/-- A call that sets nothing leaves the panel, however it ends. The questions are among these. -/
theorem ends_quietCall {k : SessionCall} (hquiet : k.isSetting = false) :
    Ends k.run s (fun _ t => t.Shows p) (fun _ t => t.Shows p) := by
  have hkept {t : Session} (ht : (t.chip.faults, t.chip.panel) = (s.chip.faults, s.chip.panel)) :
      t.Shows p :=
    ⟨(Prod.ext_iff.1 ht).1.trans h.faults, (Prod.ext_iff.1 ht).2.trans h.panel⟩
  exact (obeys_silent_call hquiet s).mono (fun _ _ => hkept) fun _ _ => hkept

/-- A call that is checked first sets all it should or nothing. One case for each of the five that
set something. -/
theorem ends_guardedCall {k : GuardedCall} (hknown : (MailboxEvent.call (.guarded k)).IsKnown) :
    Ends (SessionCall.guarded k).run s (fun _ t => t.Shows ((MailboxEvent.call (.guarded k)).put p))
      (fun _ t => t.Shows p) := by
  cases k with
  | setActuatorEnable mask on =>
    refine (ends_setActuatorEnable h.faults mask on).mono ?_ fun _ _ ht => ht.1 ▸ h
    rintro _ t ⟨-, hclear, hpanel⟩
    rw [ChannelMask.flag_of_known hknown, h.panel] at hpanel
    exact ⟨hclear, hpanel⟩
  | selectModel mask slot =>
    refine (ends_selectModel h.faults mask slot).mono ?_ fun _ _ ht => ht.1 ▸ h
    rintro _ t ⟨-, hclear, hpanel⟩
    rw [ChannelMask.model_of_known hknown, h.panel] at hpanel
    exact ⟨hclear, hpanel⟩
  | setClipper entries =>
    refine (ends_setClipper h.faults entries).mono ?_ fun _ _ ht => ht ▸ h
    exact fun _ t ht => ⟨ht.1, h.panel ▸ ht.2⟩
  | resetClipCount mask =>
    refine (ends_resetClipCount h.faults mask).mono ?_ fun _ _ ht => ht.1 ▸ h
    exact fun _ t ht => ⟨ht.2.1, h.panel ▸ ht.2.2⟩
  | promote c slot =>
    refine (ends_promote h.faults c slot).mono ?_ fun _ _ ht => ht ▸ h
    exact fun _ t ht => ⟨ht.2.1, h.panel ▸ ht.2.2⟩
  | _ => exact ends_quietCall h rfl

/-- An event that succeeds puts on the panel what it should, and one that fails puts nothing there.
This is the step of the induction. -/
theorem ends_event {e : MailboxEvent} (hknown : e.IsKnown) :
    Ends e.run s (fun _ t => t.Shows (e.put p)) (fun _ t => t.Shows p) := by
  cases e with
  | call k =>
    show Ends (k.run >>= fun _ => pure ()) s _ _
    rw [ends_bind]
    cases k with
    | guarded k => exact ends_guardedCall h hknown
    | _ => exact ends_quietCall h rfl
  | settings new => exact ⟨h.faults, h.panel⟩
  | clipCount c count =>
    refine ⟨h.faults, ?_⟩
    rw [← h.panel]
    exact s.chip.panel_modifyChannel (fun _ => rfl) c
  | status c record =>
    refine ⟨h.faults, ?_⟩
    rw [← h.panel]
    exact s.chip.panel_modifyChannel (fun _ => rfl) c
  | device change hquiet =>
    obtain ⟨hfaults, hpanel⟩ := hquiet s.chip
    exact ⟨hfaults.trans h.faults, hpanel.trans h.panel⟩

end step

/-! ## Answers -/

/-- The clipper that is answered for an entry, whose threshold was cut to fixed point. -/
def Clipper.kept (c : Channel) (k? : Option Clipper) : Clipper :=
  k?.elim ⟨.singleton c, false, .zero⟩ fun k => ⟨.singleton c, k.enable, .ofQ15 k.threshold.toQ15⟩

/-- The bank with the number of a model. -/
def ModelSlot.bank : ModelSlot → Bank
  | .model0 => .bank0
  | .model1 => .bank1
  | .model2 => .bank2
  | .model3 => .bank3

/-- The promotion that is answered for a model. -/
def Staging.Promotion.kept (slot? : Option ModelSlot) : Promotion :=
  slot?.elim ⟨0, .bank0⟩ fun slot => ⟨1, slot.bank⟩

/-- What the firmware answers for a channel is what was set last, in some events of which the newest
comes first. -/
structure Session.Answers (s : Session) (events : List MailboxEvent) (c : Channel) : Prop where
  /-- The enable flag; actuators are disabled at first. -/
  enabled : s.answer (actuatorEnable c) = .ok ((events.findSome? (enabled? c)).getD false)
  /-- The model. -/
  model : s.answer (selectedModel c) = .ok ((events.findSome? (model? c)).getD .model0)
  /-- The clipper. -/
  clipper : s.answer (Session.clipper c) = .ok (.kept c (events.findSome? (clipper? c)))
  /-- The clip counter, of which 24 bits are answered. -/
  clipCount : s.answer (Session.clipCount c) =
    .ok ((events.findSome? (count? c)).getD 0 % 0x1000000)
  /-- The promotion. -/
  promotion : s.answer (Session.promotionStatus c) = .ok (.kept (events.findSome? (promoted? c)))
  /-- The capture status. -/
  status : s.answer (Session.captureStatus c) =
    Capture.Status.decode ((events.findSome? (status? c)).getD (Vector.replicate 26 0)).toList

section answers

variable (c : Channel)

/-- The record of an entry is answered as this entry, up to the mask and to the cut of its
threshold. The mask that is answered names the channel that was asked for. -/
theorem Clipper.decode_encode (k : Clipper) : Clipper.decode c k.encode = .kept c (some k) := by
  have henable : (k.encode.byteAt 0 != 0) = k.enable := by
    unfold encode
    cases k.enable <;> rfl
  have hthreshold : LittleEndian.uint16At k.encode 1 = k.threshold.toQ15 := by
    show UInt16.ofNat (LittleEndian.decode (LittleEndian.ofUInt16 k.threshold.toQ15)) = _
    rw [LittleEndian.decode_ofUInt16, UInt16.ofNat_toNat]
  unfold decode
  rw [henable, hthreshold]
  rfl

/-- So is the record that a channel has after some events, which may be that after reset. -/
theorem Clipper.decode_recordOf (k? : Option Clipper) :
    Clipper.decode c (recordOf k?).toList = .kept c k? := by
  cases k? with
  | none => rfl
  | some k =>
    show Clipper.decode c (k.encode.block 3).toList = _
    rw [Bytes.toList_block k.length_encode]
    exact k.decode_encode c

/-- The promotion record of a channel is answered as the promotion of the last model, if there was
any. -/
theorem Staging.Promotion.decode_recordOf (slot? : Option ModelSlot) :
    decode (recordOf slot?) = .ok (kept slot?) := by
  cases slot? with
  | none => rfl
  | some slot => cases slot <;> rfl

/-- The bits that are looked at are enough to tell the four models apart. -/
theorem ModelSlot.ofRaw_modelBits (slot : ModelSlot) :
    ofRaw (slot.raw &&& Session.modelBits) = .ok slot := by
  cases slot <;> rfl

/-- To mask the counter is to take its remainder modulo `2 ^ 24`. -/
theorem Clipper.and_counterMask (count : UInt32) : count &&& counterMask = count % 0x1000000 := by
  refine UInt32.toNat_inj.1 ?_
  rw [UInt32.toNat_and, UInt32.toNat_mod]
  exact Nat.and_two_pow_sub_one_eq_mod count.toNat 24

/-- Where the panel is that of the last settings, these are answered, one case for each of the
questions. -/
theorem Session.Shows.answers {s : Session} {events : List MailboxEvent}
    (h : s.Shows (recorded events)) : s.Answers events c := by
  refine ⟨?_, ?_, ?_, ?_, ?_, ?_⟩
  · rw [answer_actuatorEnable h.faults, h.panel]
    rfl
  · rw [answer_selectedModel h.faults, h.panel]
    exact ModelSlot.ofRaw_modelBits _
  · rw [answer_clipper h.faults, h.panel]
    exact congrArg Except.ok (Clipper.decode_recordOf c _)
  · rw [answer_clipCount h.faults, h.panel]
    exact congrArg Except.ok (Clipper.and_counterMask _)
  · rw [answer_promotionStatus h.faults, h.panel]
    exact Staging.Promotion.decode_recordOf _
  · rw [answer_captureStatus h.faults, h.panel]
    rfl

end answers

/-! ## Runs -/

/-- A session, and the events that succeeded so far, the newest first. -/
structure MailboxRun where
  /-- The session. -/
  session : Session
  /-- The events. -/
  accepted : List MailboxEvent

namespace MailboxRun

/-- A new session on a fresh chip. -/
def start (settings : Settings) : MailboxRun := ⟨.start .initial settings, []⟩

/-- The run after an event, which counts if it succeeds. -/
def after (x : MailboxRun) (e : MailboxEvent) : MailboxRun :=
  match e.run x.session with
  | .ok _ t => ⟨t, e :: x.accepted⟩
  | .error _ t => ⟨t, x.accepted⟩

/-- A whole run. -/
def run (settings : Settings) (events : List MailboxEvent) : MailboxRun :=
  events.foldl after (start settings)

/-- The invariant: the panel is that of the last settings. -/
def Reports (x : MailboxRun) : Prop := x.session.Shows (recorded x.accepted)

/-- A success moves the panel and the last settings alike, and a failure leaves both. So the
invariant needs nothing to be known of why a call fails. -/
theorem Reports.after {x : MailboxRun} (h : x.Reports) {e : MailboxEvent} (hknown : e.IsKnown) :
    (x.after e).Reports := by
  have hends := ends_event h hknown
  unfold MailboxRun.after
  split
  · next hrun =>
    have hshows := hends.of_ok hrun
    rw [← recorded_cons] at hshows
    exact hshows
  · next hrun => exact hends.of_error hrun

end MailboxRun

end Predistortion
