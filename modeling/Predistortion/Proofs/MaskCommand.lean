import Predistortion.Proofs.Mailbox
import Mathlib.Tactic.ByContra

/-!
# Batch commands act on the channels of their mask

To enable actuators and to select models are single commands on a mask, into whose one byte the mask
is packed with the flag or with the number of the model. `Session.SetsExactly` is what such a
command is for: the value is answered for the channels of the mask, and nothing changes for the
others. Actuators may also be enabled only within the channels that are initialized
(`EnablesWithin`).

A mask that names a channel may have bits that name none, and these fall on the flag and on the
number. Main statement: on every session without faults the calls do what they are for exactly if no
such bit makes a difference (`maskCommands_exact_iff`). Where one does, a call that disables
actuators enables them (`disabling_enables`).
-/

namespace Predistortion

open SessionM
open Session (setActuatorEnable selectModel actuatorEnable selectedModel)

variable {α : Type}

/-! ## What is asked for -/

namespace Session

/-- The value is answered for the channels of a mask, and for all others what was answered
before. -/
def SetsExactly (ask : Channel → SessionM α) (mask : ChannelMask) (v : α) (s t : Session) : Prop :=
  ∀ c, t.answer (ask c) = if mask.contains c then .ok v else s.answer (ask c)

/-- No actuator has become enabled but those of a mask. -/
def EnablesWithin (mask : ChannelMask) (s t : Session) : Prop :=
  ∀ c, t.answer (actuatorEnable c) = .ok true → s.answer (actuatorEnable c) ≠ .ok true →
    mask.contains c = true

end Session

/-- A bit of the mask falls on the flag that says to enable. -/
def ChannelMask.RaisesFlag (mask : ChannelMask) : Prop := mask.bits &&& Command.enableFlag ≠ 0

instance (mask : ChannelMask) : Decidable mask.RaisesFlag := inferInstanceAs (Decidable (_ ≠ _))

/-- The number under which the firmware finds the model again if the command carries this mask. -/
def ModelSlot.sentWith (slot : ModelSlot) (mask : ChannelMask) : UInt8 :=
  (slot.raw ||| mask.bits >>> 4) &&& Session.modelBits

/-- For a question that is answered from the panel, a command is exact if the channels of the mask
come to answer the value. -/
theorem setsExactly_iff {ask : Channel → SessionM α} (read : ChannelState → Except Error α)
    (hask : ∀ {s : Session}, s.chip.faults = [] → ∀ c, s.answer (ask c) = read (s.chip.panel c))
    {s t : Session} (hs : s.chip.faults = []) (ht : t.chip.faults = []) {mask : ChannelMask}
    {f : ChannelState → ChannelState} (hpanel : t.chip.panel = s.chip.panel.modify mask f) (v : α) :
    Session.SetsExactly ask mask v s t ↔
      ∀ c ∈ mask.channels, read (f (s.chip.panel c)) = .ok v := by
  refine forall_congr' fun c => ?_
  rw [hask ht, hask hs, hpanel, Panel.modify, ChannelMask.mem_channels]
  split
  · next hc => exact ⟨fun h _ => h, fun h => h hc⟩
  · next hc => exact iff_of_true rfl fun h => absurd h hc

/-! ## Checks -/

/-- A mask with any bit is not refused as empty. The check looks at all eight bits, also at those
that name no channel. -/
theorem ChannelMask.requireNonempty_of_bit {mask : ChannelMask} {bit : UInt8}
    (h : mask.bits &&& bit ≠ 0) : mask.requireNonempty = .ok () := by
  have hbits : mask.isEmpty = false := by
    refine beq_eq_false_iff_ne.2 fun hzero => h ?_
    rw [hzero, UInt8.zero_and]
  rw [requireNonempty, hbits]
  rfl

/-- Bits that are all among some others share nothing with what these share nothing with. -/
theorem and_eq_zero_of_and_not_eq_zero {a b bit : UInt8} (hinside : a &&& ~~~b = 0)
    (hnone : b &&& bit = 0) : a &&& bit = 0 := by
  have hinside : a.toBitVec &&& ~~~b.toBitVec = 0#8 := congrArg UInt8.toBitVec hinside
  have hnone : b.toBitVec &&& bit.toBitVec = 0#8 := congrArg UInt8.toBitVec hnone
  refine UInt8.toBitVec_inj.1 ?_
  calc a.toBitVec &&& bit.toBitVec
      = a.toBitVec &&& (b.toBitVec ||| ~~~b.toBitVec) &&& bit.toBitVec := by
        rw [BitVec.or_not_self, BitVec.and_allOnes]
    _ = a.toBitVec &&& (b.toBitVec &&& bit.toBitVec) := by
        rw [BitVec.and_or_distrib_left, hinside, BitVec.or_zero, BitVec.and_assoc]
    _ = 0#8 := by rw [hnone, BitVec.and_zero]

/-- A mask passes the check for enabling only if it is within the initialized channels. The check
compares all eight bits, and a channel is one of the lower four. -/
theorem contains_of_requireInitialized {initialized mask : ChannelMask}
    (h : Session.requireInitialized initialized mask true = .ok ()) {c : Channel}
    (hc : mask.contains c = true) : initialized.contains c = true := by
  have hinside : mask.bits &&& ~~~initialized.bits = 0 := by
    by_contra hne
    have hcond : (true && mask.bits &&& ~~~initialized.bits != 0) = true := by simpa using hne
    rw [Session.requireInitialized, if_pos hcond] at h
    cases h
  by_contra hout
  have hout : initialized.bits &&& c.bit = 0 := by simpa [ChannelMask.contains] using hout
  have hnone : mask.bits &&& c.bit = 0 := and_eq_zero_of_and_not_eq_zero hinside hout
  simp [ChannelMask.contains, hnone] at hc

/-- Each model is read from its own number and from no other. -/
theorem ModelSlot.ofRaw_eq_ok_iff {raw : UInt8} {slot : ModelSlot} :
    ofRaw raw = .ok slot ↔ raw = slot.raw := by
  refine ⟨fun h => ?_, fun h => h ▸ ofRaw_raw slot⟩
  unfold ofRaw at h
  repeat' split at h
  all_goals cases h
  all_goals assumption

/-! ## The two calls -/

section calls

variable {s : Session} (hfaults : s.chip.faults = [])

include hfaults

/-- A call that disables is not refused if the mask has any bit. With the bit of the flag among
them, it enables. -/
theorem exists_disabled {mask : ChannelMask} (hflag : mask.RaisesFlag) :
    ∃ t, setActuatorEnable mask false s = .ok () t ∧ t.chip.faults = [] ∧
      t.chip.panel = s.chip.panel.modify mask ({ · with enabled := true }) := by
  have hraised : (mask.bits &&& Command.enableFlag != 0) = true := bne_iff_ne.2 hflag
  have hends : Ends (setActuatorEnable mask false) s
      (fun _ t => t.chip.faults = [] ∧
        t.chip.panel = s.chip.panel.modify mask ({ · with enabled := true }))
      fun _ _ => False := by
    refine (ends_setActuatorEnable hfaults mask false).mono ?_ ?_
    · rintro _ t ⟨-, hclear, hpanel⟩
      simp only [hraised, Bool.or_true] at hpanel
      exact ⟨hclear, hpanel⟩
    · rintro e t ⟨-, -, hrefused⟩
      rw [ChannelMask.requireNonempty_of_bit hflag] at hrefused
      cases hrefused
  obtain ⟨_, t, hrun, ht⟩ := hends.exists_ok
  exact ⟨t, hrun, ht⟩

/-- A selection is not refused if the mask names a channel. It sets the number that the mask has
changed. -/
theorem exists_selected {mask : ChannelMask} (slot : ModelSlot) {c : Channel}
    (hc : c ∈ mask.channels) :
    ∃ t, selectModel mask slot s = .ok () t ∧ t.chip.faults = [] ∧
      t.chip.panel = s.chip.panel.modify mask
        ({ · with model := slot.raw ||| mask.bits >>> 4 }) := by
  have hends : Ends (selectModel mask slot) s
      (fun _ t => t.chip.faults = [] ∧
        t.chip.panel = s.chip.panel.modify mask ({ · with model := slot.raw ||| mask.bits >>> 4 }))
      fun _ _ => False := by
    refine (ends_selectModel hfaults mask slot).mono (fun _ _ => And.right) ?_
    rintro e t ⟨-, -, hrefused⟩
    have hbit : mask.bits &&& c.bit ≠ 0 := bne_iff_ne.1 (ChannelMask.mem_channels.1 hc)
    rw [ChannelMask.requireNonempty_of_bit hbit] at hrefused
    cases hrefused
  obtain ⟨_, t, hrun, ht⟩ := hends.exists_ok
  exact ⟨t, hrun, ht⟩

/-- To set the flag does what is meant except in one case: the call says to disable, the mask has
the bit of the flag, and it names a channel. Then this channel is enabled. -/
theorem setActuatorEnable_exact_iff (hcheck : s.rangeCheck = true) (mask : ChannelMask)
    (on : Bool) :
    (∀ t, setActuatorEnable mask on s = .ok () t →
      s.SetsExactly actuatorEnable mask on t ∧
        s.EnablesWithin s.settings.validation.initialized t) ↔
      ¬(on = false ∧ mask.RaisesFlag ∧ mask.channels ≠ []) := by
  have hset {t : Session} := setsExactly_iff (s := s) (t := t) (fun state => .ok state.enabled)
    answer_actuatorEnable hfaults
  constructor
  · rintro hexact ⟨rfl, hflag, hchannels⟩
    obtain ⟨c, hc⟩ := List.exists_mem_of_ne_nil _ hchannels
    obtain ⟨t, hrun, hclear, hpanel⟩ := exists_disabled hfaults hflag
    cases (hset hclear hpanel false).1 (hexact t hrun).1 c hc
  · intro hapart t hrun
    obtain ⟨hpassed, hclear, hpanel⟩ := (ends_setActuatorEnable hfaults mask on).of_ok hrun
    have hvalue (c : Channel) (hc : c ∈ mask.channels) :
        (on || mask.bits &&& Command.enableFlag != 0) = on := by
      cases on with
      | true => rfl
      | false =>
        by_contra hraised
        refine hapart ⟨rfl, ?_, List.ne_nil_of_mem hc⟩
        simpa [ChannelMask.RaisesFlag] using hraised
    refine ⟨(hset hclear hpanel on).2 fun c hc => congrArg Except.ok (hvalue c hc),
      fun c hafter hbefore => ?_⟩
    rw [answer_actuatorEnable hclear, hpanel, Panel.modify] at hafter
    split at hafter
    · next hc =>
      -- The channel is in the mask and was enabled by this call, which has passed the check.
      obtain rfl : on = true :=
        (hvalue c (ChannelMask.mem_channels.2 hc)).symm.trans (Except.ok.inj hafter)
      obtain ⟨_, -, hinside⟩ := exists_of_bind_eq_ok (hpassed hcheck)
      exact contains_of_requireInitialized hinside hc
    · exact absurd ((answer_actuatorEnable hfaults c).trans hafter) hbefore

/-- To select a model does what is meant if the bits of the mask leave the number of the model as it
is, or if the mask names no channel at all. -/
theorem selectModel_exact_iff (mask : ChannelMask) (slot : ModelSlot) :
    (∀ t, selectModel mask slot s = .ok () t → s.SetsExactly selectedModel mask slot t) ↔
      (slot.sentWith mask = slot.raw ∨ mask.channels = []) := by
  have hset {t : Session} (hclear : t.chip.faults = [])
      (hpanel : t.chip.panel = s.chip.panel.modify mask
        ({ · with model := slot.raw ||| mask.bits >>> 4 })) :
      s.SetsExactly selectedModel mask slot t ↔
        ∀ c ∈ mask.channels, slot.sentWith mask = slot.raw :=
    (setsExactly_iff (fun state => ModelSlot.ofRaw (state.model &&& Session.modelBits))
      answer_selectedModel hfaults hclear hpanel slot).trans <|
      forall₂_congr fun c hc => ModelSlot.ofRaw_eq_ok_iff
  constructor
  · intro hexact
    refine or_iff_not_imp_right.2 fun hchannels => ?_
    obtain ⟨c, hc⟩ := List.exists_mem_of_ne_nil _ hchannels
    obtain ⟨t, hrun, hclear, hpanel⟩ := exists_selected hfaults slot hc
    exact (hset hclear hpanel).1 (hexact t hrun) c hc
  · intro h t hrun
    obtain ⟨-, hclear, hpanel⟩ := (ends_selectModel hfaults mask slot).of_ok hrun
    exact (hset hclear hpanel).2 fun c hc => h.resolve_right (List.ne_nil_of_mem hc)

end calls

/-! ## Both calls -/

/-- Where arguments are checked and there are no faults, the two calls act exactly on the channels
of the mask if and only if no other bit of it makes a difference. For actuators that is unless a bit
falls on the flag of a call that disables, and for models if the number that arrives is the one that
was meant; a mask without channels does nothing in either call. -/
theorem maskCommands_exact_iff {s : Session} (hfaults : s.chip.faults = [])
    (hcheck : s.rangeCheck = true) (mask : ChannelMask) :
    (∀ on, (∀ t, setActuatorEnable mask on s = .ok () t →
        s.SetsExactly actuatorEnable mask on t ∧
          s.EnablesWithin s.settings.validation.initialized t) ↔
      ¬(on = false ∧ mask.RaisesFlag ∧ mask.channels ≠ [])) ∧
    ∀ slot, (∀ t, selectModel mask slot s = .ok () t →
        s.SetsExactly selectedModel mask slot t) ↔
      (slot.sentWith mask = slot.raw ∨ mask.channels = []) :=
  ⟨setActuatorEnable_exact_iff hfaults hcheck mask, selectModel_exact_iff hfaults mask⟩

/-- Bit 6 names no channel and falls on nothing that the firmware looks at. So both calls do what is
meant with it. -/
theorem maskCommands_exact_bit6 :
    (∀ t, setActuatorEnable ⟨0x43⟩ false (.start .initial default) = .ok () t →
      Session.SetsExactly actuatorEnable ⟨0x43⟩ false (.start .initial default) t) ∧
    ∀ slot t, selectModel ⟨0x43⟩ slot (.start .initial default) = .ok () t →
      Session.SetsExactly selectedModel ⟨0x43⟩ slot (.start .initial default) t := by
  obtain ⟨henable, hselect⟩ :=
    maskCommands_exact_iff (s := .start .initial default) rfl rfl ⟨0x43⟩
  refine ⟨fun t hrun => ?_, fun slot => (hselect slot).2 (.inl ?_)⟩
  · have hapart : ¬(false = false ∧ ChannelMask.RaisesFlag ⟨0x43⟩ ∧
        ChannelMask.channels ⟨0x43⟩ ≠ []) := fun h => h.2.1 (by decide)
    exact ((henable false).2 hapart t hrun).1
  · cases slot <;> decide

/-- A session on a fresh chip whose first channel is not initialized. -/
def firstUninitialized : Session :=
  .start .initial { (default : Settings) with validation := ⟨true, ⟨0x0E⟩⟩ }

/-- To disable the actuator of the first channel with a mask whose upper bit is set enables it,
although it is not initialized. -/
theorem disabling_enables :
    ∃ t, setActuatorEnable ⟨0x81⟩ false firstUninitialized = .ok () t ∧
      t.answer (actuatorEnable .tx1) = .ok true ∧ ¬firstUninitialized.EnablesWithin ⟨0x0E⟩ t := by
  have hfaults : firstUninitialized.chip.faults = [] := rfl
  have hflag : ChannelMask.RaisesFlag ⟨0x81⟩ := by decide
  obtain ⟨t, hrun, hclear, hpanel⟩ := exists_disabled hfaults hflag
  have hafter : t.answer (actuatorEnable .tx1) = .ok true := by
    rw [answer_actuatorEnable hclear, hpanel]
    rfl
  have hbefore : firstUninitialized.answer (actuatorEnable .tx1) = .ok false :=
    answer_actuatorEnable hfaults .tx1
  refine ⟨t, hrun, hafter, fun hwithin => ?_⟩
  have hin := hwithin .tx1 hafter fun htrue => nomatch hbefore.symm.trans htrue
  exact absurd hin (by decide)

end Predistortion
