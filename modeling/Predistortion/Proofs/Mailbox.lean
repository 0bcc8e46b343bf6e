import Predistortion.Proofs.Healthy
import Predistortion.Proofs.MemoryMap
import Predistortion.Proofs.Panel

/-!
# Commands and their answers

All commands share two scratch areas of the memory: payloads are put into one of them before a
command is given, and answers are found in one or the other after it. On a chip without faults none
of this shows. A command that asks answers from the panel alone, whatever the areas held before
(`answer_*`), and a command that sets something moves the panel by a function of its arguments
(`Chip.panel_carryOut_*`). `Moves` carries this over to the calls, which give such a command for
each channel of a mask or for each entry of a list, once the arguments are checked.
-/

namespace Predistortion

open SessionM

variable {α β : Type}

/-! ## Commands without faults -/

/-- Only a fault forces the status of a command, so that without faults every command is carried
out, whatever object it addresses. -/
theorem Chip.forced_of_no_faults {chip : Chip} (hfaults : chip.faults = []) (object : UInt8) :
    chip.forced object = none := by
  rw [forced, hfaults]
  rfl

/-- Without faults a command is carried out, and nothing else is changed but the lists of calls and
of transactions. -/
theorem ends_execute_of_no_faults (k : Command) {s : Session} (hfaults : s.chip.faults = []) :
    Ends (execute k) s
      (fun _ t => ∃ calls journal,
        t = { s with chip := { s.chip.carryOut k with calls, journal } })
      (fun _ _ => False) := by
  refine (ends_execute k s).mono ?_ fun _ _ ht => ht.2 hfaults
  rintro _ t ⟨-, timeoutUs, intervalUs, rfl⟩
  have htaken := s.chip.takeCommand_eq_carryOut (k := k) (Chip.forced_of_no_faults hfaults _)
  have hcarried : (s.chip.serve k.request).2 = s.chip.carryOut k := htaken
  rw [Chip.served_eq (s.chip.served k.request), Chip.served_eq s.chip, hcarried]
  exact ⟨_, _, rfl⟩

/-- To carry out a command leaves the faults alone. -/
theorem Chip.faults_carryOut (chip : Chip) (k : Command) :
    (chip.carryOut k).faults = chip.faults :=
  congrArg (·.1) ((chip.addressed k).fixed_execute k.payload k.opcode)

/-- Without faults a command is carried out, and to wait for it changes nothing more. -/
theorem ends_execute_carriedOut (k : Command) {s : Session} (hfaults : s.chip.faults = []) :
    Ends (execute k) s
      (fun _ t => t.chip.faults = [] ∧ t.chip.memory = (s.chip.carryOut k).memory ∧
        t.chip.channels = (s.chip.carryOut k).channels)
      (fun _ _ => False) := by
  refine (ends_execute_of_no_faults k hfaults).mono ?_ fun _ _ hf => hf
  rintro _ _ ⟨calls, journal, rfl⟩
  exact ⟨(s.chip.faults_carryOut k).trans hfaults, rfl, rfl⟩

/-! ## Asking -/

/-- A value or an error that is known beforehand is the answer, in whatever state it is given. This
is how the answers below end that may still fail to be decoded. -/
theorem ends_ofExcept_self (x : Except Error α) (s : Session) :
    Ends (ofExcept x) s (fun a _ => x = .ok a) (fun e _ => x = .error e) := by
  cases x <;> rfl

/-- What a computation answers. -/
def Session.answer (s : Session) (m : SessionM α) : Except Error α :=
  match m s with
  | .ok a _ => .ok a
  | .error e _ => .error e

/-- To know the answer it is enough to know how the computation ends, on both ways out. The state in
which it ends does not count. -/
theorem Session.answer_eq {s : Session} {m : SessionM α} {x : Except Error α}
    (h : Ends m s (fun a _ => x = .ok a) (fun e _ => x = .error e)) : s.answer m = x := by
  unfold answer
  cases hrun : m s with
  | ok a t => exact (h.of_ok hrun).symm
  | error e t => exact (h.of_error hrun).symm

/-- The same where a function is applied to the value before it is answered. -/
theorem ends_ofExcept_map (x : Except Error α) (f : α → β) (s : Session) :
    Ends (do
      let a ← ofExcept x
      return f a) s (fun b _ => x.map f = .ok b) (fun e _ => x.map f = .error e) := by
  cases x <;> rfl

/-- To watch for failures does not change the answer. It changes the phase, which is not part of
it. -/
theorem Session.answer_tracked (s : Session) (m : SessionM α) :
    s.answer (Session.tracked m) = s.answer m := by
  unfold answer Session.tracked
  cases m s <;> rfl

/-- The record that a command answers with is what is read from the area where the answer is put.
All questions to the mailbox are this one, with a command and a decoder of their own. -/
theorem Session.answer_ask {s : Session} (hfaults : s.chip.faults = []) {k : Command}
    {area : UInt32} (record : Bytes) {n : Nat} {decode : Bytes → SessionM α} {x : Except Error α}
    (hrecord : s.chip.carryOut k = (s.chip.addressed k).writeMemory area record)
    (hlength : record.length = n) (hshort : n ≤ 26)
    (hdecode : ∀ t, Ends (decode record) t (fun a _ => x = .ok a) (fun e _ => x = .error e)) :
    s.answer (do
      execute k
      let bytes ← perform (.memoryRead area n)
      decode bytes) = x := by
  refine answer_eq ?_
  rw [ends_bind]
  refine (ends_execute_carriedOut k hfaults).mono ?_ fun _ _ hf => hf.elim
  rintro _ t ⟨hclear, hmemory, -⟩
  rw [ends_bind]
  refine ends_perform_of_no_faults hclear ?_
  have hread : t.chip.memory.readRun area n = record := by
    rw [hmemory, hrecord, ← hlength]
    exact Memory.readRun_writeRun_self s.chip.memory area record (by omega)
  show Ends (decode (t.chip.memory.readRun area n)) _ _ _
  rw [hread]
  exact hdecode _

/-- The promotion that a record tells of. -/
def Staging.Promotion.decode (record : Vector UInt8 2) : Except Error Promotion :=
  (Bank.ofIndex record[1].toNat).map fun bank => { status := record[0], bank }

section answers

variable {s : Session} (hfaults : s.chip.faults = []) (c : Channel)

include hfaults

/-- The channel is answered to be enabled if the panel has it enabled. The flag comes back as a
byte, and any byte but zero says yes. -/
theorem answer_actuatorEnable :
    s.answer (Session.actuatorEnable c) = .ok (s.chip.panel c).enabled := by
  refine Session.answer_ask hfaults [Chip.flagByte (s.chip.channel c).enabled] ?_ rfl
    (by decide) fun t => ?_
  · cases c <;> rfl
  · show Except.ok (s.chip.channel c).enabled = .ok _
    cases (s.chip.channel c).enabled <;> rfl

/-- The answer is the model whose number is in the lower bits of the byte that the panel has. A
number without a model is answered as an error. -/
theorem answer_selectedModel :
    s.answer (Session.selectedModel c) =
      ModelSlot.ofRaw ((s.chip.panel c).model &&& Session.modelBits) := by
  refine Session.answer_ask hfaults [(s.chip.channel c).model] ?_ rfl (by decide)
    fun t => ?_
  · cases c <;> rfl
  · exact ends_ofExcept_self (ModelSlot.ofRaw ((s.chip.channel c).model &&& Session.modelBits)) t

/-- The answer is the record that the panel has for the channel, decoded with the channel alone in
its mask. -/
theorem answer_clipper :
    s.answer (Session.clipper c) =
      .ok (Clipper.decode c (s.chip.panel c).clipper.toList) := by
  refine Session.answer_ask hfaults (s.chip.channel c).clipper.toList ?_
    (Vector.length_toList ..) (by decide) fun t => rfl
  cases c <;> rfl

/-- The answer is the count that the panel has, cut to the bits of the counter. -/
theorem answer_clipCount :
    s.answer (Session.clipCount c) = .ok ((s.chip.panel c).clipCount &&& Clipper.counterMask) := by
  refine Session.answer_ask hfaults (LittleEndian.ofUInt32 (s.chip.channel c).clipCount) ?_
    rfl (by decide) fun t => ?_
  · cases c <;> rfl
  · show Except.ok _ = .ok (LittleEndian.uint32At (LittleEndian.ofUInt32 _) 0 &&& _)
    rw [LittleEndian.uint32At_ofUInt32]
    rfl

/-- The answer is decoded from the two bytes that the panel has. It fails only if the second of them
is not the number of a bank. -/
theorem answer_promotionStatus :
    s.answer (Session.promotionStatus c) =
      Staging.Promotion.decode (s.chip.panel c).promotion := by
  refine Session.answer_ask hfaults (s.chip.channel c).promotion.toList ?_
    (Vector.length_toList ..) (by decide) fun t => ?_
  · cases c <;> rfl
  · have hstatus := Bytes.byteAt_toList (s.chip.channel c).promotion (i := 0) (by decide)
    have hbank := Bytes.byteAt_toList (s.chip.channel c).promotion (i := 1) (by decide)
    rw [hstatus, hbank]
    exact ends_ofExcept_map (Bank.ofIndex (s.chip.channel c).promotion[1].toNat) _ t

/-- The answer is decoded from the bytes that the panel has, and the phase of the session does not
matter for it. -/
theorem answer_captureStatus :
    s.answer (Session.captureStatus c) =
      Capture.Status.decode (s.chip.panel c).status.toList := by
  unfold Session.captureStatus
  rw [Session.answer_tracked]
  refine Session.answer_ask hfaults (s.chip.channel c).status.toList ?_
    (Vector.length_toList ..) (by decide) fun t => ?_
  · cases c <;> rfl
  · exact ends_ofExcept_self (Capture.Status.decode (s.chip.channel c).status.toList) t

end answers

/-! ## Setting -/

section bytes

/-! What the firmware takes out of the one byte into which a mask is packed with something else. -/

variable (mask : ChannelMask)

/-- The channels are found in the lower half of the byte, if the other thing keeps out of it. -/
theorem contains_packed {other : UInt8} (hother : other &&& 0x0F = 0) (c : Channel) :
    ChannelMask.contains ⟨(other ||| mask.bits) &&& 0x0F⟩ c = mask.contains c := by
  have hlower : (other ||| mask.bits) &&& 0x0F = mask.bits &&& 0x0F := by
    have hother : other.toBitVec &&& 0x0F#8 = 0#8 := congrArg UInt8.toBitVec hother
    refine UInt8.toBitVec_inj.1 ?_
    show (other.toBitVec ||| mask.bits.toBitVec) &&& 0x0F#8 = mask.bits.toBitVec &&& 0x0F#8
    rw [BitVec.and_or_distrib_right, hother, BitVec.zero_or]
  unfold ChannelMask.contains
  rw [hlower, UInt8.and_assoc]
  cases c <;> rfl

/-- The firmware looks at the flag of the byte, which is raised by the call or by a bit of the mask.
So a mask with this bit enables also when it is sent to disable. -/
theorem flag_enableByte (on : Bool) :
    (((if on then Command.enableFlag else 0) ||| mask.bits) &&& 0x80 != 0) =
      (on || mask.bits &&& Command.enableFlag != 0) := by
  obtain ⟨bits⟩ := mask
  revert bits
  apply forall_byte
  cases on <;> decide +kernel

/-- The firmware takes the model from the upper half of the byte, where it meets the upper half of
the mask. -/
theorem model_modelByte (slot : ModelSlot) :
    (slot.raw <<< 4 ||| mask.bits) >>> 4 = slot.raw ||| mask.bits >>> 4 := by
  have hslot : (slot.raw <<< 4) >>> 4 = slot.raw := by cases slot <;> rfl
  calc (slot.raw <<< 4 ||| mask.bits) >>> 4
      = (slot.raw <<< 4) >>> 4 ||| mask.bits >>> 4 := by
        refine UInt8.toBitVec_inj.1 ?_
        exact BitVec.ushiftRight_or_distrib _ _ 4
    _ = slot.raw ||| mask.bits >>> 4 := by rw [hslot]

end bytes

namespace Chip

variable (chip : Chip)

/-- The firmware enables the channels of a mask also if a bit of the mask falls on the flag. -/
theorem panel_carryOut_actuatorEnable (mask : ChannelMask) (on : Bool) :
    (chip.carryOut (Command.actuatorEnable mask on)).panel =
      chip.panel.modify mask
        ({ · with enabled := on || mask.bits &&& Command.enableFlag != 0 }) := by
  refine (panel_modifyChannels _ (fun _ => rfl) ⟨_⟩).trans ?_
  have hother : (if on then Command.enableFlag else 0) &&& 0x0F = 0 := by cases on <;> rfl
  refine Panel.modify_congr (contains_packed mask hother) fun state => ?_
  exact congrArg (fun enabled => { state with enabled }) (flag_enableByte mask on)

/-- The upper bits of the mask fall on the number of the model, and the lower ones name the
channels. -/
theorem panel_carryOut_selectModel (mask : ChannelMask) (slot : ModelSlot) :
    (chip.carryOut (Command.selectModel mask slot)).panel =
      chip.panel.modify mask ({ · with model := slot.raw ||| mask.bits >>> 4 }) := by
  refine (panel_modifyChannels _ (fun _ => rfl) ⟨_⟩).trans ?_
  have hother : slot.raw <<< 4 &&& 0x0F = 0 := by cases slot <;> rfl
  refine Panel.modify_congr (contains_packed mask hother) fun state => ?_
  exact congrArg (fun model => { state with model }) (model_modelByte mask slot)

/-- The channel takes its record from the scratch area, whatever the area holds. What was put there
before decides, so a call has to write the area first. -/
theorem panel_carryOut_setClipper (c : Channel) :
    (chip.carryOut (Command.setClipper c)).panel =
      modifyAt chip.panel c ({ · with clipper := chip.memory.readBlock mailboxSet 3 }) := by
  rw [← Panel.modify_singleton]
  exact panel_modifyChannels (chip.addressed _) (fun _ => rfl) _

/-- The count of the one channel becomes zero, and nothing else of the panel changes. -/
theorem panel_carryOut_resetClipCount (c : Channel) :
    (chip.carryOut (Command.resetClipCount c)).panel =
      modifyAt chip.panel c ({ · with clipCount := 0 }) := by
  rw [← Panel.modify_singleton]
  exact panel_modifyChannels (chip.addressed _) (fun _ => rfl) _

/-- The channel notes that a promotion took place and the bank to which it went, which is the first
byte of the scratch area. -/
theorem panel_carryOut_promote (c : Channel) :
    (chip.carryOut (Command.promote c)).panel =
      modifyAt chip.panel c ({ · with promotion := #v[1, chip.memory.read mailboxSet] }) := by
  have hchip : chip.carryOut (Command.promote c) =
      (chip.addressed (Command.promote c)).modifyChannel c
        ({ · with promotion := #v[1, chip.memory.read mailboxSet] }) := by
    cases c <;> rfl
  rw [hchip]
  exact panel_modifyChannel (chip.addressed _) (fun _ => rfl) c

end Chip

/-! ### Computations that move the panel -/

/-- A block is read where its bytes were written. The firmware takes records of a known length in
this way. -/
theorem Memory.readBlock_writeRun (m : Memory) (address : UInt32) {data : Bytes} {n : Nat}
    (hlength : data.length = n) (hn : n ≤ 0x100000000) :
    (m.writeRun address data).readBlock address n = data.block n := by
  refine Vector.ext fun i hi => ?_
  rw [readBlock, Bytes.block, Vector.getElem_ofFn, Vector.getElem_ofFn]
  exact read_writeRun data m address i (by omega) (by omega)

/-- A record has the three bytes that the firmware takes from the scratch area. -/
theorem Clipper.length_encode (k : Clipper) : k.encode.length = 3 := rfl

/-- Without faults the computation succeeds and moves the panel by a function. -/
def Moves (m : SessionM Unit) (step : Panel → Panel) : Prop :=
  ∀ s : Session, s.chip.faults = [] →
    Ends m s (fun _ t => t.chip.faults = [] ∧ t.chip.panel = step s.chip.panel) (fun _ _ => False)

namespace Moves

/-- Two computations in turn move the panel by one function after the other, since the first leaves
no faults either. -/
theorem bind {m n : SessionM Unit} {step step' : Panel → Panel} (hm : Moves m step)
    (hn : Moves n step') : Moves (m >>= fun _ => n) fun p => step' (step p) := by
  intro s hfaults
  rw [ends_bind]
  refine (hm s hfaults).mono ?_ fun _ _ hf => hf
  rintro _ t ⟨hclear, hpanel⟩
  have hlater := hn t hclear
  rwa [hpanel] at hlater

/-- A run over a list moves the panel by one step after the other, so that a loop over channels
becomes a fold. -/
theorem forM {f : β → SessionM Unit} {step : β → Panel → Panel} (h : ∀ b, Moves (f b) (step b))
    (l : List β) : Moves (l.forM f) fun p => l.foldl (fun p b => step b p) p := by
  induction l with
  | nil => exact fun s hfaults => ⟨hfaults, rfl⟩
  | cons b rest ih => exact (h b).bind ih

/-- A command moves the panel as it does when it is carried out, because the wait that follows it
moves nothing. -/
theorem execute {k : Command} {step : Panel → Panel}
    (h : ∀ chip : Chip, (chip.carryOut k).panel = step chip.panel) :
    Moves (SessionM.execute k) step := by
  intro s hfaults
  refine (ends_execute_carriedOut k hfaults).mono ?_ fun _ _ hf => hf
  rintro _ t ⟨hclear, -, hchannels⟩
  exact ⟨hclear, (Chip.panel_of_channels _ hchannels).trans (h s.chip)⟩

/-- A payload is put into the scratch area, and then a command is given that takes it from there.
What the command makes of the panel has to be known for a memory with the payload in it. -/
theorem staged {data : Bytes} {k : Command} {step : Panel → Panel}
    (h : ∀ (chip : Chip) (m : Memory), chip.memory = m.writeRun mailboxSet data →
      (chip.carryOut k).panel = step chip.panel) :
    Moves (do
      perform (.memoryWrite mailboxSet data)
      SessionM.execute k) step := by
  intro s hfaults
  rw [ends_bind]
  refine ends_perform_of_no_faults hfaults ?_
  let ready := s.chip.served (.memoryWrite mailboxSet data)
  have hclear : ready.faults = [] := (Chip.faults_served ..).trans hfaults
  have hmemory : ready.memory = s.chip.memory.writeRun mailboxSet data := by
    show Chip.memory (s.chip.served _) = _
    rw [Chip.served_eq]
    rfl
  have hpanel : ready.panel = s.chip.panel := s.chip.panel_served fun hkind => nomatch hkind
  refine (ends_execute_carriedOut k (s := { s with chip := ready }) hclear).mono ?_ fun _ _ hf => hf
  rintro _ t ⟨hlater, -, hchannels⟩
  refine ⟨hlater, (Chip.panel_of_channels _ hchannels).trans ?_⟩
  rw [← hpanel]
  exact h ready _ hmemory

/-- To send a record to a channel replaces the record of this channel, since the area from which the
firmware takes it was written just before. -/
theorem applyClipper (k : Clipper) (c : Channel) :
    Moves (Session.applyClipper k c)
      fun p => modifyAt p c ({ · with clipper := k.encode.block 3 }) := by
  refine staged fun chip m hmemory => ?_
  rw [Chip.panel_carryOut_setClipper, hmemory]
  rw [Memory.readBlock_writeRun m mailboxSet k.length_encode (by decide)]

end Moves

/-- Checked arguments: a computation that moves the panel does so once the check is passed, and is
not reached if the check fails. -/
theorem Moves.ends_checked {m : SessionM Unit} {step : Panel → Panel} (h : Moves m step)
    (check : Except Error Unit) {s : Session} (hfaults : s.chip.faults = []) :
    Ends (checked check >>= fun _ => m) s
      (fun _ t => (s.rangeCheck = true → check = .ok ()) ∧ t.chip.faults = [] ∧
        t.chip.panel = step s.chip.panel)
      (fun e t => t = s ∧ s.rangeCheck = true ∧ check = .error e) := by
  rw [ends_bind]
  refine (ends_checked_self check s).mono ?_ fun _ _ ht => ht
  rintro _ t ⟨rfl, hcheck⟩
  exact (h t hfaults).mono (fun _ _ ht => ⟨hcheck, ht⟩) fun _ _ hf => hf.elim

/-! ### The calls that set something -/

section calls

variable {s : Session} (hfaults : s.chip.faults = [])

include hfaults

/-- The call sets the flag of all channels of its mask, or is refused by one of its two checks and
then leaves the session as it was. The mask enables by itself if a bit of it falls on the flag. -/
theorem ends_setActuatorEnable (mask : ChannelMask) (on : Bool) :
    Ends (Session.setActuatorEnable mask on) s
      (fun _ t => (s.rangeCheck = true → (do
          mask.requireNonempty
          Session.requireInitialized s.settings.validation.initialized mask on) = .ok ()) ∧
        t.chip.faults = [] ∧
        t.chip.panel = s.chip.panel.modify mask
          ({ · with enabled := on || mask.bits &&& Command.enableFlag != 0 }))
      (fun e t => t = s ∧ s.rangeCheck = true ∧ (do
          mask.requireNonempty
          Session.requireInitialized s.settings.validation.initialized mask on) = .error e) := by
  have hmoves : Moves (execute (Command.actuatorEnable mask on)) fun p =>
      p.modify mask ({ · with enabled := on || mask.bits &&& Command.enableFlag != 0 }) :=
    .execute fun chip => chip.panel_carryOut_actuatorEnable mask on
  unfold Session.setActuatorEnable
  rw [ends_bind, ends_get]
  exact hmoves.ends_checked _ hfaults

/-- The call sets the model of all channels of its mask, or is refused because the mask is empty.
What is set is the number of the model with the upper bits of the mask in it. -/
theorem ends_selectModel (mask : ChannelMask) (slot : ModelSlot) :
    Ends (Session.selectModel mask slot) s
      (fun _ t => (s.rangeCheck = true → mask.requireNonempty = .ok ()) ∧ t.chip.faults = [] ∧
        t.chip.panel = s.chip.panel.modify mask
          ({ · with model := slot.raw ||| mask.bits >>> 4 }))
      (fun e t => t = s ∧ s.rangeCheck = true ∧ mask.requireNonempty = .error e) := by
  have hmoves : Moves (execute (Command.selectModel mask slot)) fun p =>
      p.modify mask ({ · with model := slot.raw ||| mask.bits >>> 4 }) :=
    .execute fun chip => chip.panel_carryOut_selectModel mask slot
  exact hmoves.ends_checked _ hfaults

/-- The call sets the counts of all channels of its mask to zero, by one command for each of
them. -/
theorem ends_resetClipCount (mask : ChannelMask) :
    Ends (Session.resetClipCount mask) s
      (fun _ t => (s.rangeCheck = true → mask.requireNonempty = .ok ()) ∧ t.chip.faults = [] ∧
        t.chip.panel = s.chip.panel.modify mask ({ · with clipCount := 0 }))
      (fun e t => t = s ∧ s.rangeCheck = true ∧ mask.requireNonempty = .error e) := by
  have each (c : Channel) : Moves (execute (Command.resetClipCount c))
      fun p => modifyAt p c ({ · with clipCount := 0 }) :=
    .execute fun chip => chip.panel_carryOut_resetClipCount c
  have hends := (Moves.forM each mask.channels).ends_checked mask.requireNonempty hfaults
  simp only [Panel.foldl_channels] at hends
  exact hends

/-- The call goes through its entries in turn, and each replaces the records of the channels in its
mask. If an entry is refused, nothing was sent for any of them. -/
theorem ends_setClipper (entries : List Clipper) :
    Ends (Session.setClipper entries) s
      (fun _ t => t.chip.faults = [] ∧ t.chip.panel = entries.foldl (fun p k =>
        p.modify k.mask ({ · with clipper := k.encode.block 3 })) s.chip.panel)
      (fun _ t => t = s) := by
  have each (k : Clipper) : Moves (k.mask.channels.forM (Session.applyClipper k))
      fun p => p.modify k.mask ({ · with clipper := k.encode.block 3 }) := by
    have hmoves := Moves.forM (Moves.applyClipper k) k.mask.channels
    simp only [Panel.foldl_channels] at hmoves
    exact hmoves
  unfold Session.setClipper
  rw [ends_bind, ends_ofExcept]
  split
  · refine ((Moves.forM each entries).ends_checked _ hfaults).mono ?_ fun _ _ ht => ht.1
    exact fun _ _ ht => ht.2
  · rfl

/-- The call notes a promotion to the bank of its slot, if the slot is one of the two that are kept
for each channel. Any other slot is refused beforehand. -/
theorem ends_promote (c : Channel) (slot : ModelSlot) :
    Ends (Session.promote c slot) s
      (fun _ t => slot.isDual = true ∧ t.chip.faults = [] ∧
        t.chip.panel = modifyAt s.chip.panel c ({ · with promotion := #v[1, slot.raw] }))
      (fun _ t => t = s) := by
  have hstaged : Moves (do
      perform (.memoryWrite mailboxSet [slot.raw])
      execute (Command.promote c))
      fun p => modifyAt p c ({ · with promotion := #v[1, slot.raw] }) := by
    refine .staged fun chip m hmemory => ?_
    rw [Chip.panel_carryOut_promote, hmemory]
    simp only [Memory.writeRun, Memory.read_write, if_true]
  unfold Session.promote ModelSlot.requireDual
  rw [ends_bind, ends_ofExcept]
  cases hdual : slot.isDual with
  | true => exact (hstaged s hfaults).mono (fun _ _ ht => ⟨rfl, ht⟩) fun _ _ hf => hf.elim
  | false => exact rfl

end calls

end Predistortion
