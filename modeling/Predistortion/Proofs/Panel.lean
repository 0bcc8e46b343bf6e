import Predistortion.Proofs.Surface

/-!
# What the firmware keeps for the channels

The firmware keeps a `ChannelState` for each channel. All of it but the clock is its `Chip.panel`:
what is set by mailbox commands and read back by others. Five commands set something
(`Command.isSetter`); every other command and every other request leaves the panel alone, and so
does every call that gives none of the five (`obeys_silent_call`). This holds under all faults.
-/

namespace Predistortion

open SessionM

variable {α : Type}

/-! ## One value for each channel -/

/-- The values with the one of a channel replaced by a function of it. -/
def modifyAt (p : Channel → α) (c : Channel) (f : α → α) : Channel → α :=
  fun d => if d = c then f (p d) else p d

/-- To change the channels of a list in turn shows at these channels and nowhere else. By induction
over the channels, of which none is changed twice. -/
theorem foldl_modifyAt (f : α → α) {cs : List Channel} (hcs : cs.Nodup) (p : Channel → α)
    (d : Channel) :
    cs.foldl (fun p c => modifyAt p c f) p d = if d ∈ cs then f (p d) else p d := by
  induction cs generalizing p with
  | nil => rfl
  | cons c rest ih =>
    obtain ⟨hc, hrest⟩ := List.nodup_cons.1 hcs
    rw [List.foldl_cons, ih hrest, modifyAt]
    by_cases hd : d = c
    · subst hd
      simp [hc]
    · simp [hd]

namespace PerChannel

/-- To put back a function of what a channel has changes this channel and no other. -/
theorem get_set_modify (t : PerChannel α) (c : Channel) (f : α → α) :
    (t.set c (f (t.get c))).get = modifyAt t.get c f := by
  funext d
  unfold modifyAt
  split
  · next h =>
    subst h
    exact t.get_set_self d _
  · next h => exact t.get_set_of_ne h _

/-- To change the channels of a list in turn shows at these channels and nowhere else, if none
stands in the list twice. -/
theorem get_modifyAll (f : α → α) {cs : List Channel} (hcs : cs.Nodup) (t : PerChannel α)
    (d : Channel) : (t.modifyAll f cs).get d = if d ∈ cs then f (t.get d) else t.get d := by
  rw [← foldl_modifyAt f hcs, modifyAll]
  exact congrFun (List.foldl_hom get fun t c => (t.get_set_modify c f).symm).symm d

end PerChannel

namespace ChannelMask

/-- No channel stands twice among those of a mask, because their positions ascend. -/
theorem nodup_channels (m : ChannelMask) : m.channels.Nodup := by
  refine m.pairwise_channels.imp fun {c d} hlt heq => ?_
  rw [heq] at hlt
  exact Nat.lt_irrefl _ hlt

/-- A list goes through the channels of a mask by ascending position. -/
structure Ascends (m : ChannelMask) (cs : List Channel) : Prop where
  /-- It has the channels of the mask and no others. -/
  mem (c : Channel) : c ∈ cs ↔ m.contains c = true
  /-- An earlier one has a lower position. -/
  ascending : cs.Pairwise fun c d => c.index < d.index

/-- The order in which batch operations go through a mask is the ascending one. -/
theorem ascends_channels (m : ChannelMask) : m.Ascends m.channels :=
  ⟨fun _ => mem_channels, m.pairwise_channels⟩

variable {β : Type} (mask : β → ChannelMask)

/-- The last of some entries whose mask names a channel. -/
def lastFor (entries : List β) (c : Channel) : Option β :=
  entries.reverse.find? fun b => (mask b).contains c

/-- An entry counts for a channel that it names if no later one does. This is how the last entry is
found by an induction from the front. -/
theorem lastFor_cons (b : β) (rest : List β) (c : Channel) :
    lastFor mask (b :: rest) c =
      (lastFor mask rest c).or (if (mask b).contains c then some b else none) := by
  unfold lastFor
  rw [List.reverse_cons, List.find?_append, List.find?_singleton]

end ChannelMask

/-- A state for each channel. -/
abbrev Panel := Channel → ChannelState

/-- The panel with the states of all channels in a mask replaced by a function of them. -/
def Panel.modify (p : Panel) (mask : ChannelMask) (f : ChannelState → ChannelState) : Panel :=
  fun c => if mask.contains c then f (p c) else p c

/-- Masks that name the same channels change the same of them. Their other bits do not count here,
since the panel has no more than the four channels. -/
theorem Panel.modify_congr {p : Panel} {m m' : ChannelMask} {f f' : ChannelState → ChannelState}
    (hm : ∀ c, m.contains c = m'.contains c) (hf : ∀ state, f state = f' state) :
    p.modify m f = p.modify m' f' := by
  funext c
  unfold modify
  rw [hm, hf]

/-- A mask with one channel changes this channel alone. Commands that name one channel send such a
mask. -/
theorem Panel.modify_singleton (p : Panel) (c : Channel) (f : ChannelState → ChannelState) :
    p.modify (.singleton c) f = modifyAt p c f := by
  have hsingle (d : Channel) : (ChannelMask.singleton c).contains d ↔ d = c := by
    rw [← ChannelMask.mem_channels, ChannelMask.channels_singleton, List.mem_singleton]
  funext d
  unfold modify modifyAt
  simp only [hsingle]

/-- To change the channels of a mask in turn is to change them at once, because none comes twice. So
a loop of commands has the effect of one command with the mask. -/
theorem Panel.foldl_channels (p : Panel) (mask : ChannelMask) (f : ChannelState → ChannelState) :
    mask.channels.foldl (fun p c => modifyAt p c f) p = p.modify mask f := by
  funext c
  rw [foldl_modifyAt f mask.nodup_channels]
  simp only [ChannelMask.mem_channels]
  rfl

namespace Chip

variable (chip : Chip)

/-- The chip changes the channels that the lower bits of a byte name, and leaves the others as they
are. -/
theorem channel_modifyChannels (mask : UInt8) (f : ChannelState → ChannelState) (d : Channel) :
    (chip.modifyChannels mask f).channel d =
      if ChannelMask.contains ⟨mask⟩ d then f (chip.channel d) else chip.channel d := by
  have hget := chip.channels.get_modifyAll f (ChannelMask.nodup_channels ⟨mask⟩) d
  simp only [ChannelMask.mem_channels] at hget
  exact hget

/-! ## The panel -/

/-- What the firmware keeps for the channels, but for their clocks. -/
def panel : Panel := fun c => { chip.channel c with clock := false }

/-- The panel is a view of the channels, so it is kept by whatever keeps them. -/
theorem panel_of_channels {later : Chip} (h : later.channels = chip.channels) :
    later.panel = chip.panel := by
  unfold panel channel
  rw [h]

section modify

variable {f : ChannelState → ChannelState}
  (hf : ∀ state, { f state with clock := false } = f { state with clock := false })

include hf

/-- A change to one channel that has nothing to do with its clock is the same change to the panel,
in which the clock is left out. -/
theorem panel_modifyChannel (c : Channel) :
    (chip.modifyChannel c f).panel = modifyAt chip.panel c f := by
  have hget : (chip.modifyChannel c f).channel = modifyAt chip.channel c f :=
    chip.channels.get_set_modify c f
  funext d
  unfold panel
  rw [hget]
  unfold modifyAt
  split
  · exact hf _
  · rfl

/-- A change to the channels of a mask that has nothing to do with their clocks is the same change
to the panel. -/
theorem panel_modifyChannels (mask : ChannelMask) :
    (chip.modifyChannels mask.bits f).panel = chip.panel.modify mask f := by
  funext d
  unfold panel Panel.modify
  rw [channel_modifyChannels]
  split
  · exact hf _
  · rfl

end modify

/-- A stream only gates clocks, and these are left out of the panel. -/
theorem panel_runStream (stream : UInt8) : (chip.runStream stream).panel = chip.panel := by
  have gated (mask : UInt8) (on : Bool) :
      (chip.modifyChannels mask ({ · with clock := on })).panel = chip.panel := by
    funext c
    unfold panel
    rw [channel_modifyChannels]
    split <;> rfl
  unfold runStream
  dsimp only
  repeat' split
  all_goals first | exact gated _ _ | rfl

/-- A request that is no command leaves the panel alone. What is kept for channels is reached by the
mailbox only. -/
theorem panel_served {r : Request} (hcommand : r.kind ≠ .command) :
    (chip.served r).panel = chip.panel := by
  rw [served_eq]
  show (chip.serve r).2.panel = chip.panel
  cases r with
  | command opcode payload => exact absurd rfl hcommand
  | streamStart stream => exact chip.panel_runStream stream
  | acquire pin feature => simp only [serve]; split <;> rfl
  | release pin feature => simp only [serve]; split <;> rfl
  | signalSet signal pin => cases signal <;> rfl
  | _ => rfl

end Chip

/-! ## Commands -/

/-- The sub-commands by which a tracking command sets something. -/
def Tracking.setters : List UInt8 := [clipperSet, clipCountReset, promote]

/-- The command sets something that the firmware keeps for channels. -/
def Command.isSetter (k : Command) : Bool :=
  k.opcode == Opcode.set &&
    (k.object == Object.actuatorEnable || k.object == Object.modelSelect ||
      (k.object == Object.trackingControl && Tracking.setters.contains (k.payload.byteAt 3)))

namespace Chip

variable (chip : Chip)

/-- The chip when it begins to carry out a command. -/
def addressed (k : Command) : Chip := { chip with lastObject := k.object, lastStatus := 0 }

/-- The chip after a command that is carried out. -/
def carryOut (k : Command) : Chip := (chip.addressed k).execute k.opcode k.payload

/-- A command is carried out if no fault forces its status. -/
theorem takeCommand_eq_carryOut {k : Command} (h : chip.forced k.object = none) :
    chip.takeCommand k.opcode k.payload = chip.carryOut k :=
  chip.takeCommand_of_not_forced k.payload k.opcode h

/-- To write to the memory leaves what is kept for the channels. -/
theorem channels_writeMemory (address : UInt32) (data : Bytes) :
    (chip.writeMemory address data).channels = chip.channels := rfl

/-- A question leaves what is kept for the channels. Its answer goes to the memory. -/
theorem channels_executeGet (object : UInt8) (payload : Bytes) :
    (chip.executeGet object payload).channels = chip.channels := by
  unfold executeGet
  repeat' split
  all_goals rfl

/-- A tracking command leaves what is kept for the channels, unless it is one of the three that set
something. -/
theorem channels_track (channels : UInt8) {sub : UInt8}
    (h : Tracking.setters.contains sub = false) :
    (chip.track channels sub).channels = chip.channels := by
  have hne : sub ≠ Tracking.clipperSet ∧ sub ≠ Tracking.clipCountReset ∧
      sub ≠ Tracking.promote := by
    simpa [Tracking.setters] using h
  unfold track
  rw [if_neg hne.1, if_neg hne.2.1, if_neg hne.2.2]
  repeat' split
  all_goals simp only [channels_writeMemory]

/-- A command that sets nothing leaves what the firmware keeps for the channels. The cases are those
of the firmware: the object of the command, and for a tracking command its kind. -/
theorem channels_carryOut {k : Command} (h : k.isSetter = false) :
    (chip.carryOut k).channels = chip.channels := by
  unfold carryOut execute
  dsimp only
  split
  · next hset =>
    have hquiet : (k.object ≠ Object.actuatorEnable ∧ k.object ≠ Object.modelSelect) ∧
        (k.object = Object.trackingControl →
          Tracking.setters.contains (k.payload.byteAt 3) = false) := by
      simpa [Command.isSetter, hset] using h
    unfold Command.object at hquiet
    unfold executeSet
    dsimp only
    split
    · rfl
    · split
      · split <;> rfl
      · rw [if_neg hquiet.1.1, if_neg hquiet.1.2]
        split
        · next htracking => exact channels_track _ _ (hquiet.2 htracking)
        · rfl
  · split
    · exact channels_executeGet ..
    · rfl

/-- A command that sets nothing leaves the panel alone, whether it is carried out or a fault forces
its status. -/
theorem panel_served_command {k : Command} (h : k.isSetter = false) :
    (chip.served (.command k.opcode k.payload)).panel = chip.panel := by
  rw [served_eq]
  show (chip.takeCommand k.opcode k.payload).panel = chip.panel
  cases hforced : chip.forced k.object with
  | none =>
    rw [chip.takeCommand_eq_carryOut hforced]
    exact chip.panel_of_channels (chip.channels_carryOut h)
  | some status =>
    rw [chip.takeCommand_of_forced k.payload k.opcode hforced]
    rfl

end Chip

/-! ## Calls -/

/-- The contract to leave the faults and the panel alone. -/
def silent : Contract Session := .keeping fun s => (s.chip.faults, s.chip.panel)

/-- The contract does not look at the phase of the session, so it is kept where failures are watched
for. -/
theorem silent_tolerant : silent.Tolerant := fun _ _ _ h => h

/-- A request obeys the contract if serving it leaves the panel alone on every chip. A refusal does
so anyway. -/
theorem obeys_silent_perform {r : Request}
    (hpanel : ∀ chip : Chip, (chip.served r).panel = chip.panel) : Obeys silent (perform r) :=
  .request (fun s => Prod.ext (Chip.faults_served ..) (hpanel s.chip)) fun _ _ _ => rfl

/-- All requests that are not commands obey the contract. -/
theorem obeys_silent_request {r : Request} (hcommand : r.kind ≠ .command) :
    Obeys silent (perform r) := obeys_silent_perform fun chip => chip.panel_served hcommand

/-- The contract holds for everything that a session does besides its commands, so that only these
are left to look at. -/
theorem silent_hosts : silent.Hosts := by
  refine .of_requests (fun r => obeys_silent_request) (fun s _ => rfl) fun s t hchip _ _ => ?_
  show (t.chip.faults, t.chip.panel) = _
  rw [hchip]

/-- A command that sets nothing obeys the contract, with the wait that follows it. -/
theorem obeys_silent_execute {k : Command} (h : k.isSetter = false) : Obeys silent (execute k) := by
  refine .command (obeys_silent_perform fun chip => chip.panel_served_command h)
    (fun _ _ => obeys_silent_request fun hkind => nomatch hkind) fun _ _ _ => rfl

/-- The call gives one of the commands that set something. -/
def SessionCall.isSetting : SessionCall → Bool
  | .guarded (.setActuatorEnable ..) | .guarded (.selectModel ..) | .guarded (.setClipper _)
  | .guarded (.resetClipCount _) | .guarded (.promote ..) => true
  | _ => false

/-- A call that is not one of the five gives no command that sets something. It is read off the list
of the commands that each call gives. -/
theorem SessionCall.isSetter_eq_false {k : SessionCall} (h : k.isSetting = false) :
    ∀ command ∈ k.commands, command.isSetter = false := by
  cases k with
  | capture o =>
    cases o with
    | pollDone => exact List.forall_mem_cons.2 ⟨rfl, List.forall_mem_singleton.2 rfl⟩
    | trigger | clearDone | readDone | data | status => exact List.forall_mem_singleton.2 rfl
    | _ => exact List.forall_mem_nil _
  | guarded k =>
    cases k with
    | setActuatorEnable | selectModel | setClipper | resetClipCount | promote => cases h
    | _ => exact List.forall_mem_nil _
  | clearTables | promotionStatus | actuatorEnable | selectedModel | clipper | clipCount =>
    exact List.forall_mem_singleton.2 rfl
  | _ => exact List.forall_mem_nil _

/-- All other calls leave the panel alone, however they end. They give no command that sets
something. -/
theorem obeys_silent_call {k : SessionCall} (h : k.isSetting = false) : Obeys silent k.run := by
  have switch (on : Bool) : Obeys silent (Session.setSwapMode on) :=
    .bind (obeys_silent_request fun hkind => nomatch hkind) fun _ _ => rfl
  exact .call silent_hosts silent_tolerant switch k fun command hcommand =>
    obeys_silent_execute (SessionCall.isSetter_eq_false h command hcommand)

end Predistortion
