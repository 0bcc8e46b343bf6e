import Predistortion.Proofs.BufferRelease
import Predistortion.Proofs.LastSetting
import Predistortion.Proofs.SwapSet

/-!
# Traffic of the hard clipper

A list of clipper entries is set channel by channel: the record is put into the scratch area of the
mailbox, and a command applies to one channel what is found there (`Clipper.traffic`). Each of the
two can fail, also after the firmware has carried it out.

`Transacts m l` says that a computation makes the transactions `l` in this order and no other ones,
up to a failure, which takes a fault. It is derived along the text of the program. What a failure
leaves on the panel follows from the order: a command is given only after the record of the same
channel was put into the scratch area, so what it applies is this record, and a command that is
refused or answered without being carried out applies nothing (`obeys_clips_applyClipper`).

Main statement: all of this for one call, with any entries that are accepted and any faults, and the
records of all channels where there are no faults (`Session.clippersSet`, with
`Session.ClippersSet`). Nothing is claimed of the clocks of the channels, which are not on the
panel.
-/

namespace Predistortion

open SessionM

variable {α γ : Type}

/-! ## The journal -/

namespace Chip

variable (chip : Chip)

/-- What the firmware does on a command makes no transaction of its own, whether a fault answers for
it or not. -/
theorem journal_takeCommand (opcode : UInt8) (payload : Bytes) :
    (chip.takeCommand opcode payload).journal = chip.journal := by
  cases h : chip.forced (payload.byteAt 0) with
  | some status => rw [takeCommand_of_forced _ _ _ h]
  | none =>
    rw [takeCommand_of_not_forced _ _ _ h]
    exact view_execute (f := Chip.journal) _ _ (fun _ => rfl) (fun _ _ _ => rfl) opcode

/-- To serve a request changes nothing in the journal. What enters it is decided outside, by the
kind of the request. -/
theorem journal_serve (r : Request) : (chip.serve r).2.journal = chip.journal := by
  cases r with
  | command opcode payload => exact chip.journal_takeCommand opcode payload
  | streamStart stream =>
    have hcore : (chip.runStream stream).core.journal = chip.core.journal := by rw [core_runStream]
    exact hcore
  | acquire pin feature => simp only [serve]; split <;> rfl
  | release pin feature => simp only [serve]; split <;> rfl
  | signalSet signal pin => cases signal <;> rfl
  | _ => rfl

/-- A request that is served enters the journal if it is a transaction, and nothing else does. -/
theorem journal_served (r : Request) :
    (chip.served r).journal = if r.isTransaction then r :: chip.journal else chip.journal := by
  have hserve := chip.journal_serve r
  unfold served recordCall recordJournal
  split
  · exact congrArg (r :: ·) hserve
  · exact hserve

end Chip

/-- What a command can come to, on a view that shows neither refusals nor waits: if it is refused
then nothing has happened, and otherwise it was served, whatever became of the wait. -/
theorem ends_execute_view {f : Chip → γ} (k : Command)
    (hrefused : ∀ (chip : Chip) r e, f (chip.refused r e) = f chip)
    (hwait : ∀ (chip : Chip) opcode t i, f (chip.served (.statusWait opcode t i)) = f chip)
    (s : Session) :
    Ends (execute k) s (fun _ t => f t.chip = f (s.chip.served k.request))
      (fun _ t => f t.chip = f s.chip ∨ f t.chip = f (s.chip.served k.request)) := by
  unfold execute perform
  rw [ends_bind, ends_get, ends_bind, ends_onChip]
  refine Chip.ends_perform_of ?_ fun e _ => .inl (hrefused ..)
  rw [ends_bind, ends_onChip]
  refine Chip.ends_perform_of ?_ fun e _ => .inr (hrefused ..)
  rw [ends_ite]
  exact ⟨fun _ => .inr (hwait ..), fun _ => hwait ..⟩

/-! ## Transactions of a computation -/

/-- The computation makes these transactions, one after the other, and no other ones. Where it fails
it has made a first part of them, and there is a fault. -/
def Transacts (m : SessionM Unit) (l : List Request) : Prop :=
  ∀ s : Session, Ends m s
    (fun _ t => t.chip.faults = s.chip.faults ∧ t.chip.journal = l.reverse ++ s.chip.journal)
    (fun _ t => s.chip.faults ≠ [] ∧
      ∃ sent, sent <+: l ∧ t.chip.journal = sent.reverse ++ s.chip.journal)

namespace Transacts

/-- To answer makes no transaction. -/
theorem pure : Transacts (pure ()) [] := fun _ => ⟨rfl, rfl⟩

/-- Of two computations in turn the transactions come one after the other. Where the second one
fails, all of the first and a first part of the second have been made, which is again a first part
of the whole. -/
theorem bind {m n : SessionM Unit} {l l' : List Request} (hm : Transacts m l)
    (hn : Transacts n l') : Transacts (m >>= fun _ => n) (l ++ l') := by
  have join (journal sent : List Request) :
      sent.reverse ++ (l.reverse ++ journal) = (l ++ sent).reverse ++ journal := by
    rw [List.reverse_append, List.append_assoc]
  intro s
  rw [ends_bind]
  refine (hm s).mono ?first ?stopped
  case first =>
    rintro _ t ⟨hfaults, hjournal⟩
    refine (hn t).mono ?_ ?_
    · rintro _ u ⟨hfaults', hjournal'⟩
      exact ⟨hfaults'.trans hfaults, by rw [hjournal', hjournal, join]⟩
    · rintro _ u ⟨hne, sent, hprefix, hjournal'⟩
      refine ⟨hfaults ▸ hne, l ++ sent, (List.prefix_append_right_inj l).2 hprefix, ?_⟩
      rw [hjournal', hjournal, join]
  case stopped =>
    rintro _ t ⟨hne, sent, hprefix, hjournal⟩
    exact ⟨hne, sent, hprefix.trans (List.prefix_append ..), hjournal⟩

/-- A run over a list makes the transactions of its steps, one after the other. If it is stopped, it
has made the first of them. -/
theorem forM {f : α → SessionM Unit} {each : α → List Request}
    (h : ∀ a, Transacts (f a) (each a)) (l : List α) : Transacts (l.forM f) (l.flatMap each) := by
  induction l with
  | nil => exact pure
  | cons a rest ih =>
    rw [List.flatMap_cons]
    exact (h a).bind ih

/-- A write to the memory is one transaction. If it is refused then it is none. -/
theorem memoryWrite (address : UInt32) (data : Bytes) :
    Transacts (perform (.memoryWrite address data)) [.memoryWrite address data] := by
  intro s
  unfold perform
  rw [ends_onChip]
  refine Chip.ends_perform_of ⟨Chip.faults_served .., Chip.journal_served ..⟩ fun e hfaults => ?_
  exact ⟨hfaults, [], List.nil_prefix, rfl⟩

/-- A command is one transaction, and the wait for it is none. So a wait that fails leaves the
command among the transactions. -/
theorem execute (k : Command) : Transacts (execute k) [k.request] := by
  intro s
  have hsent : (s.chip.served k.request).journal = k.request :: s.chip.journal :=
    Chip.journal_served ..
  have hview := ends_execute_view (f := Chip.journal) k (fun _ _ _ => rfl)
    (fun _ _ _ _ => Chip.journal_served ..) s
  rw [hsent] at hview
  refine ((obeys_healthily_execute k s).and ((ends_execute k s).and hview)).mono ?_ ?_
  · rintro _ t ⟨⟨-, hfaults⟩, -, hjournal⟩
    exact ⟨hfaults, hjournal⟩
  · rintro _ t ⟨-, ⟨-, hne⟩, hjournal | hjournal⟩
    · exact ⟨hne, [], List.nil_prefix, hjournal⟩
    · exact ⟨hne, [k.request], List.prefix_rfl, hjournal⟩

end Transacts

/-! ## Entries -/

namespace Clipper

/-- What an entry asks for at one of its channels: its record, enabled or not and with the lower
byte of the threshold first, is put into the scratch area, and then applied to this channel
alone. -/
def sequence (k : Clipper) (c : Channel) : List Request := [
  .memoryWrite mailboxSet
    [if k.enable then 1 else 0, k.threshold.toQ15.toUInt8, (k.threshold.toQ15 >>> 8).toUInt8],
  .command Opcode.set
    [Object.trackingControl, Object.predistortion, c.bit, Tracking.clipperSet]]

/-- The record is what the sequence puts down: the flag, and the code of the threshold with its
lower byte first. -/
theorem encode_eq (k : Clipper) : k.encode =
    [if k.enable then 1 else 0, k.threshold.toQ15.toUInt8, (k.threshold.toQ15 >>> 8).toUInt8] := by
  have hupper (v : UInt16) : UInt8.ofNat (v.toNat / 256) = (v >>> 8).toUInt8 := by
    apply UInt8.toNat_inj.1
    rw [UInt8.toNat_ofNat', UInt16.toNat_toUInt8, UInt16.toNat_shiftRight,
      Nat.shiftRight_eq_div_pow]
    rfl
  show [_, UInt8.ofNat k.threshold.toQ15.toNat, UInt8.ofNat (k.threshold.toQ15.toNat / 256)] = _
  rw [hupper]
  rfl

/-- What a list of entries asks for: by entry, and for each entry by ascending channel. -/
def traffic (entries : List Clipper) : List Request :=
  entries.flatMap fun k => k.mask.channels.flatMap k.sequence

/-- Entries that are few enough and in range pass the check of a call. Their masks are not looked
at. -/
theorem checkAll_eq_ok {entries : List Clipper} (hcount : entries.length ≤ maxEntries)
    (hentries : ∀ k ∈ entries, k.check = .ok ()) : checkAll entries = .ok () := by
  unfold checkAll
  rw [if_neg (Nat.not_lt.2 hcount)]
  exact forM_eq_ok.2 hentries

end Clipper

open Clipper (traffic)
open ChannelMask (lastFor)

/-- To set the clipper of one channel takes two transactions: its record is put down, and the
command is given. -/
theorem transacts_applyClipper (k : Clipper) (c : Channel) :
    Transacts (Session.applyClipper k c) (k.sequence c) := by
  unfold Clipper.sequence
  rw [← k.encode_eq]
  exact (Transacts.memoryWrite mailboxSet k.encode).bind (Transacts.execute (Command.setClipper c))

/-! ## What a failure leaves -/

/-- The contract to leave each channel as it is, or to give it the record of an entry that names
it. -/
def clips (entries : List Clipper) : Contract Session :=
  .ofRelation
    (fun s t => ∀ c, t.chip.panel c = s.chip.panel c ∨ ∃ k ∈ entries, k.mask.contains c = true ∧
      t.chip.panel c = { s.chip.panel c with clipper := k.encode.block 3 })
    (fun _ _ => .inl rfl)
    (by
      intro s t u hst htu c
      rcases htu c with hsame | ⟨k, hk, hc, hclipped⟩
      · rw [hsame]
        exact hst c
      · -- what the channel had in between does not show under the later record
        refine .inr ⟨k, hk, hc, ?_⟩
        rcases hst c with hsame | ⟨k', -, -, hbefore⟩
        · rw [hclipped, hsame]
        · rw [hclipped, hbefore])

/-- A command to set a clipper applies what is in the scratch area to its channel, or it is answered
without being carried out. -/
theorem Chip.panel_served_setClipper (chip : Chip) (c : Channel) :
    (chip.served (Command.setClipper c).request).panel = chip.panel ∨
      (chip.served (Command.setClipper c).request).panel =
        modifyAt chip.panel c ({ · with clipper := chip.memory.readBlock mailboxSet 3 }) := by
  rw [served_eq]
  let k := Command.setClipper c
  show (chip.takeCommand k.opcode k.payload).panel = _ ∨
    (chip.takeCommand k.opcode k.payload).panel = _
  cases hforced : chip.forced k.object with
  | some status =>
    rw [chip.takeCommand_of_forced k.payload k.opcode hforced]
    exact .inl rfl
  | none =>
    rw [chip.takeCommand_eq_carryOut hforced]
    exact .inr (chip.panel_carryOut_setClipper c)

/-- A channel is given the record that was put down for it, and no other channel is given any. A
fault between the two transactions may keep the channel from it, but it leads to no other record. -/
theorem obeys_clips_applyClipper {entries : List Clipper} {k : Clipper} (hk : k ∈ entries)
    {c : Channel} (hc : c ∈ k.mask.channels) :
    Obeys (clips entries) (Session.applyClipper k c) := by
  intro s
  let ready := s.chip.served (.memoryWrite mailboxSet k.encode)
  have hmemory : ready.memory = s.chip.memory.writeRun mailboxSet k.encode := by
    show Chip.memory (s.chip.served _) = _
    rw [Chip.served_eq]
    rfl
  have hpanel : ready.panel = s.chip.panel := s.chip.panel_served (by rintro ⟨⟩)
  have hrecord : ready.memory.readBlock mailboxSet 3 = k.encode.block 3 := by
    rw [hmemory]
    exact Memory.readBlock_writeRun _ _ k.length_encode (by decide)
  have clipped {t : Session}
      (ht : t.chip.panel = ready.panel ∨
        t.chip.panel = (ready.served (Command.setClipper c).request).panel) :
      (clips entries).done s t := by
    have hpanels : t.chip.panel = s.chip.panel ∨
        t.chip.panel = modifyAt s.chip.panel c ({ · with clipper := k.encode.block 3 }) := by
      rw [← hrecord, ← hpanel]
      rcases ht with hsame | hserved
      · exact .inl hsame
      · rw [hserved]
        exact ready.panel_served_setClipper c
    intro d
    rcases hpanels with hsame | hmoved
    · exact .inl (congrFun hsame d)
    · rw [hmoved, modifyAt]
      split
      · next hd => exact .inr ⟨k, hk, ChannelMask.mem_channels.1 (hd ▸ hc), rfl⟩
      · exact .inl rfl
  unfold Session.applyClipper
  rw [ends_bind]
  unfold perform
  rw [ends_onChip]
  refine Chip.ends_perform_of ?served fun e _ d => .inl rfl
  case served =>
    refine (ends_execute_view (f := Chip.panel) (Command.setClipper c) (fun _ _ _ => rfl)
      (fun chip _ _ _ => chip.panel_served (by rintro ⟨⟩)) _).mono ?_ ?_
    · exact fun _ t ht => clipped (.inr ht)
    · exact fun _ t ht => clipped ht

/-! ## A call -/

namespace Session

variable {s : Session} {entries : List Clipper}

/-- What a call to set the clippers of some entries comes to. -/
structure ClippersSet (s : Session) (entries : List Clipper) : Prop where
  /-- The transactions are a first part of what the entries ask for, and all of it after a success.
  Those of an entry come by ascending channel. -/
  sent : (∀ k ∈ entries, k.mask.Ascends k.mask.channels) ∧
    ∃ sent, sent <+: traffic entries ∧
      (s.after (setClipper entries)).chip.journal = sent.reverse ++ s.chip.journal ∧
      (s.answer (setClipper entries) = .ok () → sent = traffic entries)
  /-- However the call ends, a channel has been left alone or given the record of an entry that
  names it. -/
  applied (c : Channel) :
    (s.after (setClipper entries)).chip.panel c = s.chip.panel c ∨
      ∃ k ∈ entries, k.mask.contains c = true ∧
        (s.after (setClipper entries)).chip.panel c =
          { s.chip.panel c with clipper := k.encode.block 3 }
  /-- Without faults the call succeeds, and a channel has the record of the last entry that names
  it, or the one that it had. -/
  set (hfaults : s.chip.faults = []) :
    s.answer (setClipper entries) = .ok () ∧
      ∀ c, ((s.after (setClipper entries)).chip.channel c).clipper =
        (lastFor Clipper.mask entries c).elim (s.chip.channel c).clipper (·.encode.block 3)

section accepted

variable (hne : entries ≠ [])
  (haccepted : s.rangeCheck = true →
    entries.length ≤ Clipper.maxEntries ∧ ∀ k ∈ entries, k.check = .ok ())

include hne haccepted

/-- Of a call that is accepted only the applications remain, since its two checks make no request.
Stated for any outcome, so that each part of the result can use it. -/
theorem ends_setClipper_of_accepted {done : Unit → Session → Prop}
    {failed : Error → Session → Prop}
    (h : Ends (entries.forM fun k => k.mask.channels.forM (applyClipper k)) s done failed) :
    Ends (setClipper entries) s done failed := by
  have hentries : requireEntries "hardClipperConfigs" entries = .ok () := by
    unfold requireEntries
    rw [if_neg (by simpa using hne)]
  unfold setClipper
  rw [ends_bind, hentries, ends_ofExcept]
  dsimp only
  rw [ends_bind, ends_checked]
  split
  · next hon =>
    rw [Clipper.checkAll_eq_ok (haccepted hon).1 (haccepted hon).2]
    exact h
  · exact h

/-- A list of clippers is set by its traffic, which a fault may stop at any point; each record is
applied where it belongs, and without faults the last one for a channel stays. -/
theorem clippersSet : s.ClippersSet entries := by
  have htraffic : Transacts (entries.forM fun k => k.mask.channels.forM (applyClipper k))
      (traffic entries) :=
    .forM (fun k => .forM (transacts_applyClipper k) k.mask.channels) entries
  have hends := ends_setClipper_of_accepted hne haccepted (htraffic s)
  refine ⟨?sent, ?applied, fun hfaults => ?set⟩
  case sent =>
    refine ⟨fun k _ => k.mask.ascends_channels, ?_⟩
    unfold Session.after answer
    cases hrun : setClipper entries s with
    | ok _ t => exact ⟨_, List.prefix_rfl, (hends.of_ok hrun).2, fun _ => rfl⟩
    | error e t =>
      obtain ⟨-, sent, hprefix, hjournal⟩ := hends.of_error hrun
      exact ⟨sent, hprefix, hjournal, fun hok => nomatch hok⟩
  case applied =>
    have hclips : Obeys (clips entries)
        (entries.forM fun k => k.mask.channels.forM (applyClipper k)) :=
      .forM fun k hk => .forM fun c hc => obeys_clips_applyClipper hk hc
    exact Session.after_of_ends (ends_setClipper_of_accepted hne haccepted (hclips s))
  case set =>
    have hset : Ends (setClipper entries) s
        (fun _ t => t.chip.panel = entries.foldl (fun p k =>
          p.modify k.mask ({ · with clipper := k.encode.block 3 })) s.chip.panel)
        (fun _ _ => False) :=
      (hends.and (ends_setClipper hfaults entries)).mono (fun _ _ ht => ht.2.2)
        fun _ _ ht => ht.1.1 hfaults
    obtain ⟨_, t, hrun, hpanel⟩ := hset.exists_ok
    unfold Session.after answer
    rw [hrun]
    refine ⟨rfl, fun c => ?_⟩
    have hlast := congrFun hpanel c
    rw [Panel.foldl_modify Clipper.mask
      (fun k state => { state with clipper := k.encode.block 3 }) fun _ _ _ => rfl] at hlast
    refine (congrArg ChannelState.clipper hlast).trans ?_
    cases lastFor Clipper.mask entries c <;> rfl

end accepted

/-- Two entries that both name the second channel, at half and at a quarter of full scale; the
second of them is not enabled. -/
def overlappingClippers : List Clipper := [
  ⟨⟨0x03⟩, true, ⟨0x3F000000⟩⟩,
  ⟨⟨0x0A⟩, false, ⟨0x3E800000⟩⟩]

/-- The first, second and fourth channels are set, the second one twice, and the third keeps its
record. The later of the two entries for the second channel is the one that counts. -/
theorem clippersSet_overlapping :
    let s := Session.start Chip.initial default
    let u := s.after (setClipper overlappingClippers)
    s.ClippersSet overlappingClippers ∧
      (u.chip.channel .tx1).clipper = #v[1, 0x00, 0x40] ∧
      (u.chip.channel .tx2).clipper = #v[0, 0x00, 0x20] ∧
      (u.chip.channel .tx3).clipper = (s.chip.channel .tx3).clipper := by
  intro s u
  have hne : overlappingClippers ≠ [] := by simp [overlappingClippers]
  have haccepted : overlappingClippers.length ≤ Clipper.maxEntries ∧
      ∀ k ∈ overlappingClippers, k.check = .ok () := by
    refine ⟨by decide, ?_⟩
    simp only [overlappingClippers, List.forall_mem_cons]
    exact ⟨rfl, rfl, by simp⟩
  have hset : s.ClippersSet overlappingClippers := clippersSet hne fun _ => haccepted
  obtain ⟨-, hrecords⟩ := hset.set rfl
  exact ⟨hset, (hrecords .tx1).trans (by decide), (hrecords .tx2).trans (by decide), hrecords .tx3⟩

end Session

end Predistortion
