import Predistortion.Proofs.BufferRelease
import Predistortion.Proofs.RoundTrip
import Predistortion.Proofs.SwapSet
import Predistortion.Session.Monitors

/-!
# Records of the gain monitor

A list of entries asks for one record after the other: by entry, and for each entry by ascending
channel (`GainMonitor.records`). A request may fail between any two of them, so what is written is a
first part of this sequence (`ends_forM_write`), and what the object then holds is a fold over this
part.

A record is read back as it was written, up to the mask (`GainMonitor.decode_encode`), and the
records of two channels do not overlap (`GainMonitor.apart`). So the record of a channel is, in the
end, that of the last entry that names it, or what it was (`GainMonitor.recordAt_records`).

Main statement: all of this for one call, with any entries, any faults and any content of the object
before (`Session.gainsSet`, with `Session.GainsSet`). It also says that nothing is written if an
entry is refused.
-/

namespace Predistortion

open SessionM
open ChannelMask (lastFor)

/-! ## Records -/

namespace GainMonitor

/-- Every record has the length that records are apart by. -/
@[simp] theorem length_encode (g : GainMonitor) (c : Channel) :
    (g.encode c).length = recordLength := by
  simp [encode, recordLength]

/-- A record is read back as one of its channel alone, because its mask is not written. All else of
it is kept. -/
theorem decode_encode (g : GainMonitor) (c : Channel) :
    decode c (g.encode c) = .ok { g with mask := .singleton c } := by
  have hlength : ¬(g.encode c).length < recordLength := by simp
  have hlower : ModelSlot.ofRaw ((g.encode c).byteAt 9) = .ok g.lowerModel :=
    ModelSlot.ofRaw_raw g.lowerModel
  have hupper : ModelSlot.ofRaw ((g.encode c).byteAt 10) = .ok g.upperModel :=
    ModelSlot.ofRaw_raw g.upperModel
  have hqualify : LittleEndian.uint16At (g.encode c) 0 = g.qualify :=
    Capture.uint16At_of_window (Bytes.window_append [] (LittleEndian.ofUInt16 g.qualify) _)
  have henable : ((g.encode c).byteAt 8 &&& 0x01 != 0) = g.enable := by
    show ((if g.enable then 1 else 0 : UInt8) &&& 0x01 != 0) = g.enable
    cases g.enable <;> rfl
  unfold decode
  rw [if_neg hlength, hlower, hupper, hqualify, henable]
  rfl

/-- The offsets of the channels are multiples of that length, and are not cut to 16 bits. -/
theorem toNat_offset (c : Channel) : (offset c).toNat = c.index * recordLength := by
  cases c <;> rfl

/-- The records of two channels do not overlap, so that a write for one of them leaves those of the
others. -/
theorem apart {c d : Channel} (h : c ≠ d) :
    (offset c).toNat + recordLength ≤ (offset d).toNat ∨
      (offset d).toNat + recordLength ≤ (offset c).toNat := by
  have hindex : c.index ≠ d.index := fun heq => h (Channel.index_inj heq)
  rw [toNat_offset, toNat_offset]
  unfold recordLength
  omega

/-- The records that a list of entries asks for, each with its channel. -/
def records (entries : List GainMonitor) : List (GainMonitor × Channel) :=
  entries.flatMap fun g => g.mask.channels.map fun c => (g, c)

/-- The request that writes a record. -/
def request (p : GainMonitor × Channel) : Request :=
  .objectWrite Object.gainMonitor (offset p.2) (p.1.encode p.2)

/-- The content of the object with a record put into it. -/
def put (content : Bytes) (p : GainMonitor × Channel) : Bytes :=
  content.overwrite (offset p.2).toNat (p.1.encode p.2)

/-- The record of a channel. -/
def recordAt (content : Bytes) (c : Channel) : Bytes := content.window (offset c).toNat recordLength

/-- A record that is put into the object shows at its own channel, and those of the others stay,
because records of different channels do not overlap. -/
theorem recordAt_put (content : Bytes) (g : GainMonitor) (c d : Channel) :
    recordAt (put content (g, d)) c = if c = d then g.encode c else recordAt content c := by
  unfold recordAt put
  split
  · next h =>
    subst h
    rw [← g.length_encode c, Bytes.window_overwrite_self]
  · next h =>
    apply Bytes.window_overwrite_of_disjoint
    rw [length_encode]
    exact apart h

/-- An entry puts its record into each of its channels. By induction over the channels, each of
which has its own place. -/
theorem recordAt_foldl_put (content : Bytes) (g : GainMonitor) (cs : List Channel) (c : Channel) :
    recordAt (cs.foldl (fun content d => put content (g, d)) content) c =
      if c ∈ cs then g.encode c else recordAt content c := by
  induction cs generalizing content with
  | nil => rfl
  | cons d rest ih =>
    rw [List.foldl_cons, ih, recordAt_put]
    by_cases hrest : c ∈ rest
    · simp [hrest]
    · simp [hrest]

/-- Of all entries the last one that names a channel is kept. By induction over the entries, where a
later one counts before an earlier one. -/
theorem recordAt_records (content : Bytes) (entries : List GainMonitor) (c : Channel) :
    recordAt ((records entries).foldl put content) c =
      (lastFor mask entries c).elim (recordAt content c) (·.encode c) := by
  unfold records
  rw [List.foldl_flatMap]
  simp only [List.foldl_map]
  induction entries generalizing content with
  | nil => rfl
  | cons g rest ih =>
    rw [List.foldl_cons, ih, recordAt_foldl_put, ChannelMask.lastFor_cons]
    cases lastFor mask rest c with
    | some g' => rfl
    | none =>
      simp only [ChannelMask.mem_channels, Option.none_or, Option.elim_none]
      split <;> rfl

end GainMonitor

open GainMonitor

/-! ## Writing -/

/-- In `u`, some records have been written, one after the other, and no other transaction was
made. -/
structure Session.GainsWritten (s : Session) (written : List (GainMonitor × Channel))
    (u : Session) : Prop where
  /-- The transactions, newest first. -/
  journal : u.chip.journal = (written.map request).reverse ++ s.chip.journal
  /-- The object. -/
  object : u.chip.object Object.gainMonitor = written.foldl put (s.chip.object Object.gainMonitor)

/-- To go through entries, and for each of them through the channels of its mask, is to go through
the pairs. -/
theorem forM_forM_channels {α : Type} (mask : α → ChannelMask) (f : α × Channel → SessionM Unit)
    (entries : List α) :
    (entries.forM fun a => (mask a).channels.forM fun c => f (a, c)) =
      (entries.flatMap fun a => (mask a).channels.map fun c => (a, c)).forM f := by
  simp only [List.forM_eq_forM]
  induction entries with
  | nil => rfl
  | cons a rest ih => rw [List.forM_cons, ih, List.flatMap_cons, List.forM_append, List.forM_map]

/-- Records are written up to the first request that fails, and it takes a fault to make one fail.
By induction over the records, with the first of them written or refused. -/
theorem ends_forM_write (l : List (GainMonitor × Channel)) (s : Session) :
    Ends (l.forM fun p =>
        (perform (.objectWrite Object.gainMonitor (offset p.2) (p.1.encode p.2)) : SessionM Unit)) s
      (fun _ u => s.GainsWritten l u)
      (fun _ u => s.chip.faults ≠ [] ∧
        ∃ written, written <+: l ∧ written ≠ l ∧ s.GainsWritten written u) := by
  -- on what is still to be written; the session after the first record takes the place of `s`
  induction l generalizing s with
  | nil => exact ⟨rfl, rfl⟩
  | cons p rest ih =>
    have hput : (s.chip.served (request p)).object Object.gainMonitor =
        put (s.chip.object Object.gainMonitor) p := Chip.object_served_objectWrite ..
    have extend {written : List (GainMonitor × Channel)} {u : Session}
        (h : Session.GainsWritten { s with chip := s.chip.served (request p) } written u) :
        s.GainsWritten (p :: written) u := by
      refine ⟨h.journal.trans ?_, h.object.trans ?_⟩
      · rw [List.map_cons, List.reverse_cons, List.append_assoc]
        rfl
      · rw [List.foldl_cons, ← hput]
    rw [List.forM_eq_forM, List.forM_cons, ends_bind]
    unfold perform
    rw [ends_onChip]
    refine Chip.ends_perform_of ?served fun e hfaults => ?refused
    case served =>
      refine (ih { s with chip := s.chip.served (request p) }).mono (fun _ u hu => extend hu) ?_
      rintro e u ⟨hfaults, written, hprefix, hne, hu⟩
      rw [Chip.faults_served] at hfaults
      refine ⟨hfaults, p :: written, ?_, ?_, extend hu⟩
      · exact List.cons_prefix_cons.2 ⟨rfl, hprefix⟩
      · exact fun heq => hne (List.cons_inj_right p |>.1 heq)
    case refused =>
      exact ⟨hfaults, [], List.nil_prefix, by simp, rfl, rfl⟩

/-! ## Setting and reading -/

namespace Session

variable {s u : Session} {entries : List GainMonitor}

/-- The session with the faults taken from its chip. -/
def faultless (s : Session) : Session := { s with chip := s.chip.clearFaults }

/-- What a call to set the gain monitors of some entries comes to. -/
structure GainsSet (s : Session) (entries : List GainMonitor) : Prop where
  /-- Where the entries are accepted or not checked, a first part of the records is written, and it
  is the whole of them exactly if the call succeeds. The records of an entry come by ascending
  channel. -/
  written (h : s.rangeCheck = true → ∀ g ∈ entries, g.check = .ok ()) :
    (∀ g ∈ entries, g.mask.Ascends g.mask.channels) ∧
      ∃ written, written <+: records entries ∧
        s.GainsWritten written (s.after (setGainMonitor entries)) ∧
        (written = records entries ↔ s.answer (setGainMonitor entries) = .ok ())
  /-- After a success a channel reads as the last entry that names it, or as before. -/
  read (h : s.answer (setGainMonitor entries) = .ok ()) (c : Channel) :
    (s.after (setGainMonitor entries)).faultless.answer (gainMonitor c) =
      (lastFor GainMonitor.mask entries c).elim (s.faultless.answer (gainMonitor c))
        (fun g => .ok { g with mask := .singleton c })
  /-- If one entry is refused then nothing is done. -/
  refused (hon : s.rangeCheck = true) (h : ∃ g ∈ entries, g.check ≠ .ok ()) :
    ∃ e, setGainMonitor entries s = .error e s

/-- A gain monitor is read from its record in the object, whatever the object holds elsewhere. It is
decoded for the channel that is asked for. -/
theorem answer_gainMonitor (h : s.chip.faults = []) (c : Channel) :
    s.answer (gainMonitor c) =
      GainMonitor.decode c (recordAt (s.chip.object Object.gainMonitor) c) := by
  refine answer_eq ?_
  unfold gainMonitor
  rw [ends_bind]
  refine ends_perform_of_no_faults h ?_
  exact ends_ofExcept_self (GainMonitor.decode c (recordAt (s.chip.object Object.gainMonitor) c)) _

/-- A call that passes its checks writes the records up to the first request that fails. A call that
is refused does nothing. -/
theorem ends_setGainMonitor (hne : entries ≠ []) (s : Session) :
    Ends (setGainMonitor entries) s
      (fun _ u => (s.rangeCheck = true → ∀ g ∈ entries, g.check = .ok ()) ∧
        s.GainsWritten (records entries) u)
      (fun _ u => (s.rangeCheck = true ∧ (∃ g ∈ entries, g.check ≠ .ok ()) ∧ u = s) ∨
        (s.rangeCheck = true → ∀ g ∈ entries, g.check = .ok ()) ∧ s.chip.faults ≠ [] ∧
          ∃ written, written <+: records entries ∧ written ≠ records entries ∧
            s.GainsWritten written u) := by
  have hentries : requireEntries "gainMonitorConfigs" entries = .ok () := by
    unfold requireEntries
    rw [if_neg (by simpa using hne)]
  unfold setGainMonitor
  rw [ends_bind, hentries, ends_ofExcept]
  dsimp only
  rw [ends_bind]
  refine (ends_checked_self (entries.forM GainMonitor.check) s).mono ?passed ?refused
  case passed =>
    rintro _ t ⟨rfl, hpassed⟩
    have haccepted : t.rangeCheck = true → ∀ g ∈ entries, g.check = .ok () :=
      fun hon => forM_eq_ok.1 (hpassed hon)
    have hwrites := ends_forM_write (records entries) t
    unfold records at hwrites
    rw [← forM_forM_channels] at hwrites
    exact hwrites.mono (fun _ u hu => ⟨haccepted, hu⟩) fun e u hu => .inr ⟨haccepted, hu⟩
  case refused =>
    rintro e t ⟨rfl, hon, hcheck⟩
    refine .inl ⟨hon, ?_, rfl⟩
    by_cases hall : ∀ g ∈ entries, g.check = .ok ()
    · rw [forM_eq_ok.2 hall] at hcheck
      cases hcheck
    · simpa using hall

/-- Where no faults are injected, entries that pass their checks are set, and the call succeeds.
This is how a call can be known to return at all. -/
theorem answer_setGainMonitor (hfaults : s.chip.faults = []) (hne : entries ≠ [])
    (haccepted : s.rangeCheck = true → ∀ g ∈ entries, g.check = .ok ()) :
    s.answer (setGainMonitor entries) = .ok () := by
  refine answer_eq ((ends_setGainMonitor hne s).mono (fun _ _ _ => rfl) ?_)
  rintro e u (⟨hon, ⟨g, hg, hrefused⟩, -⟩ | ⟨-, hfault, -⟩)
  · exact absurd (haccepted hon g hg) hrefused
  · exact absurd hfaults hfault

/-- After the records of some entries, a channel reads as the last entry that names it, or as
before. It is asked without faults, so that the answer shows what is in the object. -/
theorem GainsWritten.answer_eq (h : s.GainsWritten (records entries) u) (c : Channel) :
    u.faultless.answer (gainMonitor c) =
      (lastFor GainMonitor.mask entries c).elim (s.faultless.answer (gainMonitor c))
        (fun g => .ok { g with mask := .singleton c }) := by
  have hafter : u.faultless.chip.object Object.gainMonitor =
      (records entries).foldl put (s.faultless.chip.object Object.gainMonitor) := h.object
  rw [answer_gainMonitor rfl, answer_gainMonitor rfl, hafter, recordAt_records]
  cases lastFor GainMonitor.mask entries c with
  | none => rfl
  | some g => exact g.decode_encode c

/-- Setting the gain monitors of a list of entries is a fold over its records, in which later
entries win, and which a fault may stop at any point. -/
theorem gainsSet (s : Session) (hne : entries ≠ []) : s.GainsSet entries := by
  have hends := ends_setGainMonitor hne s
  refine ⟨?written, ?read, ?refused⟩
  case written =>
    intro haccepted
    refine ⟨fun g _ => g.mask.ascends_channels, ?_⟩
    unfold Session.after answer
    cases hrun : setGainMonitor entries s with
    | ok _ u => exact ⟨_, List.prefix_rfl, (hends.of_ok hrun).2, by simp⟩
    | error e u =>
      obtain ⟨hon, ⟨g, hg, hrefused⟩, -⟩ | ⟨-, -, written, hprefix, hstopped, hu⟩ :=
        hends.of_error hrun
      · exact absurd (haccepted hon g hg) hrefused
      · exact ⟨written, hprefix, hu, by simp [hstopped]⟩
  case read =>
    intro hok c
    unfold Session.after
    cases hrun : setGainMonitor entries s with
    | ok _ u => exact (hends.of_ok hrun).2.answer_eq c
    | error e u =>
      unfold answer at hok
      rw [hrun] at hok
      cases hok
  case refused =>
    rintro hon ⟨g, hg, hrefused⟩
    cases hrun : setGainMonitor entries s with
    | ok _ u => exact absurd ((hends.of_ok hrun).1 hon g hg) hrefused
    | error e u =>
      obtain ⟨-, -, rfl⟩ | ⟨haccepted, -⟩ := hends.of_error hrun
      · exact ⟨e, rfl⟩
      · exact absurd (haccepted hon g hg) hrefused

/-- Two entries that both name the second channel; the second of them is not enabled. -/
def overlapping : List GainMonitor := [
  ⟨⟨0x03⟩, true, 20, 10, 200, .model0, .model1, 4⟩,
  ⟨⟨0x0A⟩, false, 7, 90, 30, .model2, .model3, 0x7F⟩]

/-- The second entry wins where both apply, and the third channel is left alone. The second channel
is the one that both entries name. -/
theorem gainsSet_overlapping :
    let s := Session.start Chip.initial default
    let u := s.after (setGainMonitor overlapping)
    s.GainsSet overlapping ∧ s.answer (setGainMonitor overlapping) = .ok () ∧
      u.faultless.answer (gainMonitor .tx2) =
        .ok ⟨.singleton .tx2, false, 7, 90, 30, .model2, .model3, 0x7F⟩ ∧
      u.faultless.answer (gainMonitor .tx3) = s.faultless.answer (gainMonitor .tx3) := by
  intro s u
  have hne : overlapping ≠ [] := by simp [overlapping]
  have hset : s.GainsSet overlapping := gainsSet s hne
  have haccepted : ∀ g ∈ overlapping, g.check = .ok () := by
    simp only [overlapping, List.forall_mem_cons]
    exact ⟨rfl, rfl, by simp⟩
  have hok : s.answer (setGainMonitor overlapping) = .ok () :=
    answer_setGainMonitor rfl hne fun _ => haccepted
  exact ⟨hset, hok, hset.read hok .tx2, hset.read hok .tx3⟩

end Session

end Predistortion
