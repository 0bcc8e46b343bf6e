import Predistortion.Proofs.RoundTrip
import Predistortion.Proofs.SoleOwner

/-!
# The record keeps what was written last

The record is written as a whole, with the pins, or by its parts. `stored` says what it should hold
after some writes: each component as it was written last, by a whole write or on its own, and as in
a record of zeros if it was never written. Main statement: after any writes on a fresh chip that all
succeed, the configuration and its parts are read back as `stored` says (`last_write_wins`).

The invariant is `Session.Stores`: the record on the chip is the form of the configuration, and the
pins are where they belong. Every write that succeeds moves it to the configuration after the write.
-/

namespace Predistortion

open SessionM
open Session (tracked writeCapture readCapture donePin)
open Capture (Config Control Level Threshold PathDelay Part maxCapturePin)

variable {α : Type}

/-! ## Writes -/

/-- A call that writes the record or a part of it. -/
inductive Write where
  /-- The whole record and the pins. -/
  | config (c : Config)
  /-- A part. -/
  | part (p : Part) (v : p.Value)

namespace Write

/-- Carries out the call. -/
def run : Write → SessionM Unit
  | .config c => Session.setConfig c
  | .part .control v => Session.setControl v
  | .part .level v => Session.setLevel v
  | .part (.threshold boundary) v => Session.setThreshold boundary v

/-- The completion pin that the call assigns, if it does, is one of the lower pins. -/
def IsLow : Write → Prop
  | .config c => ∀ n, c.donePin = .digital n → n.val ≤ maxCapturePin
  | .part .. => True

/-- What the call writes to the components that are only written as a whole. -/
def config? : Write → Option Config
  | .config c => some c
  | .part .. => none

/-- What the call writes to a part. -/
def value? (p : Part) : Write → Option p.Value
  | .config c => some (p.get c)
  | .part q v => if h : q = p then some (h ▸ v) else none

/-- The configuration after the write. -/
def put (c : Config) : Write → Config
  | .config c' => c'
  | .part p v => p.set c v

end Write

/-- Reads a part of the record. -/
def readPart : (p : Part) → SessionM p.Value
  | .control => Session.control
  | .level => Session.level
  | .threshold boundary => Session.threshold boundary

/-- The configuration without pins that a record of zeros carries. -/
def Capture.Config.blank : Config where
  triggerPin := .unassigned
  donePin := .unassigned
  pathDelay := ⟨0, 0⟩
  control := ⟨.tx1, .tddTxOn, .postActuator, .actuator, .samples4096,
    ⟨0, 0, .dpd, false, false, 0⟩, 0, 0⟩
  level := ⟨0, .band0, .any⟩
  thresholds := ⟨⟨0, 0, .x1, 0, 0⟩, ⟨0, 0, .x1, 0, 0⟩, ⟨0, 0, .x1, 0, 0⟩⟩
  envelopeDecay := 0

/-- The last value that some writes give to a component, or the value of the blank record. -/
def lastWritten (f : Write → Option α) (initial : α) (ws : List Write) : α :=
  (ws.filterMap f).getLast?.getD initial

/-- The configuration in which each component has the value that was written last. -/
def stored (ws : List Write) : Config where
  triggerPin := lastWritten (·.config?.map (·.triggerPin)) .unassigned ws
  donePin := lastWritten (·.config?.map (·.donePin)) .unassigned ws
  pathDelay := lastWritten (·.config?.map (·.pathDelay)) Config.blank.pathDelay ws
  control := lastWritten (·.value? .control) Config.blank.control ws
  level := lastWritten (·.value? .level) Config.blank.level ws
  thresholds := {
    between01 := lastWritten (·.value? (.threshold .between01)) Config.blank.thresholds.between01 ws
    between12 := lastWritten (·.value? (.threshold .between12)) Config.blank.thresholds.between12 ws
    between23 := lastWritten (·.value? (.threshold .between23)) Config.blank.thresholds.between23 ws
  }
  envelopeDecay := lastWritten (·.config?.map (·.envelopeDecay)) Config.blank.envelopeDecay ws

/-- One more write counts if it is one of the kind that is looked for, and otherwise the earlier
ones decide. -/
theorem lastWritten_snoc (f : Write → Option α) (initial : α) (ws : List Write) (w : Write) :
    lastWritten f initial (ws ++ [w]) = (f w).getD (lastWritten f initial ws) := by
  unfold lastWritten
  cases hw : f w <;> simp [hw]

/-- One more write changes what it writes: the whole configuration, or one part of it. -/
theorem stored_snoc (ws : List Write) (w : Write) : stored (ws ++ [w]) = w.put (stored ws) := by
  unfold stored
  simp only [lastWritten_snoc]
  cases w with
  | config c => rfl
  | part p v =>
    cases p with
    | threshold boundary => cases boundary <;> rfl
    | _ => rfl

/-! ## The record of zeros -/

/-- The configuration that was never written has a record of zeros. -/
theorem Capture.Config.encode_blank : Config.blank.encode = Bytes.zeros Config.recordLength := rfl

/-- A record of zeros is accepted, so a fresh chip answers a configuration without any write. It is
the one that stands for no writes in the statements. -/
theorem Capture.Config.decode_zeros :
    Config.decode (Bytes.zeros Config.recordLength) .unassigned .unassigned =
      .ok Config.blank := by
  rw [← encode_blank]
  exact Config.decode_encode Config.blank

/-! ## The invariant -/

/-- The record that the chip holds. -/
def Chip.record (chip : Chip) : Bytes := (chip.object Object.capture).window 0 Config.recordLength

/-- The session and its chip hold a configuration. -/
structure Session.Stores (s : Session) (c : Config) : Prop where
  /-- There are no faults. -/
  faults : s.chip.faults = []
  /-- The session remembers the trigger pin. -/
  triggerPin : s.triggerPin = c.triggerPin
  /-- The completion pin has the tag. -/
  donePin : History.TagAt s.chip.pins c.donePin
  /-- The chip holds the record. -/
  record : s.chip.record = c.encode

/-- On a fresh chip nothing was written yet, and the object holds what reads as zeros. This starts
the induction. -/
theorem stores_start (settings : Settings) :
    (Session.start Chip.initial settings).Stores (stored []) := by
  refine ⟨rfl, rfl, ⟨fun n => ?_, fun n => ?_, fun n hn => by cases hn⟩, ?_⟩
  · refine iff_of_false ?_ (by rintro ⟨⟩)
    simp [Session.start, Chip.initial, PinTable.feature_digital, PinTable.initial]
  · refine iff_of_false ?_ (by rintro ⟨⟩)
    simp [Session.start, Chip.initial, PinTable.direction_digital, PinTable.initial]
  · have hempty : (Session.start Chip.initial settings).chip.object Object.capture = [] := by
      simp [Session.start, Chip.initial, Chip.object]
    unfold Chip.record
    rw [hempty]
    rfl

section writes

variable {s : Session}

/-- A write to the record is made, or nothing is known, since a fault stopped it. -/
theorem ends_writeCapture_served (offset : UInt16) (data : Bytes) :
    Ends (writeCapture offset data) s
      (fun _ t => t = { s with chip := s.chip.served (.objectWrite Object.capture offset data) })
      (fun _ _ => True) := by
  unfold writeCapture perform
  rw [ends_onChip]
  exact Chip.ends_perform_of rfl fun _ _ => trivial

/-- A whole write leaves nothing of the record before, because it covers the record from its start
to its end. -/
theorem ends_setConfig_record (c : Config) :
    Ends (Session.setConfig c) s (fun _ t => t.chip.record = c.encode) (fun _ _ => True) := by
  -- whatever the earlier steps did, the last one writes all of the record
  unfold Session.setConfig
  rw [ends_bind]
  refine (ends_self _ s).mono (fun _ t _ => ?_) fun _ _ _ => trivial
  rw [ends_bind, ends_tracked, ends_bind]
  refine (ends_self _ t).mono (fun _ u _ => ?_) fun _ _ _ => trivial
  rw [ends_bind]
  refine (ends_self _ u).mono (fun _ v _ => ?_) fun _ _ _ => trivial
  refine (ends_writeCapture_served 0 c.encode).mono ?_ fun _ _ _ => trivial
  rintro _ w rfl
  show (Chip.served v.chip _).record = _
  unfold Chip.record
  rw [Chip.object_served_objectWrite, ← c.length_encode]
  exact Bytes.window_overwrite_self _ 0 c.encode

/-- A write of a part comes down to one request, for the bytes of the part at its place. All kinds
of parts are written alike once they have passed their checks. -/
theorem ends_writePart (p : Part) (v : p.Value) :
    Ends (Write.part p v).run s
      (fun _ t => t = { s with
        chip := s.chip.served (.objectWrite Object.capture p.offset (p.encode v)) })
      (fun _ _ => True) := by
  have written (offset : UInt16) (data : Bytes) : Ends (tracked (writeCapture offset data)) s
      (fun _ t => t = { s with chip := s.chip.served (.objectWrite Object.capture offset data) })
      (fun _ _ => True) := by
    rw [ends_tracked]
    exact (ends_writeCapture_served offset data).mono (fun _ _ ht => ht) fun _ _ _ => trivial
  cases p with
  | control =>
    unfold Write.run Session.setControl
    rw [ends_bind]
    refine (ends_checked_self _ s).mono ?_ fun _ _ _ => trivial
    rintro _ t ⟨rfl, -⟩
    exact written _ _
  | level => exact written _ _
  | threshold boundary =>
    unfold Write.run Session.setThreshold
    rw [ends_bind]
    refine (ends_checked_self _ s).mono ?_ fun _ _ _ => trivial
    rintro _ t ⟨rfl, -⟩
    exact written _ _

namespace Session.Stores

variable {c : Config}

/-- A write of the whole record stores it, with the completion pin where it is asked for. It may
fail, and then it promises nothing. -/
theorem writeConfig (h : s.Stores c) {c' : Config}
    (hlow : ∀ n, c'.donePin = .digital n → n.val ≤ maxCapturePin) :
    Ends (Session.setConfig c') s (fun _ t => t.Stores c') (fun _ _ => True) := by
  have hpins := ends_setConfig c' s h.faults h.donePin.tagDrives
  refine (hpins.and (ends_setConfig_record c')).mono ?_ fun _ _ _ => trivial
  rintro _ t ⟨⟨⟨-, hfaults⟩, -, htrigger, hmoved, -⟩, hrecord⟩
  refine ⟨hfaults, htrigger, ?_, hrecord⟩
  rw [hmoved]
  exact h.donePin.moveTag hlow

/-- A write of a part stores this part and leaves the others of the record, as
`Part.overwrite_encode` says of the bytes. -/
theorem writePart (h : s.Stores c) (p : Part) (v : p.Value) :
    Ends (Write.part p v).run s (fun _ t => t.Stores (p.set c v)) (fun _ _ => True) := by
  have hfits : p.offset.toNat + (p.encode v).length ≤ Config.recordLength := by
    rw [p.length_encode]
    exact p.fits
  have hpins : (p.set c v).triggerPin = c.triggerPin ∧ (p.set c v).donePin = c.donePin := by
    cases p <;> exact ⟨rfl, rfl⟩
  refine (ends_writePart p v).mono ?_ fun _ _ _ => trivial
  rintro _ t rfl
  refine ⟨(Chip.faults_served ..).trans h.faults, h.triggerPin.trans hpins.1.symm, ?_, ?_⟩
  · rw [hpins.2]
    show History.TagAt (s.chip.served _).pins _
    rw [Chip.pins_served]
    exact h.donePin
  · show (s.chip.served _).record = _
    unfold Chip.record
    rw [Chip.object_served_objectWrite, Bytes.window_overwrite_of_le _ hfits]
    have hrecord := h.record
    unfold Chip.record at hrecord
    rw [hrecord, Part.overwrite_encode]

/-- Every write that succeeds is stored. The step of the induction over a run, with a case for a
whole configuration and one for a part. -/
theorem write (h : s.Stores c) {w : Write} (hlow : w.IsLow) :
    Ends w.run s (fun _ t => t.Stores (w.put c)) (fun _ _ => True) := by
  cases w with
  | config c' => exact h.writeConfig hlow
  | part p v => exact h.writePart p v

/-- After a run of writes the record holds what was written last. By induction, with the writes
before in the invariant. -/
theorem writes {before ws : List Write} (h : s.Stores (stored before))
    (hlow : ∀ w ∈ ws, w.IsLow) :
    Ends (ws.forM Write.run) s (fun _ t => t.Stores (stored (before ++ ws))) (fun _ _ => True) := by
  -- with the writes made so far in the invariant, since `stored` grows at the end
  induction ws generalizing before s with
  | nil =>
    rw [List.append_nil]
    exact h
  | cons w later ih =>
    change Ends (w.run >>= fun _ => later.forM Write.run) s _ _
    rw [ends_bind]
    refine (h.write (hlow w List.mem_cons_self)).mono (fun _ t ht => ?_) fun _ _ _ => trivial
    rw [← stored_snoc] at ht
    have hlater := ih ht fun w' hw' => hlow w' (List.mem_cons_of_mem _ hw')
    rwa [List.append_assoc] at hlater

end Session.Stores

end writes

/-! ## Reading back -/

/-- All parts are read alike. They differ in where they lie, how long they are and how they
decode. -/
theorem readPart_eq (p : Part) : readPart p = (do
    let record ← tracked (readCapture p.offset p.length)
    ofExcept (p.decode record)) := by
  cases p <;> rfl

/-- To look for the tag changes no object, so an assignment leaves the record. By induction over the
pins that are looked at. -/
theorem keeps_objects_findTagged (pins : List Pin) :
    Keeps Chip.objects (Session.findTagged pins) := by
  induction pins with
  | nil => exact .pure Pin.unassigned
  | cons p rest ih =>
    refine .bind (fun chip => ?_) fun feature => .ite (.pure p) ih
    refine Chip.ends_perform_of ?_ fun _ _ => rfl
    rw [Chip.served_eq]
    rfl

namespace Session.Stores

variable {s : Session} {c : Config}

/-- A part is read back as it is in the configuration that is stored. The chip has no faults by the
invariant, so the reading succeeds. -/
theorem readPart (h : s.Stores c) (p : Part) :
    Ends (readPart p) s (fun v _ => v = p.get c) (fun _ _ => False) := by
  have hreply : (s.chip.serve (.objectRead Object.capture p.offset p.length)).1 =
      p.encode (p.get c) := by
    have hrecord := h.record
    unfold Chip.record at hrecord
    show (s.chip.object Object.capture).window p.offset.toNat p.length = _
    rw [← Bytes.window_window _ p.fits, hrecord, Part.window_encode]
  rw [readPart_eq, ends_bind, ends_tracked]
  refine ends_perform_of_no_faults h.faults ?_
  rw [ends_ofExcept, hreply, Part.decode_encode]

/-- The configuration is read back, with the trigger pin that the session remembers and the
completion pin that is looked for. -/
theorem config (h : s.Stores c) :
    Ends Session.config s (fun c' _ => c' = c) (fun _ _ => False) := by
  -- the record was not touched since it was written: the search for the pin changes no object
  have htag := (ends_findTagged Session.donePinCandidates s.chip).and
    (keeps_objects_findTagged Session.donePinCandidates s.chip)
  unfold Session.config Session.donePin
  rw [ends_tracked, ends_bind, ends_onChip]
  refine htag.mono ?_ fun _ _ hf => absurd h.faults hf.1.2
  rintro pin chip ⟨⟨hpin, hpins, hfaults⟩, hobjects⟩
  have hfound : pin = c.donePin := by
    rw [hpin]
    exact h.donePin.tagged_eq
  have hreply : (chip.serve (.objectRead Object.capture 0 Config.recordLength)).1 = c.encode := by
    have hrecord := h.record
    unfold Chip.record Chip.object at hrecord
    show (chip.objects.getD Object.capture []).window 0 Config.recordLength = _
    rw [hobjects, hrecord]
  rw [ends_bind]
  refine ends_perform_of_no_faults (s := { s with chip }) (hfaults.trans h.faults) ?_
  rw [ends_bind, ends_get, ends_ofExcept, hreply]
  have hpins : s.triggerPin = c.triggerPin := h.triggerPin
  simp only [hpins, hfound, Config.decode_encode]

end Session.Stores

/-- After any writes on a fresh chip that all succeed, the configuration is read back with each
component as it was written last, or, if it never was, as a record of zeros carries it; and each
part is read back as it is in the configuration. -/
theorem last_write_wins (settings : Settings) (ws : List Write) (hlow : ∀ w ∈ ws, w.IsLow)
    {t : Session} (hrun : ws.forM Write.run (Session.start Chip.initial settings) = .ok () t) :
    (∃ u, Session.config t = .ok (stored ws) u) ∧
      (∀ p : Part, ∃ u, readPart p t = .ok (p.get (stored ws)) u) ∧
      Config.decode (Bytes.zeros Config.recordLength) .unassigned .unassigned =
        .ok Config.blank := by
  have hstores : t.Stores (stored ws) := ((stores_start settings).writes hlow).of_ok hrun
  refine ⟨?_, fun p => ?_, Config.decode_zeros⟩
  · obtain ⟨c, u, hread, rfl⟩ := hstores.config.exists_ok
    exact ⟨u, hread⟩
  · obtain ⟨v, u, hread, rfl⟩ := (hstores.readPart p).exists_ok
    exact ⟨u, hread⟩

/-- A configuration whose level part is then written on its own. -/
def levelAfterConfig (triggerPin donePin : Pin) : List Write :=
  [.config { Config.blank with triggerPin, donePin, envelopeDecay := 9 },
    .part .level ⟨7, .band2, .descending⟩]

/-- A level that is written after a whole configuration replaces the level of that, and the rest is
as it was configured. -/
theorem last_write_wins_levelAfterConfig :
    ∃ t u, (levelAfterConfig (.digital 3) (.digital 5)).forM Write.run
        (Session.start Chip.initial default) = .ok () t ∧
      Session.config t = .ok { Config.blank with
        triggerPin := .digital 3
        donePin := .digital 5
        envelopeDecay := 9
        level := ⟨7, .band2, .descending⟩ } u := by
  have hsucceeds : (match (levelAfterConfig (.digital 3) (.digital 5)).forM Write.run
      (Session.start Chip.initial default) with
    | .ok .. => true
    | .error .. => false) = true := by decide +kernel
  have hlow : ∀ w ∈ levelAfterConfig (.digital 3) (.digital 5), w.IsLow := by
    intro w hw
    rcases List.mem_cons.1 hw with rfl | hw
    · rintro n ⟨⟩
      decide
    · rw [List.mem_singleton.1 hw]
      trivial
  have hstored : stored (levelAfterConfig (.digital 3) (.digital 5)) = { Config.blank with
      triggerPin := .digital 3
      donePin := .digital 5
      envelopeDecay := 9
      level := ⟨7, .band2, .descending⟩ } := rfl
  cases hrun : (levelAfterConfig (.digital 3) (.digital 5)).forM Write.run
      (Session.start Chip.initial default) with
  | ok _ t =>
    obtain ⟨⟨u, hread⟩, -⟩ := last_write_wins default _ hlow hrun
    rw [hstored] at hread
    exact ⟨t, u, rfl, hread⟩
  | error e t =>
    rw [hrun] at hsucceeds
    cases hsucceeds

end Predistortion
