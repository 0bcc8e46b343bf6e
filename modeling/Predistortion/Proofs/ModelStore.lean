import Predistortion.Proofs.Mailbox
import Predistortion.Proofs.RoundTrip

/-!
# Models as a store

The firmware keeps twelve model records in two objects, which grow as they are written: one record
for each channel in the one, and two for each channel in the other. Seen from the calls of a session
these are twelve places (`Model.Place`) that have nothing to do with one another.

Main statement: on a fresh chip, after any calls that succeed, each place holds the model that was
put there last, or the blank model if none was, and a call that puts a model into one place changes
the answer of no other (`models_kept_apart`). A record is read back as it was written
(`Model.decode_encode`), two records of one object do not overlap (`Model.Place.apart`), and so one
call changes the record of its own place alone (`ModelCall.ends_run`). The gap that is left when an
object grows is filled with zeros, and a record of zeros is the blank model (`Model.decode_zeros`).
-/

namespace Predistortion

open SessionM

/-! ## Records -/

/-- A block that stands in a byte string, read byte by byte from where it starts. -/
theorem Bytes.ofFn_byteAt_append {n : Nat} (a b : Bytes) (v : Vector UInt8 n) :
    (Vector.ofFn fun i : Fin n => byteAt (a ++ (v.toList ++ b)) (a.length + i.val)) = v := by
  apply Vector.ext
  intro i hi
  rw [Vector.getElem_ofFn, byteAt_append, if_neg (by simp), Nat.add_sub_cancel_left,
    byteAt_append, if_pos (by simpa using hi), byteAt_toList v hi]

namespace Model

/-- A record has the same length for every model and channel. -/
@[simp] theorem length_encode (m : Model) (c : Channel) : (m.encode c).length = recordLength := by
  simp [encode, recordLength]

/-- A record is read back, for whatever channel it was written. The channel is in the record, but it
is not looked at. -/
theorem decode_encode (m : Model) (c : Channel) : decode (m.encode c) = .ok m := by
  have hlength : ¬(m.encode c).length < recordLength := by simp
  have hslot : ModelSlot.ofRaw ((m.encode c).byteAt 1) = .ok m.slot := ModelSlot.ofRaw_raw m.slot
  have hbank : Bank.ofIndex ((m.encode c).byteAt 2).toNat = .ok m.bank := by
    show Bank.ofIndex m.bank.raw.toNat = _
    cases m.bank <;> rfl
  have hcompander : Compander.ofRaw ((m.encode c).byteAt 4) = .ok m.compander := by
    show Compander.ofRaw m.compander.raw = _
    cases m.compander <;> rfl
  -- the parts of the record that are longer than a byte
  let head : Bytes :=
    [c.code, m.slot.raw, m.bank.raw, m.magnitudeGain, m.compander.raw, m.outputShift]
  have hsum : LittleEndian.uint16At (m.encode c) 6 = m.tableSum := by
    refine Capture.uint16At_of_window ?_
    unfold encode
    rw [List.append_assoc, List.append_assoc]
    exact Bytes.window_append head (LittleEndian.ofUInt16 m.tableSum) _
  have hinPhase : (Vector.ofFn fun i : Fin 32 => (m.encode c).byteAt (8 + i.val)) = m.inPhase := by
    unfold encode
    rw [List.append_assoc]
    exact Bytes.ofFn_byteAt_append (head ++ LittleEndian.ofUInt16 m.tableSum) m.envelope.toList _
  have henvelope : (Vector.ofFn fun i : Fin 8 => (m.encode c).byteAt (40 + i.val)) =
      m.envelope := by
    have hread := Bytes.ofFn_byteAt_append
      (head ++ LittleEndian.ofUInt16 m.tableSum ++ m.inPhase.toList) [] m.envelope
    have hbefore : (head ++ LittleEndian.ofUInt16 m.tableSum ++ m.inPhase.toList).length = 40 := by
      simp [head]
    rwa [List.append_nil, hbefore] at hread
  unfold decode
  rw [if_neg hlength, hslot, hbank, hcompander, hsum, hinPhase, henvelope]
  rfl

/-- A record of zeros is read as the blank model, which is what a place answers before anything is
written to it. -/
theorem decode_zeros : decode (Bytes.zeros recordLength) = .ok blank := rfl

end Model

/-! ## Places -/

/-- A place for the record of a model. -/
inductive Model.Place where
  /-- The place of a channel when one model is kept for each. -/
  | single (c : Channel)
  /-- The place of a channel and a slot when two models are kept for each. -/
  | dual (c : Channel) (slot : ModelSlot) (hslot : slot.isDual = true)
deriving DecidableEq

namespace Model.Place

/-- The object in which the record lies. -/
def object : Place → UInt8
  | single _ => Object.model
  | dual .. => Object.dualModel

/-- Where the record starts. -/
def offset : Place → UInt16
  | single c => Model.offset c
  | dual c slot _ => Model.dualOffset c slot

/-- The channel whose model it is. -/
def channel : Place → Channel
  | single c => c
  | dual c _ _ => c

/-- The records before this one in its object. -/
def number : Place → Nat
  | single c => c.index
  | dual c slot _ => c.index * 2 + slot.raw.toNat

/-- Reads the model. -/
def read : Place → SessionM Model
  | single c => Session.model c
  | dual c slot _ => Session.dualModel c slot

/-- The two slots that are kept for each channel have the numbers 0 and 1. -/
theorem raw_lt_of_isDual {slot : ModelSlot} (h : slot.isDual = true) : slot.raw.toNat < 2 := by
  cases slot <;> first | decide | cases h

/-- The records of an object stand one after the other in the order of their numbers, so that a
place is at a multiple of their length. -/
theorem toNat_offset (p : Place) : p.offset.toNat = p.number * recordLength := by
  cases p with
  | single c => cases c <;> rfl
  | dual c slot hslot => cases slot <;> cases c <;> first | rfl | cases hslot

/-- A place is known by its object and its number. In the second object the number tells both the
channel and the slot. -/
theorem eq_of_number_eq {p q : Place} (hobject : p.object = q.object)
    (hnumber : p.number = q.number) : p = q := by
  cases p with
  | single c =>
    cases q with
    | single d => rw [Channel.index_inj hnumber]
    | dual => cases hobject
  | dual c slot hslot =>
    cases q with
    | single => cases hobject
    | dual d slot' hslot' =>
      have hlt := raw_lt_of_isDual hslot
      have hlt' := raw_lt_of_isDual hslot'
      have hsplit : c.index = d.index ∧ slot.raw.toNat = slot'.raw.toNat := by
        change c.index * 2 + slot.raw.toNat = d.index * 2 + slot'.raw.toNat at hnumber
        omega
      obtain rfl := Channel.index_inj hsplit.1
      have hok := congrArg ModelSlot.ofRaw (UInt8.toNat_inj.1 hsplit.2)
      rw [ModelSlot.ofRaw_raw, ModelSlot.ofRaw_raw] at hok
      cases hok
      rfl

/-- Records of one object do not overlap, because their numbers differ and each is as long as the
others. -/
theorem apart {p q : Place} (hne : p ≠ q) (hobject : p.object = q.object) :
    p.offset.toNat + recordLength ≤ q.offset.toNat ∨
      q.offset.toNat + recordLength ≤ p.offset.toNat := by
  have hnumber : p.number ≠ q.number := fun h => hne (eq_of_number_eq hobject h)
  rw [toNat_offset, toNat_offset]
  unfold recordLength
  omega

end Model.Place

/-- The record that a chip holds at a place. -/
def Chip.modelRecord (chip : Chip) (p : Model.Place) : Bytes :=
  (chip.object p.object).window p.offset.toNat Model.recordLength

/-- Both ways to read a model read the record of the place and decode it. The check of the slot is
passed because a place has no other slots. -/
theorem Model.Place.read_eq (p : Place) : p.read = (do
    let record ← perform (.objectRead p.object p.offset recordLength)
    ofExcept (decode record)) := by
  cases p with
  | single c => rfl
  | dual c slot hslot =>
    have hdual : slot.requireDual = .ok () := if_pos hslot
    show (ofExcept slot.requireDual >>= fun _ => _) = _
    rw [hdual]
    rfl

/-- A model is read from its record, which is zeros where nothing was written. -/
theorem Session.answer_readModel {s : Session} (hfaults : s.chip.faults = []) (p : Model.Place) :
    s.answer p.read = Model.decode (s.chip.modelRecord p) := by
  rw [p.read_eq]
  refine answer_eq ?_
  rw [ends_bind]
  refine ends_perform_of_no_faults hfaults ?_
  exact ends_ofExcept_self (Model.decode (s.chip.modelRecord p)) _

/-- To read a model changes no object, whether or not the record can be decoded. -/
theorem keeps_readModel (p : Model.Place) :
    Keeps (fun s : Session => (s.chip.faults, s.chip.object)) p.read := by
  rw [p.read_eq]
  refine .bind (fun s => ?_) fun _ => .ofExcept _
  unfold perform
  rw [ends_onChip]
  refine Chip.ends_perform_of ?_ fun _ _ => rfl
  rw [Chip.served_of_isRead _ rfl]
  rfl

/-! ## One call -/

/-- A call that writes or reads a model, or a change of the settings. -/
inductive ModelCall where
  /-- Write the model of a channel. -/
  | set (c : Channel) (m : Model)
  /-- Write one of the two models of a channel; the model names its slot. -/
  | setDual (c : Channel) (m : Model)
  /-- Read a model. -/
  | read (p : Model.Place)
  /-- Replace the settings, and with them what is checked. -/
  | settings (new : Settings)

namespace ModelCall

/-- Carries out a call. -/
def run : ModelCall → SessionM Unit
  | set c m => Session.setModel c m
  | setDual c m => Session.setDualModel c m
  | read p => do
    let _ ← p.read
  | settings new => modify ({ · with settings := new })

/-- The model that a call puts into a place. -/
def model? : Model.Place → ModelCall → Option Model
  | .single d, set c m => if c = d then some m else none
  | .dual d slot _, setDual c m => if c = d ∧ m.slot = slot then some m else none
  | _, _ => none

end ModelCall

/-- The record of a place after a write to a place: the new one there, and the old one everywhere
else. -/
theorem Chip.modelRecord_served_objectWrite (chip : Chip) (p q : Model.Place) {record : Bytes}
    (hlength : record.length = Model.recordLength) :
    (chip.served (.objectWrite p.object p.offset record)).modelRecord q =
      if p = q then record else chip.modelRecord q := by
  unfold modelRecord
  by_cases hobject : p.object = q.object
  · rw [← hobject, object_served_objectWrite]
    split
    · next heq => rw [← heq, ← hlength, Bytes.window_overwrite_self]
    · next hne =>
      apply Bytes.window_overwrite_of_disjoint
      rw [hlength]
      exact (Model.Place.apart hne hobject).symm
  · rw [object_served_objectWrite_of_ne _ hobject, if_neg]
    rintro rfl
    exact hobject rfl

namespace ModelCall

/-- A write of a record to a place succeeds where no faults are injected, and changes the record of
this place alone. -/
theorem ends_write {s : Session} (hfaults : s.chip.faults = []) (p : Model.Place) {record : Bytes}
    (hlength : record.length = Model.recordLength) :
    Ends (perform (.objectWrite p.object p.offset record)) s
      (fun _ t => t.chip.faults = [] ∧
        ∀ q, t.chip.modelRecord q = if p = q then record else s.chip.modelRecord q)
      (fun _ _ => False) :=
  ends_perform_of_no_faults hfaults
    ⟨(Chip.faults_served ..).trans hfaults, fun q =>
      s.chip.modelRecord_served_objectWrite p q hlength⟩

/-- A call that succeeds changes the record of the place into which it puts a model, and no other.
One case for each kind of call; only the two that set a model make a write. -/
theorem ends_run {s : Session} (hfaults : s.chip.faults = []) (k : ModelCall) :
    Ends k.run s
      (fun _ t => t.chip.faults = [] ∧ ∀ q, t.chip.modelRecord q =
        (k.model? q).elim (s.chip.modelRecord q) (·.encode q.channel))
      (fun _ _ => True) := by
  cases k with
  | set c m =>
    unfold run Session.setModel
    rw [ends_bind]
    refine (ends_checked_self m.check s).mono ?_ fun _ _ _ => trivial
    rintro _ t ⟨rfl, -⟩
    refine (ends_write hfaults (.single c) (m.length_encode c)).mono ?_ fun _ _ _ => trivial
    refine fun _ u hu => ⟨hu.1, fun q => (hu.2 q).trans ?_⟩
    cases q with
    | single d => by_cases hd : c = d <;> simp [model?, hd, Model.Place.channel]
    | dual => rfl
  | setDual c m =>
    unfold run Session.setDualModel
    rw [ends_bind, ends_ofExcept]
    cases hdual : m.slot.isDual with
    | false =>
      have hrefused : m.slot.requireDual = .error (.invalid "modelSel" m.slot.label
          "only Model0 and Model1 are supported in multi-model mode") := by
        unfold ModelSlot.requireDual
        rw [hdual]
        rfl
      rw [hrefused]
      trivial
    | true =>
      have haccepted : m.slot.requireDual = .ok () := if_pos hdual
      rw [haccepted]
      dsimp only
      rw [ends_bind]
      refine (ends_checked_self m.check s).mono ?_ fun _ _ _ => trivial
      rintro _ t ⟨rfl, -⟩
      refine (ends_write hfaults (.dual c m.slot hdual) (m.length_encode c)).mono ?_
        fun _ _ _ => trivial
      refine fun _ u hu => ⟨hu.1, fun q => (hu.2 q).trans ?_⟩
      cases q with
      | single => rfl
      | dual d slot hslot =>
        by_cases hd : c = d ∧ m.slot = slot
        · simp [model?, hd, Model.Place.channel]
        · simp [model?, hd]
  | read p =>
    unfold run
    rw [ends_bind]
    refine (keeps_readModel p s).mono (fun _ t ht => ⟨?_, fun q => ?_⟩) fun _ _ _ => trivial
    · exact (congrArg Prod.fst ht).trans hfaults
    · have hobject : t.chip.object = s.chip.object := congrArg Prod.snd ht
      have hrecord : t.chip.modelRecord q = s.chip.modelRecord q := by
        unfold Chip.modelRecord
        rw [hobject]
      cases q <;> exact hrecord
  | settings new =>
    refine ⟨hfaults, fun q => ?_⟩
    cases q <;> rfl

end ModelCall

/-! ## Runs -/

/-- The model that some calls put last into a place, or the blank model. -/
def lastModel (p : Model.Place) (calls : List ModelCall) : Model :=
  (calls.filterMap (ModelCall.model? p)).getLast?.getD Model.blank

/-- The last call of a run decides about a place if it puts a model there, and else the calls before
it do. -/
theorem lastModel_snoc (p : Model.Place) (calls : List ModelCall) (k : ModelCall) :
    lastModel p (calls ++ [k]) = (k.model? p).getD (lastModel p calls) := by
  unfold lastModel
  cases hk : k.model? p <;> simp [hk]

/-- A chip without faults keeps the models that some calls put last. -/
structure Session.KeepsModels (s : Session) (calls : List ModelCall) : Prop where
  /-- There are no faults. -/
  faults : s.chip.faults = []
  /-- The record of each place is one of the model that was put there last. -/
  record : ∀ p, Model.decode (s.chip.modelRecord p) = .ok (lastModel p calls)

namespace Session.KeepsModels

/-- A fresh chip keeps the blank model in every place, since its objects are still empty and a
record beyond their end is read as zeros. -/
theorem start (settings : Settings) : (Session.start Chip.initial settings).KeepsModels [] := by
  refine ⟨rfl, fun p => ?_⟩
  have hempty : (Session.start Chip.initial settings).chip.object p.object = [] := by
    simp [Session.start, Chip.initial, Chip.object]
  have hzeros : (Session.start Chip.initial settings).chip.modelRecord p =
      Bytes.zeros Model.recordLength := by
    unfold Chip.modelRecord Bytes.window Bytes.padTo
    rw [hempty]
    simp
  rw [hzeros, Model.decode_zeros]
  rfl

variable {s : Session} {before : List ModelCall}

/-- One call carries the invariant on. The record that it puts is read back as the model it was
given. -/
theorem call (h : s.KeepsModels before) (k : ModelCall) :
    Ends k.run s (fun _ t => t.KeepsModels (before ++ [k])) (fun _ _ => True) := by
  refine (k.ends_run h.faults).mono (fun _ t ht => ⟨ht.1, fun p => ?_⟩) fun _ _ ht => ht
  rw [ht.2 p, lastModel_snoc]
  cases k.model? p with
  | none => exact h.record p
  | some m => exact m.decode_encode p.channel

/-- A run of calls that succeeds carries the invariant on, call by call. The calls made before stand
in the invariant. -/
theorem calls (h : s.KeepsModels before) (later : List ModelCall) :
    Ends (later.forM ModelCall.run) s (fun _ t => t.KeepsModels (before ++ later))
      (fun _ _ => True) := by
  -- with the calls made so far in the invariant, since `lastModel` grows at the end
  induction later generalizing before s with
  | nil =>
    rw [List.append_nil]
    exact h
  | cons k rest ih =>
    change Ends (k.run >>= fun _ => rest.forM ModelCall.run) s _ _
    rw [ends_bind]
    refine (h.call k).mono (fun _ t ht => ?_) fun _ _ ht => ht
    have hrest := ih ht
    rwa [List.append_assoc] at hrest

end Session.KeepsModels

/-- On a fresh chip, after any calls that succeed, each of the twelve places answers with the model
that was put there last, and with the blank model if none was. On any chip without faults, whatever
its objects hold, a call that succeeds changes no answer but that of the place it writes. -/
theorem models_kept_apart :
    (∀ (settings : Settings) (calls : List ModelCall) (t : Session),
      calls.forM ModelCall.run (.start .initial settings) = .ok () t →
        ∀ p : Model.Place, t.answer p.read = .ok (lastModel p calls)) ∧
    ∀ (s t : Session) (k : ModelCall), s.chip.faults = [] → k.run s = .ok () t →
      ∀ p : Model.Place, k.model? p = none → t.answer p.read = s.answer p.read := by
  constructor
  · intro settings calls t hrun p
    have hkept := ((Session.KeepsModels.start settings).calls calls).of_ok hrun
    rw [Session.answer_readModel hkept.faults, hkept.record]
    rfl
  · intro s t k hfaults hrun p hnone
    obtain ⟨hclear, hrecord⟩ := (k.ends_run hfaults).of_ok hrun
    have hsame : t.chip.modelRecord p = s.chip.modelRecord p := by
      rw [hrecord p, hnone]
      rfl
    rw [Session.answer_readModel hclear, Session.answer_readModel hfaults, hsame]

/-- Both models of a channel, the upper one first, and the only model of another channel twice. -/
def modelsInTurn : List ModelCall := [
  .setDual .tx2 { Model.blank with slot := .model1, magnitudeGain := 9 },
  .set .tx3 { Model.blank with outputShift := 7 },
  .setDual .tx2 { Model.blank with magnitudeGain := 3 },
  .settings default,
  .set .tx3 { Model.blank with bank := .bank2, compander := .bits9 }]

/-- The lower model does not reach into the upper one, the second write to a place replaces the
first, and a place before all that were written holds the blank model. One more write leaves its
neighbour. -/
theorem models_kept_apart_inTurn :
    ∃ t u, modelsInTurn.forM ModelCall.run (.start .initial default) = .ok () t ∧
      t.answer (Session.dualModel .tx2 .model1) =
        .ok { Model.blank with slot := .model1, magnitudeGain := 9 } ∧
      t.answer (Session.model .tx3) = .ok { Model.blank with bank := .bank2, compander := .bits9 } ∧
      t.answer (Session.model .tx2) = .ok Model.blank ∧
      (ModelCall.set .tx4 Model.blank).run t = .ok () u ∧
      u.answer (Session.model .tx3) = t.answer (Session.model .tx3) := by
  have hsucceeds : ((Session.start .initial default).answer (modelsInTurn.forM ModelCall.run >>=
      fun _ => (ModelCall.set .tx4 Model.blank).run)).isOk = true := by decide +kernel
  obtain ⟨hlast, hapart⟩ := models_kept_apart
  cases hrun : (modelsInTurn.forM ModelCall.run >>= fun _ =>
      (ModelCall.set .tx4 Model.blank).run) (.start .initial default) with
  | ok _ u =>
    obtain ⟨_, t, hcalls, hmore⟩ := exists_ok_of_bind hrun
    have hread := hlast default modelsInTurn t hcalls
    have hfaults := (((Session.KeepsModels.start default).calls modelsInTurn).of_ok hcalls).faults
    refine ⟨t, u, hcalls, hread (.dual .tx2 .model1 rfl), hread (.single .tx3),
      hread (.single .tx2), hmore, ?_⟩
    exact hapart t u _ hfaults hmore (.single .tx3) rfl
  | error e u =>
    unfold Session.answer at hsucceeds
    rw [hrun] at hsucceeds
    cases hsucceeds

end Predistortion
