import Predistortion.Proofs.DonePin
import Predistortion.Proofs.Lifecycle

/-!
# Configurations and the completion pin

A configuration assigns the completion pin between the routing of the trigger pin and the writing of
the record. Main statement: without faults, a configuration that is accepted moves the tag and takes
over the trigger pin (`ends_setConfig`). One that the check refuses changes neither. One that fails
later leaves the tag where it was, but has taken over the trigger pin.

`Chip.ownedBy` is a fresh chip on which other features own some of the pins.
-/

namespace Predistortion

open SessionM
open Session (setDonePin setConfig routeTriggerPin writeCapture donePin)
open Capture (Config)

/-! ## Fresh chips -/

namespace PinTable

/-- Free inputs, but for the pins that other features own. -/
def ownedBy (owners : Fin pinCount → Option UInt8) : PinTable :=
  { initial with features := Vector.ofFn fun n => ((owners n).map .other).getD .unused }

variable (owners : Fin pinCount → Option UInt8)

/-- A pin that another owner has is foreign, and all others are unused. None carries a tag of this
library yet. -/
@[simp] theorem feature_ownedBy (n : Fin pinCount) :
    (ownedBy owners).feature (.digital n) = ((owners n).map .other).getD .unused := by
  simp [feature_digital, ownedBy]

/-- After reset every pin is an input, whoever owns it. Ownership says nothing about who drives a
pin. -/
@[simp] theorem direction_ownedBy (p : Pin) : (ownedBy owners).direction p = .input := by
  cases p with
  | digital n => simp [direction_digital, ownedBy, initial]
  | unassigned => rfl

/-- After reset every source group is at its default. -/
@[simp] theorem source_ownedBy (g : SourceGroup) : (ownedBy owners).source g = sourceDefault := by
  cases g <;> rfl

/-- No pin shows completion before the first assignment. This starts the invariant of runs. -/
theorem feature_ownedBy_ne (n : Fin pinCount) :
    (ownedBy owners).feature (.digital n) ≠ .captureDone := by
  rw [feature_ownedBy]
  cases owners n <;> simp

end PinTable

/-- A fresh chip on which other features own some pins. -/
def Chip.ownedBy (owners : Fin pinCount → Option UInt8) : Chip :=
  { Chip.initial with pins := PinTable.ownedBy owners }

/-! ## Asking for the completion pin -/

/-- What is answered is the pin at which the tag is found. The question changes nothing by which it
could be another one. -/
theorem eq_tagged_of_donePin {s t : Session} {p : Pin} (h : donePin s = .ok p t) :
    p = s.chip.pins.tagged := by
  have hfind : Ends donePin s (fun p _ => p = s.chip.pins.tagged) (fun _ _ => True) := by
    unfold donePin
    rw [ends_onChip]
    exact (ends_findTagged _ s.chip).mono (fun _ _ hp => hp.1) fun _ _ _ => trivial
  exact hfind.of_ok h

/-- Without faults there is an answer: the search takes nothing but questions to the chip, and these
are all served. -/
theorem donePin_of_no_faults {s : Session} (h : s.chip.faults = []) :
    ∃ t, donePin s = .ok s.chip.pins.tagged t := by
  have hfind : Ends donePin s (fun _ _ => True) (fun _ _ => False) := by
    unfold donePin
    rw [ends_onChip]
    exact (ends_findTagged _ s.chip).mono (fun _ _ _ => trivial) fun _ _ hf => hf.2 h
  cases hrun : donePin s with
  | ok p t => exact ⟨t, by rw [eq_tagged_of_donePin hrun]⟩
  | error e t => exact (hfind.of_error hrun).elim

/-! ## Configuring -/

/-- The configuration passes the check, if there is one. -/
def Session.Passes (s : Session) (c : Config) : Prop := s.rangeCheck → c.check = .ok ()

/-- To route a trigger pin is remembered and leaves the pins alone. Without faults it cannot fail.
The route itself is no matter of pins, so nothing is said of it here. -/
theorem ends_routeTriggerPin (p : Pin) (s : Session) (hfaults : s.chip.faults = []) :
    Ends (routeTriggerPin p) s
      (fun _ u => u.settings = s.settings ∧ u.triggerPin = p ∧ u.chip.faults = [] ∧
        u.chip.pins = s.chip.pins)
      (fun _ _ => False) := by
  unfold routeTriggerPin
  rw [ends_bind]
  refine ends_perform_of_no_faults hfaults ?_
  rw [ends_modify]
  exact ⟨rfl, rfl, (Chip.faults_served ..).trans hfaults, Chip.pins_served ..⟩

/-- To write a part of the capture record leaves the pins and the trigger pin alone. Without faults
it cannot fail. -/
theorem ends_writeCapture (offset : UInt16) (data : Bytes) (s : Session)
    (hfaults : s.chip.faults = []) :
    Ends (writeCapture offset data) s
      (fun _ u => u.settings = s.settings ∧ u.triggerPin = s.triggerPin ∧ u.chip.faults = [] ∧
        u.chip.pins = s.chip.pins)
      (fun _ _ => False) :=
  ends_perform_of_no_faults hfaults
    ⟨rfl, rfl, (Chip.faults_served ..).trans hfaults, Chip.pins_served ..⟩

/-- What a configuration does once it has passed the check: the trigger pin is routed, the tag is
moved, and the record is written. -/
theorem ends_applyConfig (c : Config) (s : Session) (hfaults : s.chip.faults = [])
    (hdrives : s.chip.pins.TagDrives) :
    Ends (do
        routeTriggerPin c.triggerPin
        setDonePin c.donePin
        writeCapture 0 c.encode) s
      (fun _ u => (u.settings = s.settings ∧ u.chip.faults = []) ∧ u.triggerPin = c.triggerPin ∧
        u.chip.pins = s.chip.pins.moveTag c.donePin ∧ s.chip.pins.Available c.donePin)
      (fun _ u => (u.settings = s.settings ∧ u.chip.faults = []) ∧ u.triggerPin = c.triggerPin ∧
        u.chip.pins = s.chip.pins ∧
        (s.chip.pins.SourceFree c.donePin → ¬s.chip.pins.Available c.donePin)) := by
  rw [ends_bind]
  refine (ends_routeTriggerPin c.triggerPin s hfaults).mono ?_ fun _ _ hf => hf.elim
  rintro _ u ⟨hset, htrigger, hf, hpins⟩
  rw [← hpins] at hdrives ⊢
  have hkeep : Keeps (fun s : Session => (s.settings, s.triggerPin)) (setDonePin c.donePin) :=
    .setDonePin (fun _ _ => rfl) _
  rw [ends_bind]
  refine ((ends_setDonePin c.donePin u hf hdrives).and (hkeep u)).mono ?_ ?_
  · rintro _ v ⟨⟨hvf, hvpins, havail⟩, hvkeep⟩
    obtain ⟨hvset, hvtrigger⟩ := Prod.mk.inj hvkeep
    refine (ends_writeCapture _ _ v hvf).mono ?_ fun _ _ hf => hf.elim
    rintro _ w ⟨hwset, hwtrigger, hwf, hwpins⟩
    refine ⟨⟨?_, hwf⟩, ?_, hwpins.trans hvpins, havail⟩
    · rw [hwset, hvset, hset]
    · rw [hwtrigger, hvtrigger, htrigger]
  · rintro e v ⟨⟨hvf, hvpins, htaken⟩, hvkeep⟩
    obtain ⟨hvset, hvtrigger⟩ := Prod.mk.inj hvkeep
    exact ⟨⟨hvset.trans hset, hvf⟩, hvtrigger.trans htrigger, hvpins, htaken⟩

/-- The rest of a configuration, once it has passed the check. It fails only where the completion
pin has another owner, or where its source group is used by another function. -/
theorem ends_setConfig_of_passes (c : Config) (s : Session) (hfaults : s.chip.faults = [])
    (hdrives : s.chip.pins.TagDrives) (hpass : s.Passes c) :
    Ends (setConfig c) s
      (fun _ u => (u.settings = s.settings ∧ u.chip.faults = []) ∧ u.triggerPin = c.triggerPin ∧
        u.chip.pins = s.chip.pins.moveTag c.donePin ∧ s.chip.pins.Available c.donePin)
      (fun _ u => (u.settings = s.settings ∧ u.chip.faults = []) ∧ u.triggerPin = c.triggerPin ∧
        u.chip.pins = s.chip.pins ∧
        (s.chip.pins.SourceFree c.donePin → ¬s.chip.pins.Available c.donePin)) := by
  have happly := ends_applyConfig c s hfaults hdrives
  have hchecked : Ends (checked c.check) s (fun _ u => u = s) (fun _ _ => False) := by
    rw [ends_checked]
    split
    · next hrange =>
      rw [hpass hrange]
    · rfl
  unfold setConfig
  rw [ends_bind]
  refine hchecked.mono ?_ fun _ _ hf => hf.elim
  rintro _ _ rfl
  rw [ends_bind, ends_tracked]
  refine happly.mono (fun _ u hu => hu) fun e u hu => ?_
  split
  · exact hu
  · exact hu

/-- Without faults a configuration is accepted if it passes the check and no other feature owns the
completion pin, or its source group. Only a configuration that does not pass the check leaves the
trigger pin alone. -/
theorem ends_setConfig (c : Config) (s : Session) (hfaults : s.chip.faults = [])
    (hdrives : s.chip.pins.TagDrives) :
    Ends (setConfig c) s
      (fun _ u => (u.settings = s.settings ∧ u.chip.faults = []) ∧ s.Passes c ∧
        u.triggerPin = c.triggerPin ∧ u.chip.pins = s.chip.pins.moveTag c.donePin ∧
        s.chip.pins.Available c.donePin)
      (fun _ u => (u.settings = s.settings ∧ u.chip.faults = []) ∧ u.chip.pins = s.chip.pins ∧
        ((¬s.Passes c ∧ u.triggerPin = s.triggerPin) ∨
          (s.Passes c ∧ u.triggerPin = c.triggerPin ∧
            (s.chip.pins.SourceFree c.donePin → ¬s.chip.pins.Available c.donePin)))) := by
  by_cases hpass : s.Passes c
  · refine (ends_setConfig_of_passes c s hfaults hdrives hpass).mono ?_ ?_
    · rintro _ u ⟨hkept, htrigger, hpins, havail⟩
      exact ⟨hkept, hpass, htrigger, hpins, havail⟩
    · rintro e u ⟨hkept, htrigger, hpins, htaken⟩
      exact ⟨hkept, hpins, .inr ⟨hpass, htrigger, htaken⟩⟩
  · have hrange : s.rangeCheck = true :=
      Decidable.byContradiction fun hoff => hpass fun hon => absurd hon hoff
    unfold setConfig
    rw [ends_bind, ends_checked, if_pos hrange]
    cases hcheck : c.check with
    | ok => exact absurd (fun _ => hcheck) hpass
    | error e => exact ⟨⟨rfl, hfaults⟩, rfl, .inl ⟨hpass, rfl⟩⟩

end Predistortion
