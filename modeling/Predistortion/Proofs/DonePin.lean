import Predistortion.Proofs.Frame
import Predistortion.Proofs.TagMove

/-!
# Assigning the completion pin

Main statement: an assignment that fails reports the error that interrupted it, whatever the undoing
comes to, and if every step could be undone it leaves the pins as they were (`setDonePin_restores`).
The tag has to be found where it is for that, and the pins have to have the directions that the
undoing assumes (`PinTable.Undoable`).

Without faults an assignment depends on two things only, whether another feature owns the pin and
whether its source group is free (`ends_setDonePin`).
-/

namespace Predistortion

open Session (requireFreeSource moveDonePin setDonePin sourceControl)
open Capture (maxCapturePin)

/-! ## The source group -/

/-- The source group of the pin serves no function but the completion tag. -/
def PinTable.SourceFree (t : PinTable) (p : Pin) : Prop :=
  ∀ n, p = .digital n → t.source (SourceGroup.ofNumber n) &&& 0x0F = sourceDefault ∨
    t.source (SourceGroup.ofNumber n) &&& 0x0F = sourceMemoryElement

/-- To look at the source group changes no pins; without faults it fails exactly if the group is in
use. -/
theorem ends_requireFreeSource (p : Pin) (s : Session) :
    Ends (requireFreeSource p) s
      (fun _ u => (u.chip.pins = s.chip.pins ∧ u.chip.faults = s.chip.faults) ∧
        s.chip.pins.SourceFree p)
      (fun _ u => (u.chip.pins = s.chip.pins ∧ u.chip.faults = s.chip.faults) ∧
        (s.chip.faults = [] → ¬s.chip.pins.SourceFree p)) := by
  cases p with
  | unassigned => exact ⟨⟨rfl, rfl⟩, fun n hn => by cases hn⟩
  | digital n =>
    change Ends (sourceControl (.digital n) >>= _) s _ _
    unfold sourceControl SourceGroup.ofPin SessionM.perform
    simp only [ends_bind, ends_ofExcept, ends_onChip, ends_pure]
    refine Chip.ends_perform_of ?_ fun e hne => ⟨⟨rfl, rfl⟩, fun hnil => absurd hnil hne⟩
    rw [ends_ite, Chip.reply_sourceGet]
    have hsame : (s.chip.served (.sourceGet (SourceGroup.ofNumber n))).pins = s.chip.pins ∧
        (s.chip.served (.sourceGet (SourceGroup.ofNumber n))).faults = s.chip.faults :=
      ⟨Chip.pins_sourceGet .., Chip.faults_served ..⟩
    refine ⟨fun hused => ⟨hsame, fun _ hfree => ?_⟩, fun hunused => ⟨hsame, ?_⟩⟩
    · rcases hfree n rfl with h | h
      · exact hused.1 h
      · exact hused.2 h
    · rintro m hm
      cases hm
      exact Decidable.or_iff_not_not_and_not.2 hunused

/-! ## An assignment that fails -/

/-- How an assignment is interrupted, before anything is undone: the error, and how far the change
of pins has come. -/
def interruption (p : Pin) (s : Session) : Option (Error × Rewiring) :=
  match requireFreeSource p s with
  | .error e u => some (e, ⟨u.chip, []⟩)
  | .ok _ u =>
    match moveDonePin p ⟨u.chip, []⟩ with
    | .error e r => some (e, r)
    | .ok .. => none

/-- The tag is at one pin at most, where it is looked for, and that pin is an output; the pin that
is asked for is this pin, an input or none. -/
structure PinTable.Undoable (t : PinTable) (p : Pin) : Prop where
  /-- At most one pin has the tag. -/
  single : ∀ m n, t.feature (.digital m) = .captureDone →
    t.feature (.digital n) = .captureDone → m = n
  /-- A pin that has the tag is one of the lower pins. -/
  low : ∀ n, t.feature (.digital n) = .captureDone → n.val ≤ maxCapturePin
  /-- A pin that has the tag is an output. -/
  output : ∀ n, t.feature (.digital n) = .captureDone → t.direction (.digital n) = .output
  /-- The pin that is asked for. -/
  asked : ∀ n, p = .digital n →
    t.feature (.digital n) = .captureDone ∨ t.direction (.digital n) = .input

namespace PinTable.Undoable

variable {t : PinTable} {p : Pin}

/-- Where an assignment can be undone, the pin at which the tag is found drives its signal. -/
theorem tagDrives (h : t.Undoable p) : t.TagDrives := tagDrives_of_output fun n _ => h.output n

/-- Where an assignment can be undone, the new pin is the one that has the tag, or it is a free
input. A rollback puts it into one of these states. -/
theorem oldOrClean (h : t.Undoable p) : t.OldOrClean p := by
  cases p with
  | unassigned => exact .inr ⟨by simp [feature], rfl⟩
  | digital n =>
    by_cases htag : t.feature (.digital n) = .captureDone
    · exact .inl (tagged_eq (h.low n htag) htag fun m _ hm => h.single m n hm htag).symm
    · exact .inr ⟨htag, (h.asked n rfl).resolve_left htag⟩

end PinTable.Undoable

/-- An assignment that fails reports the error that interrupted it and ends as the rollback leaves
it; if every step of the rollback succeeds, the pins are as they were. -/
theorem setDonePin_restores {p : Pin} {s t : Session} {e : Error}
    (hrun : setDonePin p s = .error e t) :
    ∃ r, interruption p s = some (e, r) ∧ t.chip = (r.log.rollback r.chip).2 ∧
      (s.chip.pins.Undoable p → (r.log.rollback r.chip).1 = 0 → t.chip.pins = s.chip.pins) := by
  have hfree := ends_requireFreeSource p s
  unfold interruption
  cases hrequire : requireFreeSource p s with
  | error e' u =>
    have hstop : setDonePin p s = .error e' u := by
      simp only [setDonePin, bind, EStateM.bind, hrequire]
    obtain ⟨rfl, rfl⟩ : e' = e ∧ u = t := by simpa [hstop] using hrun
    exact ⟨⟨u.chip, []⟩, rfl, rfl, fun _ _ => (hfree.of_error hrequire).1.1⟩
  | ok _ u =>
    obtain ⟨⟨hpins, hfaults⟩, -⟩ := hfree.of_ok hrequire
    cases hmove : moveDonePin p ⟨u.chip, []⟩ with
    | error e' r =>
      have hstop : setDonePin p s = .error e' { u with chip := (r.log.rollback r.chip).2 } := by
        simp only [setDonePin, bind, EStateM.bind, hrequire, Session.rewire, hmove]
      obtain ⟨rfl, rfl⟩ : e' = e ∧ { u with chip := (r.log.rollback r.chip).2 } = t := by
        simpa [hstop] using hrun
      refine ⟨r, by simp only [hmove], rfl, fun hundo hrollback => ?_⟩
      rw [← hpins] at hundo ⊢
      have hmoved := ends_moveDonePin u.chip p hundo.tagDrives fun _ => hundo.oldOrClean
      exact (hmoved.of_error hmove).1.restored hrollback
    | ok a r =>
      have hdone : setDonePin p s = .ok a { u with chip := r.chip } := by
        simp only [setDonePin, bind, EStateM.bind, hrequire, Session.rewire, hmove]
      rw [hdone] at hrun
      cases hrun

/-- A session whose completion pin is GPIO02 and whose source groups cannot be switched. -/
def stuckSources : Session :=
  .start { Chip.initial with pins := PinTable.initial.tag 2, faults := [.timeout .sourceSet] }
    default

/-- Moving the tag from GPIO02 to GPIO09 is stopped at the last of seven steps, and all is undone.
-/
theorem setDonePin_restores_stuckSources :
    ∃ e t, setDonePin (.digital 9) stuckSources = .error e t ∧
      (interruption (.digital 9) stuckSources).map (·.1) = some e ∧
      t.chip.pins = stuckSources.chip.pins := by
  obtain ⟨e, t, hrun⟩ : ∃ e t, setDonePin (.digital 9) stuckSources = .error e t := ⟨_, _, rfl⟩
  obtain ⟨r, hstop, -, hpins⟩ := setDonePin_restores hrun
  have hundo : stuckSources.chip.pins.Undoable (.digital 9) :=
    ⟨by decide, by decide, by decide, by decide⟩
  have hcount : (interruption (.digital 9) stuckSources).map
      (fun stop => (stop.2.log.rollback stop.2.chip).1) = some 0 := by decide
  refine ⟨e, t, hrun, by rw [hstop]; rfl, hpins hundo ?_⟩
  simpa [hstop] using hcount

/-! ## Without faults -/

/-- Without faults an assignment fails exactly if another feature owns the pin, or its source group
serves another function; the pins are then as they were. -/
theorem ends_setDonePin (p : Pin) (s : Session) (hfaults : s.chip.faults = [])
    (hdrives : s.chip.pins.TagDrives) :
    Ends (setDonePin p) s
      (fun _ u => u.chip.faults = [] ∧ u.chip.pins = s.chip.pins.moveTag p ∧
        s.chip.pins.Available p)
      (fun _ u => u.chip.faults = [] ∧ u.chip.pins = s.chip.pins ∧
        (s.chip.pins.SourceFree p → ¬s.chip.pins.Available p)) := by
  unfold setDonePin
  rw [ends_bind]
  refine (ends_requireFreeSource p s).mono ?_ ?_
  · rintro _ u ⟨⟨hpins, hf⟩, -⟩
    rw [hfaults] at hf
    rw [← hpins] at hdrives ⊢
    rw [ends_rewire]
    refine (ends_moveDonePin u.chip p hdrives fun hne => absurd hf hne).mono ?_ ?_
    · rintro _ r ⟨hrf, hmoved, havail⟩
      exact ⟨hrf.trans hf, hmoved, havail⟩
    · rintro e r ⟨hback, htaken⟩
      rw [hf] at hback
      refine ⟨?_, hback.restored_of_no_faults, fun _ => htaken hf⟩
      exact (UndoLog.faults_rollback ..).trans hback.faults
  · rintro e u ⟨⟨hpins, hf⟩, hused⟩
    exact ⟨hf.trans hfaults, hpins, fun hfree => absurd hfree (hused hfaults)⟩

end Predistortion
