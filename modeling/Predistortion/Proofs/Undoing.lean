import Predistortion.Proofs.Outcome

/-!
# What undoing does to the pins

Undoing goes through requests to the chip, and each of them can be refused. `UndoLog.revert` says
what a log makes of the table of pins when no request is refused. Main statements: a rollback in
which every step succeeds does exactly that, under any faults (`revert_of_rollback`), and without
faults a rollback succeeds if the log can be reverted (`rollback_of_revert`).

`Rewiring.LeadsBack` is the invariant of a change of pins: the log that was noted so far reverts the
table to the one at the start. It survives a step that is noted with its reverse
(`Rewiring.LeadsBack.step`) and every request that is refused.
-/

namespace Predistortion

/-! ## Claims on pins -/

namespace PinTable

/-- The table after a claim on a pin, if the table grants it. -/
def claim? (t : PinTable) (p : Pin) (f : Feature) : Option PinTable :=
  if p.isAssigned ∧ (t.feature p = .unused ∨ t.feature p = f) then some (t.setFeature p f) else none

/-- The table after a pin was given up, if its owner gave it up. -/
def yield? (t : PinTable) (p : Pin) (f : Feature) : Option PinTable :=
  if p.isAssigned ∧ t.feature p = f then some (t.setFeature p .unused) else none

variable {t : PinTable} {n : Fin pinCount} {f : Feature}

/-- A pin that is unused or has the feature already is granted. -/
theorem claim?_of_free (h : t.feature (.digital n) = .unused ∨ t.feature (.digital n) = f) :
    t.claim? (.digital n) f = some (t.setFeature (.digital n) f) := if_pos ⟨rfl, h⟩

/-- A pin that another feature owns is not granted. -/
theorem claim?_of_taken (h : ¬(t.feature (.digital n) = .unused ∨ t.feature (.digital n) = f)) :
    t.claim? (.digital n) f = none := if_neg fun hclaim => h hclaim.2

/-- A pin is given up for the feature that owns it. -/
theorem yield?_of_owner (h : t.feature (.digital n) = f) :
    t.yield? (.digital n) f = some (t.setFeature (.digital n) .unused) := if_pos ⟨rfl, h⟩

/-- A pin that was given up can be claimed back. -/
theorem claim?_setFeature (h : t.feature (.digital n) = f) :
    (t.setFeature (.digital n) .unused).claim? (.digital n) f = some t := by
  rw [claim?_of_free (by simp), setFeature_setFeature, setFeature_self _ _ _ h]

/-- A pin that was claimed can be given up again. -/
theorem yield?_setFeature (h : t.feature (.digital n) = .unused) :
    (t.setFeature (.digital n) f).yield? (.digital n) f = some t := by
  rw [yield?_of_owner (by simp), setFeature_setFeature, setFeature_self _ _ _ h]

end PinTable

namespace Chip

variable (chip : Chip) (p : Pin) (f : Feature) (d : Direction) (g : SourceGroup) (v : UInt8)

/-! ## Requests for pins -/

/-- The chip answers a claim by whether the table grants it. -/
@[simp] theorem reply_acquire :
    (chip.serve (.acquire p f)).1 = (chip.pins.claim? p f).isSome := by
  simp only [serve, PinTable.claim?, Bool.and_eq_true, Bool.or_eq_true, beq_iff_eq]
  split <;> rfl

/-- A claim that is granted changes the table, and one that is not leaves it. -/
@[simp] theorem pins_acquire :
    (chip.served (.acquire p f)).pins = (chip.pins.claim? p f).getD chip.pins := by
  rw [pins_served]
  simp only [serve, PinTable.claim?, Bool.and_eq_true, Bool.or_eq_true, beq_iff_eq]
  split <;> rfl

/-- The chip answers by whether the owner gave the pin up. -/
@[simp] theorem reply_release :
    (chip.serve (.release p f)).1 = (chip.pins.yield? p f).isSome := by
  simp only [serve, PinTable.yield?, Bool.and_eq_true, beq_iff_eq]
  split <;> rfl

/-- The table changes only if it was the owner who gave the pin up. -/
@[simp] theorem pins_release :
    (chip.served (.release p f)).pins = (chip.pins.yield? p f).getD chip.pins := by
  rw [pins_served]
  simp only [serve, PinTable.yield?, Bool.and_eq_true, beq_iff_eq]
  split <;> rfl

/-- A direction is set in the table. -/
@[simp] theorem pins_directionSet :
    (chip.served (.directionSet p d)).pins = chip.pins.setDirection p d :=
  pins_served ..

/-- The source of a group is set in the table. -/
@[simp] theorem pins_sourceSet :
    (chip.served (.sourceSet g v)).pins = chip.pins.setSource g v :=
  pins_served ..

/-- The source of a group is read off the table. -/
@[simp] theorem reply_sourceGet : (chip.serve (.sourceGet g)).1 = chip.pins.source g := rfl

/-- To ask for a source changes no pin. -/
@[simp] theorem pins_sourceGet : (chip.served (.sourceGet g)).pins = chip.pins := pins_served ..

/-- The feature of a pin is read off the table. -/
@[simp] theorem reply_featureGet : (chip.serve (.featureGet p)).1 = chip.pins.feature p := rfl

/-- To ask for a feature changes no pin. -/
@[simp] theorem pins_featureGet : (chip.served (.featureGet p)).pins = chip.pins := pins_served ..

end Chip

/-! ## Reverting -/

/-- The table after a step is reversed, if the table allows it. -/
def UndoStep.revert : UndoStep → PinTable → Option PinTable
  | .reacquire p f, t => t.claim? p f
  | .release p f, t => t.yield? p f
  | .direction p d, t => some (t.setDirection p d)
  | .source g v, t => some (t.setSource g v)

namespace UndoLog

/-- The table after all steps of a log are reversed, the newest first, if the table allows it. -/
def revert : UndoLog → PinTable → Option PinTable
  | [], t => some t
  | step :: older, t => (step.revert t).bind (revert older)

/-- To reverse a step has the effect of reverting it, or the table does not allow it, or a fault
refuses the request. -/
theorem ends_undo (step : UndoStep) (chip : Chip) :
    Ends step.undo chip
      (fun reversed c => c.faults = chip.faults ∧
        step.revert chip.pins = if reversed then some c.pins else none)
      (fun _ c => c.faults = chip.faults ∧ chip.faults ≠ []) := by
  have refused {q : Request} (e : TransportError) (h : chip.faults ≠ []) :
      (chip.refused q e).faults = chip.faults ∧ chip.faults ≠ [] := ⟨rfl, h⟩
  cases step with
  | reacquire p f =>
    refine Chip.ends_perform_of ⟨Chip.faults_served .., ?_⟩ refused
    unfold UndoStep.revert
    cases h : chip.pins.claim? p f <;> simp [h]
  | release p f =>
    refine Chip.ends_perform_of ⟨Chip.faults_served .., ?_⟩ refused
    unfold UndoStep.revert
    cases h : chip.pins.yield? p f <;> simp [h]
  | direction p d =>
    unfold UndoStep.undo
    rw [ends_bind]
    refine Chip.ends_perform_of ⟨Chip.faults_served .., ?_⟩ refused
    simp [UndoStep.revert]
  | source g v =>
    unfold UndoStep.undo
    rw [ends_bind]
    refine Chip.ends_perform_of ⟨Chip.faults_served .., ?_⟩ refused
    simp [UndoStep.revert]

/-- No step of a rollback changes the faults. It may still be refused by them, and then the rollback
goes on with the next step. -/
@[simp] theorem faults_rollback (log : UndoLog) (chip : Chip) :
    (log.rollback chip).2.faults = chip.faults := by
  induction log generalizing chip with
  | nil => rfl
  | cons step older ih =>
    have hstep := ends_undo step chip
    unfold rollback
    cases hrun : step.undo chip with
    | ok reversed c => cases reversed <;> exact (ih c).trans (hstep.of_ok hrun).1
    | error e c => exact (ih c).trans (hstep.of_error hrun).1

/-- A rollback in which every step succeeds reverts the log, under any faults. By induction over the
log, since a rollback that counts no failure did not fail in its first step either. -/
theorem revert_of_rollback (log : UndoLog) {chip : Chip} (h : (log.rollback chip).1 = 0) :
    log.revert chip.pins = some (log.rollback chip).2.pins := by
  induction log generalizing chip with
  | nil => rfl
  | cons step older ih =>
    have hstep := ends_undo step chip
    unfold rollback at h ⊢
    unfold revert
    cases hrun : step.undo chip with
    | ok reversed c =>
      cases reversed with
      | true =>
        rw [hrun] at h
        rw [(hstep.of_ok hrun).2]
        exact ih h
      | false =>
        rw [hrun] at h
        cases h
    | error e c =>
      rw [hrun] at h
      cases h

/-- Without faults every step of a rollback succeeds, if the log can be reverted. By induction over
the log, where the table after each step is the reverted one. -/
theorem rollback_of_revert (log : UndoLog) {chip : Chip} {t : PinTable} (hfaults : chip.faults = [])
    (h : log.revert chip.pins = some t) : (log.rollback chip).1 = 0 := by
  induction log generalizing chip with
  | nil => rfl
  | cons step older ih =>
    have hstep := ends_undo step chip
    unfold rollback
    unfold revert at h
    cases hrun : step.undo chip with
    | ok reversed c =>
      obtain ⟨hc, hrev⟩ := hstep.of_ok hrun
      rw [hrev] at h
      cases reversed with
      | true => exact ih (hc.trans hfaults) h
      | false => cases h
    | error e c => exact absurd hfaults (hstep.of_error hrun).2

end UndoLog

/-! ## Changes in progress -/

/-- The log of a change of pins leads back to a table, and the chip has given faults. -/
structure Rewiring.LeadsBack (t : PinTable) (faults : List Fault) (r : Rewiring) : Prop where
  /-- To revert the log gives the table. -/
  revert : r.log.revert r.chip.pins = some t
  /-- The faults of the chip. -/
  faults : r.chip.faults = faults

namespace Rewiring.LeadsBack

variable {t : PinTable} {faults : List Fault} {r : Rewiring}

/-- A change that was not begun leads back to the table that it starts from, since nothing has to be
undone. -/
theorem start (chip : Chip) : LeadsBack chip.pins chip.faults ⟨chip, []⟩ := ⟨rfl, rfl⟩

/-- A request that leaves the pins alone does not stand in the way of leading back. Refusals and
questions are of this kind. -/
theorem keep (h : r.LeadsBack t faults) {chip : Chip} (hpins : chip.pins = r.chip.pins)
    (hfaults : chip.faults = r.chip.faults) : LeadsBack t faults ⟨chip, r.log⟩ := by
  refine ⟨?_, hfaults.trans h.faults⟩
  rw [hpins]
  exact h.revert

/-- A step that is noted with its reverse. The reverse has to undo the step at the table that it has
led to. -/
theorem step (h : r.LeadsBack t faults) {chip : Chip} {step : UndoStep}
    (hpins : step.revert chip.pins = some r.chip.pins) (hfaults : chip.faults = r.chip.faults) :
    LeadsBack t faults ⟨chip, step :: r.log⟩ := by
  refine ⟨?_, hfaults.trans h.faults⟩
  unfold UndoLog.revert
  rw [hpins]
  exact h.revert

/-- A rollback in which every step succeeds restores the table, whatever faults there are. -/
theorem restored (h : r.LeadsBack t faults) (hrollback : (r.log.rollback r.chip).1 = 0) :
    (r.log.rollback r.chip).2.pins = t := by
  have hrevert := r.log.revert_of_rollback hrollback
  rw [h.revert] at hrevert
  exact (Option.some.inj hrevert).symm

/-- Without faults a rollback restores the table. -/
theorem restored_of_no_faults (h : r.LeadsBack t []) : (r.log.rollback r.chip).2.pins = t :=
  h.restored (r.log.rollback_of_revert h.faults h.revert)

end Rewiring.LeadsBack

end Predistortion
