import Predistortion.Proofs.Frame
import Predistortion.Proofs.Undoing

/-!
# Moving the completion tag

`PinTable.moveTag` says in one line what an assignment of the completion pin is meant to do to the
table of pins. Main statement: the computation that moves the tag, step by step through requests to
the chip, ends in one of two ways (`ends_moveDonePin`). Either every step succeeded, the new pin was
free for it, and the table is the moved one; or it was stopped, and then the log that it noted leads
back to the table at the start. Without faults the only thing that stops it is another owner of the
new pin.
-/

namespace Predistortion

open Session (findTagged switchSource releaseDonePin acquireDonePin moveDonePin donePinCandidates)
open Capture (maxCapturePin)

/-! ## The move as a change of the table -/

namespace PinTable

/-- The first of some pins that has the completion tag. -/
def firstTagged (t : PinTable) (pins : List Pin) : Pin :=
  (pins.find? (t.feature · = .captureDone)).getD .unassigned

/-- The pin at which the completion tag is found. -/
def tagged (t : PinTable) : Pin := t.firstTagged donePinCandidates

/-- The table after the tag was taken from a pin. -/
def untag (t : PinTable) (p : Pin) : PinTable := (t.setFeature p .unused).setDirection p .input

/-- The table after the tag was given to a pin. -/
def tag (t : PinTable) (n : Fin pinCount) : PinTable :=
  ((t.setFeature (.digital n) .captureDone).setDirection (.digital n) .output).setSource
    (SourceGroup.ofNumber n) sourceMemoryElement

/-- The table after the tag was moved. -/
def moveTag (t : PinTable) (p : Pin) : PinTable :=
  match p, t.tagged with
  | .digital n, old => (t.untag old).tag n
  | .unassigned, .digital m =>
    (t.untag (.digital m)).setSource (SourceGroup.ofNumber m) sourceDefault
  | .unassigned, .unassigned => t

/-- No other feature owns the pin. -/
def Available (t : PinTable) (p : Pin) : Prop := ∀ k, t.feature p ≠ .other k

/-- Taking the tag from a pin leaves it unused, and the owners of all other pins as they are. -/
@[simp] theorem feature_untag (t : PinTable) (p q : Pin) :
    (t.untag p).feature q = if q = p then .unused else t.feature q := by
  cases p with
  | digital n => simp [untag]
  | unassigned => cases q <;> rfl

/-- Taking the tag from a pin makes it an input, and leaves the directions of all other pins. -/
@[simp] theorem direction_untag (t : PinTable) (p q : Pin) :
    (t.untag p).direction q = if q = p then .input else t.direction q := by
  cases p with
  | digital n => simp [untag]
  | unassigned => cases q <;> rfl

/-- The tag is looked for at GPIO00 to GPIO15, and nowhere else. -/
theorem mem_donePinCandidates {p : Pin} :
    p ∈ donePinCandidates ↔ ∃ n : Fin pinCount, n.val ≤ maxCapturePin ∧ p = .digital n := by
  simp [donePinCandidates, eq_comm]

/-- What is found is a lower pin that has the tag. Nothing is said of other pins, which may have it
as well. -/
theorem tagged_eq_digital {t : PinTable} {n : Fin pinCount} (h : t.tagged = .digital n) :
    n.val ≤ maxCapturePin ∧ t.feature (.digital n) = .captureDone := by
  unfold tagged firstTagged at h
  cases hfind : donePinCandidates.find? (t.feature · = .captureDone) with
  | none => simp [hfind] at h
  | some p =>
    obtain rfl : p = .digital n := by simpa [hfind] using h
    obtain ⟨m, hm, heq⟩ := mem_donePinCandidates.1 (List.mem_of_find?_eq_some hfind)
    cases heq
    exact ⟨hm, by simpa using List.find?_some hfind⟩

/-- The pin at which the tag is found has it. -/
theorem feature_tagged {t : PinTable} (h : t.tagged.isAssigned) :
    t.feature t.tagged = .captureDone := by
  obtain ⟨n, hn⟩ := Pin.isAssigned_iff.1 h
  rw [hn]
  exact (tagged_eq_digital hn).2

/-- Nothing is found exactly if no lower pin has the tag. An upper pin may have it and is not
found. -/
theorem tagged_eq_unassigned_iff {t : PinTable} :
    t.tagged = .unassigned ↔ ∀ n : Fin pinCount, n.val ≤ maxCapturePin →
      t.feature (.digital n) ≠ .captureDone := by
  constructor
  · intro h n hn htag
    unfold tagged firstTagged at h
    cases hfind : donePinCandidates.find? (t.feature · = .captureDone) with
    | none =>
      have hnot := List.find?_eq_none.1 hfind _ (mem_donePinCandidates.2 ⟨n, hn, rfl⟩)
      exact hnot (by simpa using htag)
    | some p =>
      obtain rfl : p = .unassigned := by simpa [hfind] using h
      have htag : t.feature .unassigned = .captureDone := by simpa using List.find?_some hfind
      cases htag
  · intro h
    cases htagged : t.tagged with
    | digital n =>
      obtain ⟨hn, htag⟩ := tagged_eq_digital htagged
      exact absurd htag (h n hn)
    | unassigned => rfl

/-- The tag is found at the pin that is the only one among the lower pins to have it. Upper pins may
have it as well, since the search does not get to them. -/
theorem tagged_eq {t : PinTable} {n : Fin pinCount} (hn : n.val ≤ maxCapturePin)
    (htag : t.feature (.digital n) = .captureDone)
    (hsole : ∀ m : Fin pinCount, m.val ≤ maxCapturePin →
      t.feature (.digital m) = .captureDone → m = n) :
    t.tagged = .digital n := by
  cases htagged : t.tagged with
  | digital m =>
    obtain ⟨hm, hmtag⟩ := tagged_eq_digital htagged
    rw [hsole m hm hmtag]
  | unassigned => exact absurd htag (tagged_eq_unassigned_iff.1 htagged n hn)

/-- Where the tag is found, the pin drives the signal. -/
def TagDrives (t : PinTable) : Prop := t.tagged.isAssigned → t.direction t.tagged = .output

/-- If all lower pins that have the tag are outputs, so is the one at which it is found. -/
theorem tagDrives_of_output {t : PinTable} (h : ∀ n : Fin pinCount, n.val ≤ maxCapturePin →
    t.feature (.digital n) = .captureDone → t.direction (.digital n) = .output) :
    t.TagDrives := by
  intro hfound
  obtain ⟨n, hn⟩ := Pin.isAssigned_iff.1 hfound
  obtain ⟨hlow, htag⟩ := tagged_eq_digital hn
  rw [hn]
  exact h n hlow htag

/-- The pin is the one at which the tag is found, or a free input. -/
def OldOrClean (t : PinTable) (p : Pin) : Prop :=
  p = t.tagged ∨ t.feature p ≠ .captureDone ∧ t.direction p = .input

/-- A pin is available if it is unused or has the tag already, as the chip asks for a claim. What is
kept for no pin is that it is unused. -/
theorem available_iff {t : PinTable} {p : Pin} :
    t.Available p ↔ t.feature p = .unused ∨ t.feature p = .captureDone := by
  unfold Available
  cases t.feature p <;> simp

/-- The pin at which the tag is found is available. So is no pin, if it is not found. -/
theorem available_tagged (t : PinTable) : t.Available t.tagged := by
  rw [available_iff]
  cases h : t.tagged with
  | digital n => exact .inr (h ▸ feature_tagged (h ▸ rfl))
  | unassigned => exact .inl rfl

/-- Taking the tag away makes no pin available that was not. A pin that had the tag was available
already. -/
theorem available_untag_tagged {t : PinTable} {p : Pin} :
    (t.untag t.tagged).Available p ↔ t.Available p := by
  by_cases h : p = t.tagged
  · subst h
    refine ⟨fun _ => available_tagged t, fun _ => available_iff.2 (.inl ?_)⟩
    simp
  · simp [Available, h]

/-- The owners after a move: the new pin has the tag, the old one is unused, and all others are as
they were. -/
theorem feature_moveTag (t : PinTable) (p : Pin) (n : Fin pinCount) :
    (t.moveTag p).feature (.digital n) =
      if .digital n = p then .captureDone
      else if .digital n = t.tagged then .unused
      else t.feature (.digital n) := by
  unfold moveTag
  split
  · simp [tag]
  · next m hm => simp [hm]
  · next hm => simp [hm]

/-- The directions after a move: the new pin is an output, the old one an input, and all others are
as they were. -/
theorem direction_moveTag (t : PinTable) (p : Pin) (n : Fin pinCount) :
    (t.moveTag p).direction (.digital n) =
      if .digital n = p then .output
      else if .digital n = t.tagged then .input
      else t.direction (.digital n) := by
  unfold moveTag
  split
  · simp [tag]
  · next m hm => simp [hm]
  · next hm => simp [hm]

/-- A move leaves a source group as it is or gives it one of two values. Which one it is no
invariant needs to know. -/
theorem source_moveTag (t : PinTable) (p : Pin) (g : SourceGroup) :
    (t.moveTag p).source g = t.source g ∨ (t.moveTag p).source g = sourceMemoryElement ∨
      (t.moveTag p).source g = sourceDefault := by
  unfold moveTag
  split
  · next n =>
    by_cases h : g = SourceGroup.ofNumber n
    · simp [tag, h]
    · simp [tag, untag, h]
  · next m _ =>
    by_cases h : g = SourceGroup.ofNumber m
    · simp [h]
    · simp [untag, h]
  · exact .inl rfl

end PinTable

/-! ## Each step -/

/-- The search finds the first tagged pin and changes nothing; only a fault stops it. By induction
over the candidates. -/
theorem ends_findTagged (pins : List Pin) (chip : Chip) :
    Ends (findTagged pins) chip
      (fun p c => p = chip.pins.firstTagged pins ∧ c.pins = chip.pins ∧ c.faults = chip.faults)
      (fun _ c => (c.pins = chip.pins ∧ c.faults = chip.faults) ∧ chip.faults ≠ []) := by
  induction pins generalizing chip with
  | nil => exact ⟨rfl, rfl, rfl⟩
  | cons p rest ih =>
    unfold findTagged PinTable.firstTagged
    rw [ends_bind]
    refine Chip.ends_perform_of ?_ fun e h => ⟨⟨rfl, rfl⟩, h⟩
    rw [ends_ite, Chip.reply_featureGet, List.find?_cons]
    refine ⟨fun htag => ?_, fun htag => ?_⟩
    · simp [htag]
    · have hlater := ih (chip.served (.featureGet p))
      simp only [Chip.pins_featureGet, Chip.faults_served] at hlater
      simp only [htag, decide_false]
      exact hlater

variable {t : PinTable} {faults : List Fault} {r : Rewiring}

/-- Taking the tag from a pin that has it and is an output. It succeeds with the pin untagged, or is
stopped where the log leads back. -/
theorem ends_releaseDonePin (h : r.LeadsBack t faults) {p : Pin} (hp : p.isAssigned)
    (htag : r.chip.pins.feature p = .captureDone) (hout : r.chip.pins.direction p = .output) :
    Ends (releaseDonePin p) r
      (fun _ r' => r'.LeadsBack t faults ∧ r'.chip.pins = r.chip.pins.untag p)
      (fun _ r' => r'.LeadsBack t faults ∧ faults ≠ []) := by
  obtain ⟨n, rfl⟩ := Pin.isAssigned_iff.1 hp
  have hyield := PinTable.yield?_of_owner htag
  have hpins : (r.chip.served (.release (.digital n) .captureDone)).pins =
      r.chip.pins.setFeature (.digital n) .unused := by
    rw [Chip.pins_release, hyield]
    rfl
  have hnoted : Rewiring.LeadsBack t faults ⟨r.chip.served (.release (.digital n) .captureDone),
      .reacquire (.digital n) .captureDone :: r.log⟩ := by
    refine h.step ?_ (Chip.faults_served ..)
    rw [hpins]
    exact PinTable.claim?_setFeature htag
  unfold releaseDonePin
  rw [ends_bind]
  refine ends_rewiring_perform ?_ fun e hfaults => ⟨h.keep rfl rfl, h.faults ▸ hfaults⟩
  rw [ends_ite, Chip.reply_release, hyield]
  refine ⟨fun hrefused => ?_, fun _ => ?_⟩
  · cases hrefused
  · simp only [ends_bind, ends_note]
    refine ends_rewiring_perform ?_ fun e hfaults => ⟨hnoted.keep rfl rfl, hnoted.faults ▸ hfaults⟩
    refine ⟨hnoted.step ?_ (Chip.faults_served ..), ?_⟩
    · simp only [UndoStep.revert, Chip.pins_directionSet, hpins, PinTable.setDirection_setDirection]
      rw [PinTable.setDirection_self _ _ _ (by simpa using hout)]
    · rw [Chip.pins_directionSet, hpins]
      rfl

/-- Switching a source group. A failure leads back if the change so far did, since the switch is the
last step. -/
theorem ends_switchSource (h : faults ≠ [] → r.LeadsBack t faults)
    (hfaults : r.chip.faults = faults) (n : Fin pinCount) (v : UInt8) :
    Ends (switchSource (.digital n) v) r
      (fun _ r' => r'.chip.faults = faults ∧
        r'.chip.pins = r.chip.pins.setSource (SourceGroup.ofNumber n) v)
      (fun _ r' => r'.LeadsBack t faults ∧ faults ≠ []) := by
  unfold switchSource SourceGroup.ofPin
  rw [ends_bind, ends_ofExcept]
  dsimp only
  rw [ends_bind]
  refine ends_rewiring_perform ?_ fun e hne => ?_
  · rw [ends_bind]
    refine ends_rewiring_perform ?_ fun e hne => ?_
    · rw [ends_note]
      exact ⟨by simpa using hfaults, by simp⟩
    · have hne : faults ≠ [] := by simpa [hfaults] using hne
      exact ⟨(h hne).keep (by simp) (by simp), hne⟩
  · have hne : faults ≠ [] := hfaults ▸ hne
    exact ⟨(h hne).keep rfl rfl, hne⟩

/-- Making a pin the output of its source group. A failure leads back if the change so far did and
the pin was an input. -/
theorem ends_drivePin (h : faults ≠ [] → r.LeadsBack t faults) (hfaults : r.chip.faults = faults)
    (n : Fin pinCount) (v : UInt8)
    (hinput : faults ≠ [] → r.chip.pins.direction (.digital n) = .input) :
    Ends (do
        RewireM.perform (.directionSet (.digital n) .output)
        RewireM.note (.direction (.digital n) .input)
        switchSource (.digital n) v) r
      (fun _ r' => r'.chip.faults = faults ∧ r'.chip.pins =
        (r.chip.pins.setDirection (.digital n) .output).setSource (SourceGroup.ofNumber n) v)
      (fun _ r' => r'.LeadsBack t faults ∧ faults ≠ []) := by
  simp only [ends_bind, ends_note]
  refine ends_rewiring_perform ?_ fun e hne => ?_
  · have hnoted (hne : faults ≠ []) : Rewiring.LeadsBack t faults
        ⟨r.chip.served (.directionSet (.digital n) .output),
          .direction (.digital n) .input :: r.log⟩ := by
      refine (h hne).step ?_ (Chip.faults_served ..)
      simp only [UndoStep.revert, Chip.pins_directionSet, PinTable.setDirection_setDirection]
      rw [PinTable.setDirection_self _ _ _ (hinput hne)]
    refine (ends_switchSource hnoted ((Chip.faults_served ..).trans hfaults) n v).mono ?_ ?_
    · rintro _ r' ⟨hf, hp⟩
      rw [Chip.pins_directionSet] at hp
      exact ⟨hf, hp⟩
    · exact fun _ _ hfailed => hfailed
  · have hne : faults ≠ [] := hfaults ▸ hne
    exact ⟨(h hne).keep rfl rfl, hne⟩

/-- Giving the tag to a pin. It is refused exactly if another feature owns the pin. A fault on the
way leads back if the pin was a free input. -/
theorem ends_acquireDonePin (h : r.LeadsBack t faults) (n : Fin pinCount)
    (hclean : faults ≠ [] → r.chip.pins.feature (.digital n) ≠ .captureDone ∧
      r.chip.pins.direction (.digital n) = .input) :
    Ends (acquireDonePin (.digital n)) r
      (fun _ r' => r'.chip.faults = faults ∧ r'.chip.pins = r.chip.pins.tag n ∧
        r.chip.pins.Available (.digital n))
      (fun _ r' => r'.LeadsBack t faults ∧
        (faults = [] → ¬r.chip.pins.Available (.digital n))) := by
  unfold acquireDonePin
  rw [ends_bind]
  refine ends_rewiring_perform ?_ fun e hne =>
    ⟨h.keep rfl rfl, fun hnil => absurd (h.faults.trans hnil) hne⟩
  rw [ends_ite, Chip.reply_acquire]
  by_cases havail : r.chip.pins.Available (.digital n)
  · have hclaim := PinTable.claim?_of_free (PinTable.available_iff.1 havail)
    have hpins : (r.chip.served (.acquire (.digital n) .captureDone)).pins =
        r.chip.pins.setFeature (.digital n) .captureDone := by
      rw [Chip.pins_acquire, hclaim]
      rfl
    have hnoted (hne : faults ≠ []) : Rewiring.LeadsBack t faults
        ⟨r.chip.served (.acquire (.digital n) .captureDone),
          .release (.digital n) .captureDone :: r.log⟩ := by
      refine h.step ?_ (Chip.faults_served ..)
      rw [hpins]
      refine PinTable.yield?_setFeature ?_
      exact (PinTable.available_iff.1 havail).resolve_right (hclean hne).1
    rw [hclaim]
    refine ⟨fun hrefused => ?_, fun _ => ?_⟩
    · cases hrefused
    · rw [ends_bind, ends_note]
      refine (ends_drivePin hnoted ((Chip.faults_served ..).trans h.faults) n _ ?_).mono ?_ ?_
      · intro hne
        rw [hpins, PinTable.direction_setFeature]
        exact (hclean hne).2
      · rintro _ r' ⟨hf, hp⟩
        rw [hpins] at hp
        exact ⟨hf, hp, havail⟩
      · rintro e r' ⟨hback, hne⟩
        exact ⟨hback, fun hnil => absurd hnil hne⟩
  · have hclaim := PinTable.claim?_of_taken (mt PinTable.available_iff.2 havail)
    rw [hclaim]
    refine ⟨fun _ => ?_, fun hgranted => ?_⟩
    · refine ⟨h.keep ?_ (Chip.faults_served ..), fun _ => havail⟩
      rw [Chip.pins_acquire, hclaim]
      rfl
    · exact absurd rfl hgranted

/-- What follows when the tag was taken from the pin that had it: the new pin takes it, or the
source of the old one is put back. -/
theorem ends_settleDonePin (h : r.LeadsBack t faults) (hpins : r.chip.pins = t.untag t.tagged)
    (p : Pin) (hclean : faults ≠ [] → t.OldOrClean p) :
    Ends (if p.isAssigned then acquireDonePin p
        else if t.tagged.isAssigned then switchSource t.tagged sourceDefault else pure ()) r
      (fun _ r' => r'.chip.faults = faults ∧ r'.chip.pins = t.moveTag p ∧ t.Available p)
      (fun _ r' => r'.LeadsBack t faults ∧ (faults = [] → ¬t.Available p)) := by
  cases p with
  | digital n =>
    have hfree (hne : faults ≠ []) : r.chip.pins.feature (.digital n) ≠ .captureDone ∧
        r.chip.pins.direction (.digital n) = .input := by
      rw [hpins, PinTable.feature_untag, PinTable.direction_untag]
      rcases hclean hne with hold | hfree
      · simp [hold]
      · split
        · simp
        · exact hfree
    refine (ends_acquireDonePin h n hfree).mono ?_ ?_
    · rintro _ r' ⟨hf, hp, havail⟩
      rw [hpins] at hp havail
      exact ⟨hf, hp, PinTable.available_untag_tagged.1 havail⟩
    · rintro e r' ⟨hback, htaken⟩
      rw [hpins, PinTable.available_untag_tagged] at htaken
      exact ⟨hback, htaken⟩
  | unassigned =>
    have havail : t.Available .unassigned := PinTable.available_iff.2 (.inl rfl)
    cases hold : t.tagged with
    | digital m =>
      refine (ends_switchSource (fun _ => h) h.faults m _).mono ?_ ?_
      · rintro _ r' ⟨hf, hp⟩
        refine ⟨hf, ?_, havail⟩
        rw [hp, hpins, hold]
        unfold PinTable.moveTag
        rw [hold]
      · rintro e r' ⟨hback, hne⟩
        exact ⟨hback, fun hnil => absurd hnil hne⟩
    | unassigned =>
      refine ⟨h.faults, ?_, havail⟩
      rw [hpins]
      unfold PinTable.moveTag
      rw [hold]
      rfl

/-- Moving the tag. It is refused exactly if another feature owns the new pin. A fault on the way
leads back if the new pin is the old one or a free input. -/
theorem ends_moveDonePin (chip : Chip) (p : Pin)
    (hdrives : chip.pins.TagDrives) (hclean : chip.faults ≠ [] → chip.pins.OldOrClean p) :
    Ends (moveDonePin p) ⟨chip, []⟩
      (fun _ r => r.chip.faults = chip.faults ∧ r.chip.pins = chip.pins.moveTag p ∧
        chip.pins.Available p)
      (fun _ r => r.LeadsBack chip.pins chip.faults ∧
        (chip.faults = [] → ¬chip.pins.Available p)) := by
  unfold moveDonePin
  rw [ends_bind, ends_rewiring_onChip]
  refine (ends_findTagged donePinCandidates chip).mono ?_ ?_
  · rintro old c ⟨rfl, hpins, hfaults⟩
    have hstart : Rewiring.LeadsBack chip.pins chip.faults ⟨c, []⟩ :=
      (Rewiring.LeadsBack.start chip).keep hpins hfaults
    change Ends (if chip.pins.tagged.isAssigned then _ else _) _ _ _
    rw [ends_ite]
    refine ⟨fun hold => ?_, fun hold => ?_⟩
    · have htag : c.pins.feature chip.pins.tagged = .captureDone := by
        rw [hpins]
        exact PinTable.feature_tagged hold
      have hdir : c.pins.direction chip.pins.tagged = .output := by
        rw [hpins]
        exact hdrives hold
      rw [ends_bind]
      refine (ends_releaseDonePin hstart hold htag hdir).mono ?_ ?_
      · rintro _ r' ⟨hback, hp⟩
        refine ends_settleDonePin hback ?_ p hclean
        rw [hp]
        exact congrArg (PinTable.untag · _) hpins
      · rintro e r' ⟨hback, hne⟩
        exact ⟨hback, fun hnil => absurd hnil hne⟩
    · refine ends_settleDonePin hstart ?_ p hclean
      cases htag : chip.pins.tagged with
      | digital m => exact absurd (htag ▸ rfl) hold
      | unassigned => exact hpins
  · rintro e c ⟨⟨hpins, hfaults⟩, hne⟩
    exact ⟨(Rewiring.LeadsBack.start chip).keep hpins hfaults, fun hnil => absurd hnil hne⟩

end Predistortion
