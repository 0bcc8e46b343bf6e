import Predistortion.Proofs.Assignment

/-!
# Trigger pin and completion pin

A capture is triggered by one pin and shows its completion on another; a configuration that names
one pin for both does not pass the check. The check sees one configuration only, while the session
keeps the trigger pin and the chip keeps the completion pin of earlier ones. This module looks at a
fresh session that is configured any number of times, without faults and with the check.

Main statement: the two pins differ throughout exactly if no configuration passes the check, asks
for a completion pin that another feature owns, and would be triggered by the completion pin that is
in use (`pinsDiffer_iff`). Such a configuration fails, but only after its trigger pin was taken over
(`refused_configuration_shares_pin`).
-/

namespace Predistortion

open Session (setConfig donePin)
open Capture (Config maxCapturePin)

/-! ## What the check says -/

/-- A configuration that passes the check names different pins. It is the last of the demands that
the check makes. -/
theorem Capture.Config.triggerPin_ne_of_check {c : Config} (h : c.check = .ok ())
    (htrigger : c.triggerPin.isAssigned) : c.triggerPin ≠ c.donePin := by
  have ok_of_bind {x : Except Error Unit} {k : Unit → Except Error Unit}
      (h : x >>= k = .ok ()) : k () = .ok () := by
    cases x with
    | ok => exact h
    | error => cases h
  unfold Config.check at h
  have hlast := ok_of_bind (ok_of_bind (ok_of_bind (ok_of_bind (ok_of_bind (ok_of_bind h)))))
  rintro heq
  simp [Capture.requireRange, htrigger, ← heq] at hlast

namespace PinTable

/-- The tag is at most at one of the lower pins. -/
def LowTag (t : PinTable) : Prop :=
  ∀ m n : Fin pinCount, m.val ≤ maxCapturePin → n.val ≤ maxCapturePin →
    t.feature (.digital m) = .captureDone → t.feature (.digital n) = .captureDone → m = n

/-- After a move the new pin is the only one among the lower pins that can have the tag. The old one
gave it up, and no other one had it. -/
theorem LowTag.eq_of_moveTag {t : PinTable} (h : t.LowTag) {p : Pin} {n : Fin pinCount}
    (hn : n.val ≤ maxCapturePin) (htag : (t.moveTag p).feature (.digital n) = .captureDone) :
    .digital n = p := by
  rw [feature_moveTag] at htag
  split at htag
  · next hnew => exact hnew
  · split at htag
    · cases htag
    · next hold =>
      cases hfound : t.tagged with
      | digital m =>
        obtain ⟨hm, hmtag⟩ := tagged_eq_digital hfound
        rw [hfound, h n m hn hm htag hmtag] at hold
        exact absurd rfl hold
      | unassigned => exact absurd htag (tagged_eq_unassigned_iff.1 hfound n hn)

/-- After a move the tag is found at the new pin or not at all. It is not found if the new pin is an
upper one. -/
theorem LowTag.tagged_moveTag {t : PinTable} (h : t.LowTag) {p : Pin}
    (hfound : (t.moveTag p).tagged.isAssigned) : (t.moveTag p).tagged = p := by
  obtain ⟨n, hn⟩ := Pin.isAssigned_iff.1 hfound
  obtain ⟨hlow, htag⟩ := tagged_eq_digital hn
  rw [hn]
  exact h.eq_of_moveTag hlow htag

/-- What configurations keep of a table: who owns what, which source groups serve the tag, and that
the tag, where it can be found, is at one output. -/
structure Kept (owners : Fin pinCount → Option UInt8) (t : PinTable) : Prop where
  /-- Other features own what they owned. -/
  owned : ∀ n k, t.feature (.digital n) = .other k ↔ owners n = some k
  /-- The source groups serve no other function. -/
  source : ∀ g, t.source g = sourceDefault ∨ t.source g = sourceMemoryElement
  /-- One lower pin at most has the tag. -/
  lowTag : t.LowTag
  /-- A lower pin that has the tag is an output. -/
  output : ∀ n : Fin pinCount, n.val ≤ maxCapturePin → t.feature (.digital n) = .captureDone →
    t.direction (.digital n) = .output

namespace Kept

variable {owners : Fin pinCount → Option UInt8} {t : PinTable}

/-- On a fresh chip no pin has the tag, and the source groups serve no function yet. -/
theorem start (owners : Fin pinCount → Option UInt8) : (ownedBy owners).Kept owners := by
  refine ⟨fun n k => ?_, fun g => .inl (source_ownedBy owners g), ?_, ?_⟩
  · rw [feature_ownedBy]
    cases owners n <;> simp
  · intro m n _ _ hm
    exact absurd hm (feature_ownedBy_ne owners m)
  · intro n _ hn
    exact absurd hn (feature_ownedBy_ne owners n)

/-- What is kept implies that the pin at which the tag is found drives the signal. -/
theorem tagDrives (h : t.Kept owners) : t.TagDrives := tagDrives_of_output h.output

/-- No source group stands in the way of an assignment, since none of them serves another
function. -/
theorem sourceFree (h : t.Kept owners) (p : Pin) : t.SourceFree p := by
  intro n _
  rcases h.source (SourceGroup.ofNumber n) with hsource | hsource
  · exact .inl (by rw [hsource]; rfl)
  · exact .inr (by rw [hsource]; rfl)

/-- A pin is unavailable exactly if another feature owned it from the start, since no configuration
takes or gives such a pin. -/
theorem not_available_iff (h : t.Kept owners) {p : Pin} :
    ¬t.Available p ↔ ∃ n k, p = .digital n ∧ owners n = some k := by
  unfold Available
  simp only [ne_eq, Classical.not_forall, Classical.not_not]
  constructor
  · rintro ⟨k, hk⟩
    cases p with
    | digital n => exact ⟨n, k, rfl, (h.owned n k).1 hk⟩
    | unassigned => cases hk
  · rintro ⟨n, k, rfl, hk⟩
    exact ⟨k, (h.owned n k).2 hk⟩

/-- A move of the tag to a pin that is available keeps all of it. Other features lose none of their
pins. -/
theorem moveTag (h : t.Kept owners) {p : Pin} (hp : t.Available p) :
    (t.moveTag p).Kept owners := by
  refine ⟨fun n k => ?_, fun g => ?_, ?_, ?_⟩
  · rw [← h.owned n k, feature_moveTag]
    split
    · next hnew =>
      subst hnew
      exact iff_of_false (by simp) (hp k)
    · split
      · next hold =>
        have htag := (tagged_eq_digital hold.symm).2
        rw [htag]
        exact iff_of_false (by simp) (by simp)
      · rfl
  · rcases source_moveTag t p g with hsource | hsource | hsource
    · rw [hsource]
      exact h.source g
    · exact .inr hsource
    · exact .inl hsource
  · intro m n hm hn hmtag hntag
    have heq := (h.lowTag.eq_of_moveTag hm hmtag).trans (h.lowTag.eq_of_moveTag hn hntag).symm
    exact Pin.digital.inj heq
  · intro n hn htag
    rw [direction_moveTag, if_pos (h.lowTag.eq_of_moveTag hn htag)]

end Kept

end PinTable

/-! ## Runs -/

/-- The configuration passes the check, but another feature owns its completion pin. -/
def Capture.Config.Refused (owners : Fin pinCount → Option UInt8) (c : Config) : Prop :=
  c.check = .ok () ∧ ∃ n k, c.donePin = .digital n ∧ owners n = some k

namespace Session

/-- The session after it was configured, whether or not that succeeded. -/
def configured (s : Session) (c : Config) : Session :=
  match setConfig c s with
  | .ok _ t | .error _ t => t

/-- The session after it was configured several times. -/
def reconfigured (s : Session) (configs : List Config) : Session := configs.foldl configured s

/-- The last of some configurations is made after all others. -/
theorem reconfigured_snoc (s : Session) (configs : List Config) (c : Config) :
    s.reconfigured (configs ++ [c]) = (s.reconfigured configs).configured c := List.foldl_append

/-- The pin that triggers captures is not the pin that shows their completion. -/
def PinsDiffer (s : Session) : Prop :=
  ∃ p t, donePin s = .ok p t ∧ (p.isAssigned → s.triggerPin ≠ p)

/-- The invariant of a session that is only configured. -/
structure Managed (owners : Fin pinCount → Option UInt8) (s : Session) : Prop where
  /-- No faults. -/
  faults : s.chip.faults = []
  /-- Configurations are checked. -/
  rangeCheck : s.rangeCheck = true
  /-- The pins. -/
  kept : s.chip.pins.Kept owners

namespace Managed

variable {owners : Fin pinCount → Option UInt8} {s : Session}

/-- A fresh session that checks its arguments is managed: no fault is injected, and the pins are
those of a fresh chip. -/
theorem start (owners : Fin pinCount → Option UInt8) {settings : Settings}
    (h : settings.validation.rangeCheck = true) :
    (Session.start (.ownedBy owners) settings).Managed owners :=
  ⟨rfl, h, .start owners⟩

/-- The two pins differ if they do in the table. Without faults the session answers with the pin
that is found there. -/
theorem pinsDiffer_iff_tagged (h : s.Managed owners) :
    s.PinsDiffer ↔ (s.chip.pins.tagged.isAssigned → s.triggerPin ≠ s.chip.pins.tagged) := by
  constructor
  · rintro ⟨p, t, hp, hdiffer⟩
    rwa [eq_tagged_of_donePin hp] at hdiffer
  · intro hdiffer
    obtain ⟨t, ht⟩ := donePin_of_no_faults h.faults
    exact ⟨_, t, ht, hdiffer⟩

/-- A configuration either moves the tag and takes over the trigger pin, or does not pass the check
and changes neither, or is refused and takes over the trigger pin only. -/
theorem configured_cases (h : s.Managed owners) (c : Config) :
    (s.configured c).Managed owners ∧
      ((c.check = .ok () ∧ (s.configured c).triggerPin = c.triggerPin ∧
          (s.configured c).chip.pins = s.chip.pins.moveTag c.donePin ∧
          ¬c.Refused owners) ∨
        (c.check ≠ .ok () ∧ (s.configured c).triggerPin = s.triggerPin ∧
          (s.configured c).chip.pins = s.chip.pins) ∨
        (c.Refused owners ∧ (s.configured c).triggerPin = c.triggerPin ∧
          (s.configured c).chip.pins = s.chip.pins)) := by
  have hends := ends_setConfig c s h.faults h.kept.tagDrives
  have hpasses : s.Passes c ↔ c.check = .ok () := by simp [Passes, h.rangeCheck]
  rw [hpasses] at hends
  have hrange {t : Session} (hset : t.settings = s.settings) : t.rangeCheck = true := by
    unfold Session.rangeCheck
    rw [hset]
    exact h.rangeCheck
  unfold configured
  cases hrun : setConfig c s with
  | ok a t =>
    obtain ⟨⟨hset, hf⟩, hcheck, htrigger, hpins, havail⟩ := hends.of_ok hrun
    have hkept : t.chip.pins.Kept owners := hpins ▸ h.kept.moveTag havail
    refine ⟨⟨hf, hrange hset, hkept⟩, .inl ⟨hcheck, htrigger, hpins, ?_⟩⟩
    rintro ⟨-, howned⟩
    exact h.kept.not_available_iff.2 howned havail
  | error e t =>
    obtain ⟨⟨hset, hf⟩, hpins, hcases⟩ := hends.of_error hrun
    have hkept : t.chip.pins.Kept owners := hpins ▸ h.kept
    refine ⟨⟨hf, hrange hset, hkept⟩, .inr ?_⟩
    rcases hcases with ⟨hcheck, htrigger⟩ | ⟨hcheck, htrigger, htaken⟩
    · exact .inl ⟨hcheck, htrigger, hpins⟩
    · refine .inr ⟨⟨hcheck, ?_⟩, htrigger, hpins⟩
      exact h.kept.not_available_iff.1 (htaken (h.kept.sourceFree c.donePin))

/-- The pins still differ after a configuration, unless it was refused and would be triggered by the
completion pin. -/
theorem pinsDiffer_configured (h : s.Managed owners) (hdiffer : s.PinsDiffer) (c : Config)
    (hc : c.Refused owners → c.triggerPin.isAssigned → ∀ t, donePin s ≠ .ok c.triggerPin t) :
    (s.configured c).PinsDiffer := by
  obtain ⟨hnext, hcases⟩ := h.configured_cases c
  rw [h.pinsDiffer_iff_tagged] at hdiffer
  rw [hnext.pinsDiffer_iff_tagged]
  intro hfound
  rcases hcases with ⟨hcheck, htrigger, hpins, -⟩ | ⟨-, htrigger, hpins⟩ |
    ⟨hrefused, htrigger, hpins⟩
  · rw [hpins] at hfound ⊢
    rw [htrigger, h.kept.lowTag.tagged_moveTag hfound]
    intro hshared
    have hassigned : c.triggerPin.isAssigned := by
      rw [hshared, ← h.kept.lowTag.tagged_moveTag hfound]
      exact hfound
    exact c.triggerPin_ne_of_check hcheck hassigned hshared
  · rw [hpins] at hfound ⊢
    rw [htrigger]
    exact hdiffer hfound
  · rw [hpins] at hfound ⊢
    rw [htrigger]
    intro hshared
    obtain ⟨t, ht⟩ := donePin_of_no_faults h.faults
    exact hc hrefused (hshared ▸ hfound) t (hshared ▸ ht)

/-- A refused configuration that would be triggered by the completion pin makes the pins the same.
-/
theorem not_pinsDiffer_configured (h : s.Managed owners) {c : Config} (hc : c.Refused owners)
    (htrigger : c.triggerPin.isAssigned) {t : Session} (hdone : donePin s = .ok c.triggerPin t) :
    ¬(s.configured c).PinsDiffer := by
  obtain ⟨hnext, hcases⟩ := h.configured_cases c
  have hshared := eq_tagged_of_donePin hdone
  rw [hnext.pinsDiffer_iff_tagged]
  intro hdiffer
  rcases hcases with ⟨-, -, -, haccepted⟩ | ⟨hcheck, -⟩ | ⟨-, htaken, hpins⟩
  · exact haccepted hc
  · exact hcheck hc.1
  · rw [hpins, ← hshared, htaken] at hdiffer
    exact hdiffer htrigger rfl

/-- The pins differ throughout a run without such configurations, by one step for each of them. -/
theorem pinsDiffer_reconfigured (h : s.Managed owners) (hdiffer : s.PinsDiffer)
    (configs : List Config)
    (hnone : ∀ before c, before ++ [c] <+: configs → c.Refused owners →
      c.triggerPin.isAssigned → ∀ t, donePin (s.reconfigured before) ≠ .ok c.triggerPin t) :
    (s.reconfigured configs).PinsDiffer := by
  have hrun : (s.reconfigured configs).Managed owners ∧ (s.reconfigured configs).PinsDiffer := by
    refine foldl_keeps (I := fun s : Session => s.Managed owners ∧ s.PinsDiffer) ⟨h, hdiffer⟩ ?_
    rintro before c hbefore ⟨hmanaged, hstill⟩
    refine ⟨(hmanaged.configured_cases c).1, ?_⟩
    exact hmanaged.pinsDiffer_configured hstill c (hnone before c hbefore)
  exact hrun.2

/-- A run of configurations keeps the invariant. -/
theorem reconfigured (h : s.Managed owners) (configs : List Config) :
    (s.reconfigured configs).Managed owners :=
  foldl_keeps h fun _ c _ hmanaged => (hmanaged.configured_cases c).1

end Managed

/-- The two pins differ throughout a run of configurations exactly if none of them is refused while
its trigger pin is the completion pin in use. -/
theorem pinsDiffer_iff (owners : Fin pinCount → Option UInt8) {settings : Settings}
    (hcheck : settings.validation.rangeCheck = true) (configs : List Config) :
    (∀ before, before <+: configs →
        ((Session.start (.ownedBy owners) settings).reconfigured before).PinsDiffer) ↔
      ∀ before c, before ++ [c] <+: configs → c.Refused owners → c.triggerPin.isAssigned →
        ∀ t, donePin ((Session.start (.ownedBy owners) settings).reconfigured before) ≠
          .ok c.triggerPin t := by
  have hstart := Managed.start owners hcheck
  constructor
  · intro hdiffer before c hconfigs hrefused htrigger t hdone
    have hlater := hdiffer _ hconfigs
    rw [reconfigured_snoc] at hlater
    exact (hstart.reconfigured before).not_pinsDiffer_configured hrefused htrigger hdone hlater
  · intro hnone before hbefore
    refine hstart.pinsDiffer_reconfigured ?_ before fun part c hpart => ?_
    · rw [hstart.pinsDiffer_iff_tagged]
      intro hfound hnone
      rw [← hnone] at hfound
      cases hfound
    · exact hnone part c (hpart.trans hbefore)

/-- A plain configuration that asks for two pins. -/
def plainConfig (trigger done : Fin pinCount) : Config :=
  { (default : Config) with triggerPin := .digital trigger, donePin := .digital done }

/-- A fresh session; another feature owns GPIO07. -/
def gpio7Owned : Session :=
  .start (.ownedBy fun n => if n.val = 7 then some 1 else none) default

/-- A refused configuration does no harm if it would be triggered by a pin that is not in use. The
second configuration is refused here, and the pins still differ. -/
theorem pinsDiffer_gpio7Owned :
    (gpio7Owned.reconfigured [plainConfig 3 5]).PinsDiffer ∧
      (gpio7Owned.reconfigured [plainConfig 3 5, plainConfig 4 7]).PinsDiffer := by
  have hall : ∀ before, before <+: [plainConfig 3 5, plainConfig 4 7] →
      (gpio7Owned.reconfigured before).PinsDiffer := by
    refine (pinsDiffer_iff _ rfl _).2 fun before c hbefore hrefused _ t hdone => ?_
    cases before with
    | nil =>
      obtain rfl : c = plainConfig 3 5 := by simpa using hbefore
      obtain ⟨-, n, k, hn, hk⟩ := hrefused
      cases hn
      cases hk
    | cons c' before =>
      obtain ⟨rfl, hrest⟩ := List.cons_prefix_cons.1 hbefore
      cases before with
      | nil =>
        obtain rfl : c = plainConfig 4 7 := by simpa using hrest
        exact absurd (eq_tagged_of_donePin hdone) (by decide +kernel)
      | cons => simp at hrest
  exact ⟨hall _ ⟨[_], rfl⟩, hall _ (List.prefix_refl _)⟩

/-- A configuration whose completion pin GPIO07 is owned by another feature is refused, but from
then on GPIO05, which shows completion, also triggers captures. -/
theorem refused_configuration_shares_pin :
    ¬∀ before, before <+: [plainConfig 3 5, plainConfig 5 7] →
      (gpio7Owned.reconfigured before).PinsDiffer := by
  intro hdiffer
  obtain ⟨p, t, hdone, hne⟩ := hdiffer _ (List.prefix_refl _)
  have hpins : (gpio7Owned.reconfigured [plainConfig 3 5, plainConfig 5 7]).chip.pins.tagged =
      .digital 5 := by decide +kernel
  have htrigger : (gpio7Owned.reconfigured [plainConfig 3 5, plainConfig 5 7]).triggerPin =
      .digital 5 := by decide +kernel
  obtain rfl := (eq_tagged_of_donePin hdone).trans hpins
  exact hne rfl htrigger

end Session

end Predistortion
