import Predistortion.Proofs.Assignment

/-!
# One owner of the completion tag

A fresh chip, on which other features may own pins, goes through assignments of the completion pin,
on their own or as part of a configuration, without faults. `SoleOwner` says what the tag is
supposed to look like at every moment: one pin at most has it and drives the signal, pins that had
it before are inputs again, and the session reports the pin that was assigned last.

Main statement: this holds throughout exactly if no pin above GPIO15 is ever assigned
(`soleOwner_iff`). Such pins are accepted, but the tag is never looked for there, so the session
neither reports them nor takes the tag back (`gpio16_is_not_reported`).
-/

namespace Predistortion

open Session (setDonePin setConfig donePin)
open Capture (Config maxCapturePin)

/-! ## Runs -/

/-- A call that assigns the completion pin. -/
inductive Assignment where
  /-- The pin on its own. -/
  | pin (p : Pin)
  /-- A configuration. -/
  | config (c : Config)

namespace Assignment

/-- The pin that is asked for. -/
def target : Assignment → Pin
  | .pin p => p
  | .config c => c.donePin

/-- Carries out the call. -/
def run : Assignment → SessionM Unit
  | .pin p => setDonePin p
  | .config c => setConfig c

end Assignment

/-- A session, and the pins that were assigned so far, the newest first. -/
structure History where
  /-- The session. -/
  session : Session
  /-- The pins that were assigned. -/
  assigned : List Pin

namespace History

/-- The pins of the chip. -/
def pins (x : History) : PinTable := x.session.chip.pins

/-- The pin that was assigned last. -/
def last (x : History) : Pin := x.assigned.headD .unassigned

/-- A new session on a fresh chip on which other features own some pins. -/
def fresh (owners : Fin pinCount → Option UInt8) (settings : Settings) : History :=
  ⟨.start (.ownedBy owners) settings, []⟩

/-- The history after a call: an assignment counts if the call succeeds. -/
def after (x : History) (a : Assignment) : History :=
  match a.run x.session with
  | .ok _ t => ⟨t, a.target :: x.assigned⟩
  | .error _ t => ⟨t, x.assigned⟩

/-- The history after a run of calls. -/
def run (x : History) (calls : List Assignment) : History := calls.foldl after x

/-- The last call of a run is made after all others. -/
theorem run_snoc (x : History) (calls : List Assignment) (a : Assignment) :
    run x (calls ++ [a]) = after (run x calls) a := List.foldl_append

/-- The call succeeds. -/
def Accepts (x : History) (a : Assignment) : Prop := ∃ t, a.run x.session = .ok () t

/-- The completion tag has one owner, which the session knows. -/
structure SoleOwner (x : History) : Prop where
  /-- One pin at most has the tag. -/
  single : ∀ m n, x.pins.feature (.digital m) = .captureDone →
    x.pins.feature (.digital n) = .captureDone → m = n
  /-- The pin that has the tag is an output. -/
  output : ∀ n, x.pins.feature (.digital n) = .captureDone → x.pins.direction (.digital n) = .output
  /-- A pin that was assigned before and no longer has the tag is no output. -/
  released : ∀ p ∈ x.assigned, x.pins.feature p ≠ .captureDone → x.pins.direction p ≠ .output
  /-- The pin that is reported is the one that was assigned last. -/
  reported : ∃ t, donePin x.session = .ok x.last t
  /-- After the assignment was taken back no pin has the tag. -/
  unassigned : x.last = .unassigned → ∀ n, x.pins.feature (.digital n) ≠ .captureDone

/-! ## The invariant -/

/-- The tag and the outputs are at one pin, among the lower ones, or nowhere. -/
structure TagAt (t : PinTable) (p : Pin) : Prop where
  /-- The tag. -/
  tag : ∀ n, t.feature (.digital n) = .captureDone ↔ p = .digital n
  /-- The outputs. -/
  output : ∀ n, t.direction (.digital n) = .output ↔ p = .digital n
  /-- The pin is one of the lower pins. -/
  low : ∀ n, p = .digital n → n.val ≤ maxCapturePin

namespace TagAt

variable {t : PinTable} {p : Pin}

/-- The tag is found at the pin where it is, since this is a lower one and no other pin has it. -/
theorem tagged_eq (h : TagAt t p) : t.tagged = p := by
  cases p with
  | digital n =>
    refine PinTable.tagged_eq (h.low n rfl) ((h.tag n).2 rfl) fun m _ hm => ?_
    exact (Pin.digital.inj ((h.tag m).1 hm)).symm
  | unassigned =>
    refine PinTable.tagged_eq_unassigned_iff.2 fun n _ htag => ?_
    cases (h.tag n).1 htag

/-- Where the tag and the outputs are at one pin, the pin that has the tag drives the signal, as the
steps of an assignment need it. -/
theorem tagDrives (h : TagAt t p) : t.TagDrives :=
  PinTable.tagDrives_of_output fun n _ htag => (h.output n).2 ((h.tag n).1 htag)

/-- A move puts the tag at the new pin, if that is a lower one too. The old pin becomes an unused
input. -/
theorem moveTag (h : TagAt t p) {q : Pin} (hq : ∀ n, q = .digital n → n.val ≤ maxCapturePin) :
    TagAt (t.moveTag q) q := by
  refine ⟨fun n => ?_, fun n => ?_, hq⟩
  · rw [PinTable.feature_moveTag, h.tagged_eq]
    split
    · next hnew => exact iff_of_true rfl hnew.symm
    · next hnew =>
      refine iff_of_false ?_ (Ne.symm hnew)
      split
      · simp
      · next hold => exact fun htag => hold ((h.tag n).1 htag).symm
  · rw [PinTable.direction_moveTag, h.tagged_eq]
    split
    · next hnew => exact iff_of_true rfl hnew.symm
    · next hnew =>
      refine iff_of_false ?_ (Ne.symm hnew)
      split
      · simp
      · next hold => exact fun hout => hold ((h.output n).1 hout).symm

end TagAt

/-- The invariant: there are no faults, and the tag is at the pin that was assigned last. -/
structure Sound (x : History) : Prop where
  /-- No faults. -/
  faults : x.session.chip.faults = []
  /-- The tag. -/
  tagAt : TagAt x.pins x.last

/-- On a fresh chip there is no tag and no output, so both are at no pin. Other features may own
pins, but not by this tag. -/
theorem sound_fresh (owners : Fin pinCount → Option UInt8) (settings : Settings) :
    Sound (fresh owners settings) := by
  refine ⟨rfl, fun n => ?_, fun n => ?_, fun n hn => ?_⟩
  · refine iff_of_false (PinTable.feature_ownedBy_ne owners n) ?_
    rintro ⟨⟩
  · refine iff_of_false ?_ ?_
    · rw [show (fresh owners settings).pins = .ownedBy owners from rfl, PinTable.direction_ownedBy]
      rintro ⟨⟩
    · rintro ⟨⟩
  · cases hn

/-- Without faults a call moves the tag or leaves the pins alone. There is nothing in between, since
a refusal is rolled back. -/
theorem ends_assignment (a : Assignment) (s : Session) (hfaults : s.chip.faults = [])
    (hdrives : s.chip.pins.TagDrives) :
    Ends a.run s
      (fun _ u => u.chip.faults = [] ∧ u.chip.pins = s.chip.pins.moveTag a.target)
      (fun _ u => u.chip.faults = [] ∧ u.chip.pins = s.chip.pins) := by
  cases a with
  | pin p =>
    refine (ends_setDonePin p s hfaults hdrives).mono ?_ ?_
    · rintro _ u ⟨hf, hpins, -⟩
      exact ⟨hf, hpins⟩
    · rintro e u ⟨hf, hpins, -⟩
      exact ⟨hf, hpins⟩
  | config c =>
    refine (ends_setConfig c s hfaults hdrives).mono ?_ ?_
    · rintro _ u ⟨⟨-, hf⟩, -, -, hpins, -⟩
      exact ⟨hf, hpins⟩
    · rintro e u ⟨⟨-, hf⟩, hpins, -⟩
      exact ⟨hf, hpins⟩

/-- A call keeps the invariant, unless it assigns one of the upper pins. A call that fails leaves
all of it. -/
theorem Sound.after {x : History} (h : Sound x) (a : Assignment)
    (hlow : x.Accepts a → ∀ n, a.target = .digital n → n.val ≤ maxCapturePin) :
    Sound (x.after a) := by
  have hends := ends_assignment a x.session h.faults h.tagAt.tagDrives
  unfold History.after
  cases hrun : a.run x.session with
  | ok u t =>
    obtain ⟨hf, hpins⟩ := hends.of_ok hrun
    refine ⟨hf, ?_⟩
    show TagAt t.chip.pins a.target
    rw [hpins]
    exact h.tagAt.moveTag (hlow ⟨t, hrun⟩)
  | error e t =>
    obtain ⟨hf, hpins⟩ := hends.of_error hrun
    refine ⟨hf, ?_⟩
    show TagAt t.chip.pins x.last
    rw [hpins]
    exact h.tagAt

/-- The invariant holds throughout a run that assigns none of the upper pins, by one step for each
call. A call that is refused counts for nothing. -/
theorem Sound.run {x : History} (h : Sound x) (calls : List Assignment)
    (hlow : ∀ before a, before ++ [a] <+: calls → (x.run before).Accepts a →
      ∀ n, a.target = .digital n → n.val ≤ maxCapturePin) :
    Sound (x.run calls) :=
  foldl_keeps h fun before a hbefore hsound => hsound.after a (hlow before a hbefore)

/-- The invariant says more than was asked for: it knows where all outputs are, and not only those
that had the tag. -/
theorem Sound.soleOwner {x : History} (h : Sound x) : SoleOwner x := by
  have hsame {p : Pin} (hp : x.pins.feature p ≠ .captureDone) : x.pins.direction p ≠ .output := by
    cases p with
    | digital n => exact fun hout => hp ((h.tagAt.tag n).2 ((h.tagAt.output n).1 hout))
    | unassigned => rintro ⟨⟩
  refine ⟨fun m n hm hn => ?_, fun n hn => ?_, fun p _ hp => hsame hp, ?_, fun hlast n hn => ?_⟩
  · exact Pin.digital.inj (((h.tagAt.tag m).1 hm).symm.trans ((h.tagAt.tag n).1 hn))
  · exact (h.tagAt.output n).2 ((h.tagAt.tag n).1 hn)
  · obtain ⟨t, ht⟩ := donePin_of_no_faults h.faults
    rw [show x.session.chip.pins.tagged = x.last from h.tagAt.tagged_eq] at ht
    exact ⟨t, ht⟩
  · cases hlast.symm.trans ((h.tagAt.tag n).1 hn)

/-- The tag has one owner throughout a run exactly if no pin above GPIO15 is assigned in it. Such a
pin would not be found by the search, and as long as there is none the invariant holds. -/
theorem soleOwner_iff (owners : Fin pinCount → Option UInt8) (settings : Settings)
    (calls : List Assignment) :
    (∀ before, before <+: calls → SoleOwner ((fresh owners settings).run before)) ↔
      ∀ before a, before ++ [a] <+: calls → ((fresh owners settings).run before).Accepts a →
        ∀ n, a.target = .digital n → n.val ≤ maxCapturePin := by
  constructor
  · intro hsole before a hcalls haccepts n hn
    obtain ⟨t, hreported⟩ := (hsole _ hcalls).reported
    have hlast : ((fresh owners settings).run (before ++ [a])).last = a.target := by
      obtain ⟨u, hrun⟩ := haccepts
      rw [run_snoc]
      simp only [History.after, hrun]
      rfl
    rw [hlast, hn] at hreported
    exact (PinTable.tagged_eq_digital (eq_tagged_of_donePin hreported).symm).1
  · intro hlow before hbefore
    refine ((sound_fresh owners settings).run before fun part a hpart => ?_).soleOwner
    exact hlow part a (hpart.trans hbefore)

/-- Assigning GPIO16 is accepted, but then no pin is reported. The tag is there, and the search does
not get so far. -/
theorem gpio16_is_not_reported :
    ¬∀ before, before <+: [.pin (.digital 16)] →
      SoleOwner ((fresh (fun _ => none) default).run before) := by
  intro hsole
  obtain ⟨t, ht⟩ := (hsole _ (List.prefix_refl _)).reported
  have hlast : ((fresh (fun _ => none) default).run [.pin (.digital 16)]).last = .digital 16 := by
    decide +kernel
  rw [hlast] at ht
  have hlow := (PinTable.tagged_eq_digital (eq_tagged_of_donePin ht).symm).1
  exact absurd hlow (by decide)

end History

end Predistortion
