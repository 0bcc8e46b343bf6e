import Mathlib.Data.List.Induction
import Predistortion.Proofs.FailedPhase
import Predistortion.Proofs.Polling

/-!
# Completed captures are reported once

A session polls while the firmware completes captures and faults come and go. `Happening` is one of
these things, and a run is any sequence of them. Main statement (`completions_reported_once`): as
long as no fault hides that a command of a poll was not carried out, polls answer yes at most as
often as captures completed, and each time they leave the flag cleared. In a run without faults, in
which the session is not failed at the start and looks at clocks at all, a poll always answers, and
it answers yes exactly if a capture completed since the flag was last consumed
(`Happening.Pending`).

The first part is carried by a sum that no happening increases by more than it completes: the
reports so far, and one more if the flag is set (`reports_add_flag_le`). The second part is carried
by what a single happening makes of the flag (`flag_after_iff`).
-/

namespace Predistortion

open Session (pollDone)

/-! ## Happenings -/

/-- What may happen to a session and its chip. -/
inductive Happening where
  /-- An operation is called. -/
  | call (o : Operation)
  /-- The firmware completes a capture. -/
  | complete
  /-- The firmware takes the flag back. -/
  | withdraw
  /-- From now on captures complete as soon as they are triggered, or no longer do. -/
  | autoComplete (on : Bool)
  /-- A fault comes up. -/
  | inject (f : Fault)
  /-- All faults go away. -/
  | clearFaults

namespace Happening

/-- The session afterwards. -/
def after (s : Session) : Happening → Session
  | .call o => Event.after s (.call o)
  | .complete => { s with chip := { s.chip with captureDone := true } }
  | .withdraw => { s with chip := { s.chip with captureDone := false } }
  | .autoComplete on => { s with chip := { s.chip with autoComplete := on } }
  | .inject f => { s with chip := s.chip.inject f }
  | .clearFaults => { s with chip := s.chip.clearFaults }

/-- The session after a run. -/
def run (s : Session) (events : List Happening) : Session := events.foldl after s

/-- A run ends with its last event. Inductions over runs take off this event. -/
theorem run_snoc (s : Session) (events : List Happening) (x : Happening) :
    run s (events ++ [x]) = after (run s events) x := List.foldl_append

/-- How many captures complete. -/
def completions (s : Session) : Happening → Nat
  | .complete => 1
  | .call o =>
    if s.chip.autoComplete then (after s (.call o)).chip.triggers - s.chip.triggers else 0
  | _ => 0

/-- How many polls answer yes. -/
def reports (s : Session) : Happening → Nat
  | .call .pollDone =>
    match pollDone s with
    | .ok true _ => 1
    | _ => 0
  | _ => 0

/-- The total of a count over a run. -/
def total (count : Session → Happening → Nat) (s : Session) : List Happening → Nat
  | [] => 0
  | x :: later => count s x + total count (x.after s) later

/-- The flag is consumed: by a poll that answers yes, by clearing it, or by taking it back. -/
def Consumes (s : Session) : Happening → Prop
  | .call .pollDone => ∃ t, pollDone s = .ok true t
  | .call .clearDone | .withdraw => True
  | _ => False

/-- A capture completed in the run, and since then the flag was not consumed. -/
def Pending (s : Session) (events : List Happening) : Prop :=
  ∃ before x meanwhile, events = before ++ x :: meanwhile ∧ 0 < completions (run s before) x ∧
    ∀ part y, part ++ [y] <+: meanwhile → ¬y.Consumes (run s (before ++ x :: part))

/-- No fault of the run hides that a command of a poll was not carried out. -/
def Honest (s : Session) (events : List Happening) : Prop :=
  (∀ f ∈ s.chip.faults, f.Honest) ∧ ∀ f, .inject f ∈ events → f.Honest

/-- There is no fault in the run. -/
def FaultFree (s : Session) (events : List Happening) : Prop :=
  s.chip.faults = [] ∧ ∀ f, .inject f ∉ events

/-! ## Counting reports -/

variable {s : Session}

/-- A call completes a capture exactly if it triggers one and the firmware completes captures at
once. Else a capture is completed by an event from outside. -/
theorem completions_call_pos {o : Operation} :
    0 < completions s (.call o) ↔
      s.chip.autoComplete = true ∧ s.chip.triggers < (after s (.call o)).chip.triggers := by
  unfold completions
  dsimp only
  split
  · next hauto => simp only [hauto, true_and]; omega
  · next hauto => simp [hauto]

/-- How a call ends, in terms of the session afterwards. The two ways to end are one where only the
state counts. -/
theorem after_call_of_ends {o : Operation} {P : Session → Prop}
    (h : Ends o.run s (fun _ t => P t) (fun _ t => P t)) : P (after s (.call o)) := by
  show P (Event.after s (.call o))
  cases hrun : o.run s with
  | ok a t => rw [Event.after_call_of_ok hrun]; exact h.of_ok hrun
  | error e t => rw [Event.after_call_of_error hrun]; exact h.of_error hrun

/-- Beyond what the operation itself clears, no call takes back what the firmware has counted. -/
theorem progress_call (o : Operation) :
    s.chip.Progress o.clears (after s (.call o)).chip :=
  after_call_of_ends (ends_run_progress o s)

/-- No call injects a fault or clears one, so that an honest session stays honest through its
calls. -/
theorem faults_call (o : Operation) : (after s (.call o)).chip.faults = s.chip.faults := by
  have hkept := ends_run_healthily o s
  exact after_call_of_ends (P := fun t => t.chip.faults = s.chip.faults)
    (hkept.mono (fun _ _ ht => ht.2) fun _ _ ht => ht.1.2)

/-- A call raises the flag only if captures complete in it. Stated as a bound, so that a run can be
summed up. -/
theorem flag_call_le (o : Operation) :
    (after s (.call o)).chip.captureDone.toNat ≤
      s.chip.captureDone.toNat + completions s (.call o) := by
  have hraised := (progress_call (s := s) o).raised
  cases hflag : (after s (.call o)).chip.captureDone with
  | false => simp
  | true =>
    rcases hraised hflag with hbefore | hcompleted
    · rw [hbefore]
      exact Nat.le_add_right _ _
    · have hpos := completions_call_pos.2 hcompleted
      show 1 ≤ _
      omega

/-- The sum that carries the count: with one more for the flag, the reports do not grow by more than
the completions. -/
theorem reports_add_flag_after_le (hhonest : ∀ f ∈ s.chip.faults, f.Honest) (x : Happening) :
    reports s x + (x.after s).chip.captureDone.toNat ≤
      s.chip.captureDone.toNat + completions s x := by
  cases x with
  | call o =>
    by_cases hpoll : o = .pollDone
    · subst hpoll
      have hends := ends_pollDone hhonest
      have hcall := flag_call_le (s := s) .pollDone
      cases hrun : pollDone s with
      | ok complete t =>
        -- what is reported is taken from the flag
        obtain ⟨hflag, hcaptures⟩ := hends.of_ok hrun
        have hafter : after s (.call .pollDone) = t := Event.after_call_of_ok hrun
        have hcleared : t.chip.captureDone = false := congrArg (·.1) hcaptures
        rw [hafter, hcleared, ← hflag]
        cases complete <;> simp [reports, hrun]
      | error e t =>
        have hnone : reports s (.call .pollDone) = 0 := by simp only [reports, hrun]
        omega
    · have hnone : reports s (.call o) = 0 := by
        cases o with
        | pollDone => exact absurd rfl hpoll
        | _ => rfl
      have hcall := flag_call_le (s := s) o
      omega
  | complete => exact Nat.le_add_left _ _
  | withdraw => exact Nat.zero_le _
  | autoComplete on => exact Nat.le_of_eq (Nat.zero_add _)
  | inject f => exact Nat.le_of_eq (Nat.zero_add _)
  | clearFaults => exact Nat.le_of_eq (Nat.zero_add _)

/-- Honest faults stay honest: a call leaves them, and an event injects honest ones only. -/
theorem Honest.after {x : Happening} {later : List Happening} (h : Honest s (x :: later)) :
    Honest (x.after s) later := by
  obtain ⟨hfaults, hinjected⟩ := h
  refine ⟨fun f hf => ?_, fun f hf => hinjected f (List.mem_cons_of_mem _ hf)⟩
  cases x with
  | call o =>
    rw [faults_call] at hf
    exact hfaults f hf
  | inject g =>
    rcases List.mem_append.1 hf with hold | hnew
    · exact hfaults f hold
    · rw [List.mem_singleton.1 hnew]
      exact hinjected g List.mem_cons_self
  | clearFaults => cases hf
  | _ => exact hfaults f hf

/-- The sum over a run. What was reported and what is still in the flag is no more than what
completed and what was in the flag before. -/
theorem reports_add_flag_le {events : List Happening} (h : Honest s events) :
    total reports s events + (run s events).chip.captureDone.toNat ≤
      s.chip.captureDone.toNat + total completions s events := by
  induction events generalizing s with
  | nil => exact Nat.le_of_eq (Nat.add_comm _ _)
  | cons x later ih =>
    have hstep := reports_add_flag_after_le h.1 x
    have hlater := ih h.after
    have hrun : run s (x :: later) = run (x.after s) later := rfl
    rw [hrun]
    simp only [total]
    omega

/-- The faults at the end of a run are honest, so that a poll that comes then is answered
truthfully. -/
theorem Honest.run {events : List Happening} (h : Honest s events) :
    ∀ f ∈ (run s events).chip.faults, f.Honest := by
  induction events generalizing s with
  | nil => exact h.1
  | cons x later ih => exact ih h.after

/-! ## The flag without faults -/

/-- There are no faults, clocks are looked at, and the session is not failed. -/
structure Healthy (s : Session) : Prop where
  /-- No faults. -/
  faults : s.chip.faults = []
  /-- Clocks are looked at. -/
  attempts : s.settings.clock.attempts ≠ 0
  /-- The session is not failed. -/
  phase : s.phase ≠ .failed

namespace Healthy

/-- In a healthy session no fault forges an answer of the firmware, because there is no fault at
all. -/
theorem honest (h : Healthy s) : ∀ f ∈ s.chip.faults, f.Honest := by
  rw [h.faults]
  simp

/-- Without faults a call does not fail the session. It may be refused, but a refusal is no failure
of the hardware. -/
theorem call (h : Healthy s) (o : Operation) : Healthy (after s (.call o)) := by
  refine after_call_of_ends (P := Healthy) ?_
  refine ((ends_run_healthily o s).and (phaseLaw_run o s)).mono ?_ ?_
  · rintro a t ⟨⟨hsettings, hfaults⟩, hphase⟩
    refine ⟨hfaults.trans h.faults, hsettings ▸ h.attempts, ?_⟩
    rw [hphase]
    exact o.next_ne_failed a h.phase
  · rintro e t ⟨⟨⟨hsettings, hfaults⟩, hblame⟩, hphase⟩
    refine ⟨hfaults.trans h.faults, hsettings ▸ h.attempts, ?_⟩
    rw [hphase, hblame h.faults h.attempts]
    exact h.phase

/-- Only a fault that comes up does harm. Whatever else happens leaves the session healthy. -/
theorem after (h : Healthy s) {x : Happening} (hx : ∀ f, x ≠ .inject f) : Healthy (x.after s) := by
  cases x with
  | call o => exact h.call o
  | inject f => exact absurd rfl (hx f)
  | clearFaults => exact ⟨rfl, h.attempts, h.phase⟩
  | _ => exact ⟨h.faults, h.attempts, h.phase⟩

/-- A run in which no fault is injected keeps a session healthy, by one step for each event. -/
theorem run (h : Healthy s) {events : List Happening} (hevents : ∀ f, .inject f ∉ events) :
    Healthy (run s events) := by
  refine foldl_keeps h fun before x hbefore hhealthy => hhealthy.after fun f hx => ?_
  refine hevents f (hbefore.subset ?_)
  simp [hx]

end Healthy

/-- What a poll makes of the flag: it answers it and leaves it cleared, and it does succeed. Faults
and the phase `failed` are all that could keep it from this, and a healthy session has neither. -/
theorem exists_pollDone (h : Healthy s) :
    ∃ t, pollDone s = .ok s.chip.captureDone t ∧ t.chip.captures = (false, s.chip.triggers) := by
  have hends := ends_pollDone h.honest
  cases hrun : pollDone s with
  | ok complete t =>
    obtain ⟨rfl, hcaptures⟩ := hends.of_ok hrun
    exact ⟨t, rfl, hcaptures⟩
  | error e t =>
    rcases hends.of_error hrun with hfailed | hfaults
    · exact absurd hfailed h.phase
    · exact absurd h.faults hfaults

/-- What a call that does not clear the flag makes of it: it is set if it was set, or if a capture
completes in the call. -/
theorem flag_call_iff {o : Operation} (ho : o.clears = false) :
    (after s (.call o)).chip.captureDone = true ↔
      0 < completions s (.call o) ∨ s.chip.captureDone = true := by
  have hprogress := progress_call (s := s) o
  rw [completions_call_pos, or_comm]
  exact ⟨hprogress.raised, hprogress.lasts ho⟩

/-- A call that leaves the flag cleared and triggers nothing completes no capture. A poll and a
clearing are such calls. -/
theorem flag_call_of_cleared {o : Operation} {t : Session} (hafter : after s (.call o) = t)
    (hcaptures : t.chip.captures = (false, s.chip.triggers)) :
    (after s (.call o)).chip.captureDone = false ∧ ¬0 < completions s (.call o) := by
  obtain ⟨hflag, htriggers⟩ := Prod.mk.inj hcaptures
  rw [completions_call_pos, hafter, htriggers]
  exact ⟨hflag, fun hless => Nat.lt_irrefl _ hless.2⟩

/-- What a single happening makes of the flag: it is set afterwards if a capture completes, or if it
was set and is not consumed. -/
theorem flag_after_iff (h : Healthy s) {x : Happening} (hx : ∀ f, x ≠ .inject f) :
    (x.after s).chip.captureDone = true ↔
      0 < completions s x ∨ s.chip.captureDone = true ∧ ¬x.Consumes s := by
  cases x with
  | call o =>
    cases o with
    | pollDone =>
      obtain ⟨t, hrun, hcaptures⟩ := exists_pollDone h
      have hafter : after s (.call .pollDone) = t := Event.after_call_of_ok hrun
      obtain ⟨hcleared, hnone⟩ := flag_call_of_cleared hafter hcaptures
      rw [hcleared]
      refine iff_of_false (by simp) ?_
      rintro (hcompleted | ⟨hflag, hkept⟩)
      · exact hnone hcompleted
      · exact hkept ⟨t, by rw [hrun, hflag]⟩
    | clearDone =>
      have hends := ends_clearDone h.honest
      cases hrun : Session.clearDone s with
      | ok a t =>
        have hafter : after s (.call .clearDone) = t := Event.after_call_of_ok hrun
        obtain ⟨hcleared, hnone⟩ := flag_call_of_cleared hafter (hends.of_ok hrun)
        rw [hcleared]
        refine iff_of_false (by simp) ?_
        rintro (hcompleted | ⟨-, hkept⟩)
        · exact hnone hcompleted
        · exact hkept trivial
      | error e t => exact absurd h.faults (hends.of_error hrun)
    | _ =>
      refine (flag_call_iff rfl).trans (or_congr_right ?_)
      simp [Consumes]
  | inject f => exact absurd rfl (hx f)
  | complete => exact iff_of_true rfl (.inl Nat.one_pos)
  | withdraw => simp [after, completions, Consumes]
  | autoComplete on => simp [after, completions, Consumes]
  | clearFaults => simp [after, completions, Consumes, Chip.clearFaults]

/-! ## Pending completions -/

/-- Before the first event no completion waits to be reported. This is where the induction over the
events starts. -/
theorem not_pending_nil : ¬Pending s [] := by
  rintro ⟨before, x, meanwhile, hevents, -⟩
  simp at hevents

/-- What is pending after one more happening: a completion in it, or an earlier one that it does not
consume. -/
theorem pending_snoc {events : List Happening} {x : Happening} :
    Pending s (events ++ [x]) ↔
      0 < completions (run s events) x ∨ Pending s events ∧ ¬x.Consumes (run s events) := by
  constructor
  · rintro ⟨before, y, meanwhile, hevents, hcompleted, hkept⟩
    -- the completion is the last happening, or the last happening came meanwhile
    rcases List.eq_nil_or_concat meanwhile with rfl | ⟨earlier, z, rfl⟩
    · obtain ⟨rfl, hxy⟩ := List.append_inj' hevents rfl
      obtain rfl : x = y := by simpa using hxy
      exact .inl hcompleted
    · rw [List.concat_eq_append] at hevents hkept
      have hsplit : events ++ [x] = (before ++ y :: earlier) ++ [z] := by simpa using hevents
      obtain ⟨rfl, hxz⟩ := List.append_inj' hsplit rfl
      obtain rfl : x = z := by simpa using hxz
      have hlast := hkept earlier x (List.prefix_refl _)
      refine .inr ⟨⟨before, y, earlier, rfl, hcompleted, fun part w hpart => ?_⟩, hlast⟩
      exact hkept part w (hpart.trans (List.prefix_append _ _))
  · rintro (hcompleted | ⟨⟨before, y, meanwhile, rfl, hcompleted, hkept⟩, hlast⟩)
    · refine ⟨events, x, [], rfl, hcompleted, fun part w hpart => ?_⟩
      simp at hpart
    · refine ⟨before, y, meanwhile ++ [x], by simp, hcompleted, fun part w hpart => ?_⟩
      rcases List.prefix_concat_iff.1 hpart with hwhole | hearlier
      · obtain ⟨rfl, hwx⟩ := List.append_inj' hwhole rfl
        obtain rfl : w = x := by simpa using hwx
        exact hlast
      · exact hkept part w hearlier

/-- Without faults the flag is set exactly while a completion is pending. By induction from the end
of the run, where `pending_snoc` takes off the last event. -/
theorem flag_run_iff (h : Healthy s) (hclear : s.chip.captureDone = false)
    {events : List Happening} (hevents : ∀ f, .inject f ∉ events) :
    (run s events).chip.captureDone = true ↔ Pending s events := by
  -- from the end, since to be pending is a matter of what came last
  induction events using List.reverseRecOn with
  | nil => exact iff_of_false (by simp [run, hclear]) not_pending_nil
  | append_singleton before x ih =>
    have hbefore : ∀ f, .inject f ∉ before := fun f hf => hevents f (List.mem_append_left _ hf)
    have hx : ∀ f, x ≠ .inject f := fun f hf => hevents f (by simp [hf])
    rw [run_snoc, pending_snoc, flag_after_iff (h.run hbefore) hx, ih hbefore]

end Happening

open Happening in
/-- Completed captures are reported at most once; without faults, a poll reports exactly whether a
completion is pending. -/
theorem completions_reported_once (s : Session) (hclear : s.chip.captureDone = false)
    (events : List Happening) :
    (Honest s events →
      total reports s events ≤ total completions s events ∧
        ∀ t, pollDone (run s events) = .ok true t → t.chip.captureDone = false) ∧
    (FaultFree s events → 0 < s.settings.clock.attempts → s.phase ≠ .failed →
      ∃ complete t, pollDone (run s events) = .ok complete t ∧
        (complete = true ↔ Pending s events)) := by
  constructor
  · intro hhonest
    constructor
    · have hsum := reports_add_flag_le hhonest
      rw [hclear] at hsum
      simp only [Bool.toNat_false] at hsum
      omega
    · intro t hrun
      obtain ⟨-, hcaptures⟩ := (ends_pollDone hhonest.run).of_ok hrun
      exact congrArg (·.1) hcaptures
  · rintro ⟨hfaults, hevents⟩ hattempts hphase
    have hhealthy : Healthy s := ⟨hfaults, fun hzero => by simp [hzero] at hattempts, hphase⟩
    obtain ⟨t, hrun, -⟩ := exists_pollDone (hhealthy.run hevents)
    exact ⟨_, t, hrun, flag_run_iff hhealthy hclear hevents⟩

open Happening in
/-- A capture completes, is polled for, and another one completes: the next poll answers yes, and
the polls so far answered yes no more often than captures completed. -/
theorem second_completion_is_reported :
    total reports (.start Chip.initial default) [.complete, .call .pollDone, .complete] ≤
        total completions (.start Chip.initial default) [.complete, .call .pollDone, .complete] ∧
      ∃ t, pollDone (run (.start Chip.initial default) [.complete, .call .pollDone, .complete]) =
        .ok true t := by
  obtain ⟨hcount, hpoll⟩ := completions_reported_once (.start Chip.initial default) rfl
    [.complete, .call .pollDone, .complete]
  have hhonest : Honest (.start Chip.initial default) [.complete, .call .pollDone, .complete] :=
    ⟨by rintro f ⟨⟩, by simp⟩
  have hpending : Pending (.start Chip.initial default) [.complete, .call .pollDone, .complete] :=
    ⟨[.complete, .call .pollDone], .complete, [], rfl, Nat.one_pos, by simp⟩
  obtain ⟨complete, t, hrun, hiff⟩ := hpoll ⟨rfl, by simp⟩ (by decide) (by decide)
  refine ⟨(hcount hhonest).1, t, ?_⟩
  rw [hrun, hiff.2 hpending]

end Predistortion
