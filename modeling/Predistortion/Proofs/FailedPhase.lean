import Predistortion.Proofs.Lifecycle

/-!
# How a session leaves the phase `failed`

The rule for a failed session is that only two things bring it back: giving up the capture, and a
new configuration that is accepted. `FailureLasts` states the rule for a run, in which calls and
changes of the device may alternate in any way. Main statement: a run obeys the rule exactly if no
call that hands something back to the firmware succeeds while the session is failed
(`failureLasts_iff`). These calls, `clearDone`, `readDone` and `data`, move to the phase `idle`
whenever they succeed, so the rule does not hold of all runs (`clearDone_ends_failure`).
-/

namespace Predistortion

/-! ## Events -/

/-- What can happen to a session. -/
inductive Event where
  /-- An operation is called. -/
  | call (o : Operation)
  /-- The device, the faults included, comes into any other state. -/
  | device (chip : Chip)

namespace Event

/-- The session after an event. -/
def after (s : Session) : Event → Session
  | .call o =>
    match o.run s with
    | .ok _ t | .error _ t => t
  | .device chip => { s with chip }

/-- After a call that succeeds comes the state that it leads to. -/
theorem after_call_of_ok {o : Operation} {s t : Session} {a : o.Answer} (h : o.run s = .ok a t) :
    after s (.call o) = t := by
  simp only [after, h]

/-- After a call that fails comes the state that the failure leaves. What was done before it
stays. -/
theorem after_call_of_error {o : Operation} {s t : Session} {e : Error}
    (h : o.run s = .error e t) : after s (.call o) = t := by
  simp only [after, h]

/-- The session after a run of events. -/
def run (s : Session) (events : List Event) : Session := events.foldl after s

/-- A run in two parts goes through the one and then through the other. -/
theorem run_append (s : Session) (events later : List Event) :
    run s (events ++ later) = run (run s events) later := List.foldl_append

/-- A run ends with its last event. Inductions over runs take off this event. -/
theorem run_snoc (s : Session) (events : List Event) (e : Event) :
    run s (events ++ [e]) = after (run s events) e := run_append s events [e]

end Event

/-- The operation succeeds. -/
def Operation.Succeeds (o : Operation) (s : Session) : Prop := ∃ a t, o.run s = .ok a t

namespace Event

/-- The ways out of the phase `failed`: giving up the capture, and an accepted configuration. -/
def Recovers (s : Session) : Event → Prop
  | .call .reset => True
  | .call (.setConfig config) => (Operation.setConfig config).Succeeds s
  | _ => False

/-- Something is handed back to the firmware: the flag that a capture is complete, or the buffers.
-/
def HandsBack (s : Session) : Event → Prop
  | .call .clearDone => Operation.clearDone.Succeeds s
  | .call .readDone => Operation.readDone.Succeeds s
  | .call .data => Operation.data.Succeeds s
  | _ => False

/-- To hand something back is none of the two ways in which a failed session is meant to recover: a
reset, and a configuration that succeeds. -/
theorem HandsBack.not_recovers {s : Session} {e : Event} (h : e.HandsBack s) : ¬e.Recovers s := by
  intro hrec
  unfold HandsBack at h
  split at h
  · exact hrec
  · exact hrec
  · exact hrec
  · exact h

end Event

/-- Along the run, a session that failed stays failed for as long as nothing recovers it. -/
def FailureLasts (s : Session) (events : List Event) : Prop :=
  ∀ before meanwhile, before ++ meanwhile <+: events →
    (Event.run s before).phase = .failed →
    (∀ part e, part ++ [e] <+: meanwhile → ¬e.Recovers (Event.run s (before ++ part))) →
    (Event.run s (before ++ meanwhile)).phase = .failed

/-! ## One event -/

namespace Operation

variable {o : Operation} {s : Session}

/-- A call leaves a failed session failed if each of its successes would. Its failures do so anyway,
since a failure leaves the phase or moves it to `failed`. -/
theorem failed_after (hs : s.phase = .failed)
    (h : ∀ a t, o.run s = .ok a t → o.next a .failed = .failed) :
    (Event.after s (.call o)).phase = .failed := by
  cases hrun : o.run s with
  | ok a t =>
    rw [Event.after_call_of_ok hrun, (phaseLaw_run o s).of_ok hrun, hs]
    exact h a t hrun
  | error e t =>
    rw [Event.after_call_of_error hrun, (phaseLaw_run o s).of_error hrun, hs]
    split <;> rfl

/-- A call that does not succeed leaves a failed session failed. -/
theorem failed_after_of_not_succeeds (hs : s.phase = .failed) (h : ¬o.Succeeds s) :
    (Event.after s (.call o)).phase = .failed :=
  failed_after hs fun a t hrun => absurd ⟨a, t, hrun⟩ h

/-- A call whose success moves to the phase `idle`, when it succeeds. Some of these calls are meant
to, and some are not. -/
theorem Succeeds.idle_after (h : o.Succeeds s) (hidle : ∀ a phase, o.next a phase = .idle) :
    (Event.after s (.call o)).phase = .idle := by
  obtain ⟨a, t, hrun⟩ := h
  rw [Event.after_call_of_ok hrun, (phaseLaw_run o s).of_ok hrun]
  exact hidle a s.phase

/-- To trigger and to poll never succeeds in the phase `failed`. They are the two calls that look at
the phase. -/
theorem not_succeeds_of_failed (hs : s.phase = .failed) (ho : o = .trigger ∨ o = .pollDone) :
    ¬o.Succeeds s := by
  rintro ⟨a, t, hrun⟩
  rcases ho with rfl | rfl
  · rw [show Operation.run .trigger s = _ from trigger_of_failed hs] at hrun
    cases hrun
  · rw [show Operation.run .pollDone s = _ from pollDone_of_failed hs] at hrun
    cases hrun

end Operation

namespace Event

variable {s : Session} {e : Event}

/-- What neither recovers a failed session nor hands something back leaves it failed. The other
operations that succeed keep the phase, by the law for each of them. -/
theorem failed_after (hs : s.phase = .failed) (hrec : ¬e.Recovers s) (hback : ¬e.HandsBack s) :
    (after s e).phase = .failed := by
  cases e with
  | device chip => exact hs
  | call o =>
    cases o with
    | setConfig config => exact Operation.failed_after_of_not_succeeds hs hrec
    | clearDone => exact Operation.failed_after_of_not_succeeds hs hback
    | readDone => exact Operation.failed_after_of_not_succeeds hs hback
    | data => exact Operation.failed_after_of_not_succeeds hs hback
    | reset => exact absurd trivial hrec
    -- these two would leave the phase `failed` if they succeeded
    | trigger =>
      refine Operation.failed_after_of_not_succeeds hs ?_
      exact Operation.not_succeeds_of_failed hs (.inl rfl)
    | pollDone =>
      refine Operation.failed_after_of_not_succeeds hs ?_
      exact Operation.not_succeeds_of_failed hs (.inr rfl)
    | _ => exact Operation.failed_after hs fun _ _ _ => rfl

/-- What hands something back ends the failure, although it says nothing about the hardware. -/
theorem HandsBack.idle_after (h : e.HandsBack s) : (after s e).phase = .idle := by
  unfold HandsBack at h
  split at h
  · exact h.idle_after fun _ _ => rfl
  · exact h.idle_after fun _ _ => rfl
  · exact h.idle_after fun _ _ => rfl
  · exact h.elim

end Event

/-! ## Runs -/

/-- The failure lasts through a run in which nothing recovers the session and, while it is failed,
nothing is handed back. -/
theorem Event.failed_run {s : Session} (hs : s.phase = .failed) (events : List Event)
    (hrec : ∀ part e, part ++ [e] <+: events → ¬e.Recovers (run s part))
    (hback : ∀ part e, part ++ [e] <+: events → (run s part).phase = .failed →
      ¬e.HandsBack (run s part)) :
    (run s events).phase = .failed := by
  refine foldl_keeps (I := fun s : Session => s.phase = .failed) hs fun part e hpart hfailed => ?_
  exact failed_after hfailed (hrec part e hpart) (hback part e hpart hfailed)

/-- A run obeys the rule exactly if nothing is handed back while the session is failed. To hand back
moves to `idle`, so one such event breaks the rule; without one the failure lasts through any events
that do not recover the session. -/
theorem failureLasts_iff (s : Session) (events : List Event) :
    FailureLasts s events ↔
      ∀ before e, before ++ [e] <+: events → (Event.run s before).phase = .failed →
        ¬e.HandsBack (Event.run s before) := by
  constructor
  · intro hlasts before e hevents hfailed hback
    have hnone : ∀ part e', part ++ [e'] <+: [e] → ¬e'.Recovers (Event.run s (before ++ part)) := by
      intro part e' hpart
      obtain ⟨rfl, rfl⟩ : part = [] ∧ e' = e := by
        cases part with
        | nil => simpa using hpart
        | cons => simp at hpart
      rw [List.append_nil]
      exact hback.not_recovers
    have hstill := hlasts before [e] hevents hfailed hnone
    rw [Event.run_snoc, hback.idle_after] at hstill
    cases hstill
  · intro hback before meanwhile hevents hfailed hrec
    rw [Event.run_append]
    refine Event.failed_run hfailed meanwhile ?_ ?_
    · intro part e hpart
      rw [← Event.run_append]
      exact hrec part e hpart
    · intro part e hpart
      rw [← Event.run_append]
      refine hback (before ++ part) e ?_
      rw [List.append_assoc]
      exact (List.prefix_append_right_inj before).2 hpart |>.trans hevents

/-- A session whose reading of the control part timed out and which then cleared the flag that a
capture is complete: it is no longer failed, and nothing recovered it. -/
theorem clearDone_ends_failure :
    ¬FailureLasts (Session.start (Chip.initial.inject (.timeout .objectRead)) default)
      [.call .control, .call .clearDone] := by
  intro hlasts
  have hstill := hlasts [.call .control] [.call .clearDone] ⟨[], rfl⟩ (by decide) ?_
  · exact absurd hstill (by decide)
  · intro part e hpart
    cases part with
    | nil =>
      obtain rfl : e = .call .clearDone := by simpa using hpart
      exact id
    | cons => simp at hpart

end Predistortion
