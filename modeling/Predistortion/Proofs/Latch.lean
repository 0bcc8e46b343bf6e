import Predistortion.Proofs.Assignment
import Predistortion.Proofs.FailedPhase
import Predistortion.Proofs.Reporting

/-!
# Which hardware failures are latched

The rule for the phase `failed` is that every operation during which the hardware fails ends in it:
a call is refused, or a mailbox command completes with a status that flags an error. Whether that
happened can be read off the list of calls (`Operation.Troubled`). Main statement: an operation
obeys the rule exactly if it does not fail to clean up after something else than the hardware
stopped it (`latched_iff`). The latch looks only at the error that is reported, and that is the
first one, so a failure of the clean-up is not seen (`failed_release_is_not_latched`).

Every operation without a clean-up reports what went wrong. The two others are followed to the point
where the clean-up begins: an assignment of the completion pin that is undone, and a reading of
samples after which the buffers are handed back.
-/

namespace Predistortion

open SessionM
open Session (tracked readSamples setDonePin moveDonePin requireFreeSource routeTriggerPin)
open Capture (Config)

/-! ## Undoing an assignment -/

/-- An assignment of the completion pin is stopped by something else than the hardware, and then a
call of its undoing is refused. -/
def UndoingFails (p : Pin) (s : Session) : Prop :=
  ∃ e r, interruption p s = some (e, r) ∧ e.isHardwareFailure = false ∧
    ∃ c ∈ (r.log.rollback r.chip).2.callsSince r.chip, c.isRefused = true

/-- A rollback only makes plain requests. None of them is a command or the wait for one, so none can
flag an error, but each may be refused. -/
theorem grows_rollback (log : UndoLog) (s : Session) :
    s.chip.Grows (fun c => c.request.isPlain = true) (log.rollback s.chip).2 := by
  have serves : (growing fun c => c.request.isPlain = true).Serves := fun r hr =>
    obeys_growing_perform fun _ => hr
  exact Obeys.rollback serves (fun _ _ _ h => h) log s

/-- An assignment reports what went wrong, unless its undoing fails. A refusal within the undoing is
only logged. -/
theorem ends_setDonePin_reporting (commands : List Command) {p : Pin} {s : Session}
    (h : ¬UndoingFails p s) :
    Ends (setDonePin p) s (fun _ t => (reporting commands).done s t)
      (fun e t => (reporting commands).failed s e t) := by
  obtain ⟨serves, mayRefuse, -, -, -⟩ := reporting_hosts commands
  have hfree := Obeys.requireFreeSource serves mayRefuse.mayConflict p s
  unfold setDonePin
  rw [ends_bind]
  refine (hfree.and (ends_self _ s)).mono ?_ fun e u hu => hu.1
  rintro _ u ⟨hu, hrequire⟩
  have hmove := Obeys.moveDonePin u serves mayRefuse.mayConflict p ⟨u.chip, []⟩
  rw [ends_rewire]
  refine (hmove.and (ends_self _ _)).mono (fun _ r hr => ?_) ?_
  · exact (reporting commands).trans hu hr.1
  · rintro e r ⟨hr, hstop⟩
    have hback := grows_rollback r.log { u with chip := r.chip }
    refine (reporting commands).fail hu ?_
    -- an error of the hardware tells already; any other must not hide what the undoing meets
    cases he : e.isHardwareFailure with
    | true =>
      refine reporting_failed_of_hardware he ?_
      exact (hr.mono fun _ _ => trivial).trans (hback.mono fun _ _ => trivial)
    | false =>
      have hinterrupted : interruption p s = some (e, r) := by
        simp only [interruption, hrequire, hstop]
      refine (reporting commands).late hr (hback.of_forall_mem fun c hc hplain => ?_)
      refine Call.sound_of_kind_ne (Request.ne_statusWait_of_isPlain hplain) ?_ commands
      cases hrefused : c.isRefused with
      | false => rfl
      | true => exact absurd ⟨e, r, hinterrupted, he, c, hc, hrefused⟩ h

/-- What an assignment comes to when its undoing fails: the error does not tell. The refused request
is among the calls, but the error is the one that started the undoing. -/
theorem UndoingFails.run {p : Pin} {s : Session} (h : UndoingFails p s) :
    ∃ e t, setDonePin p s = .error e t ∧ e.isHardwareFailure = false ∧
      s.chip.Grows (fun _ => True) t.chip ∧ ∃ c ∈ t.chip.callsSince s.chip, c.isRefused = true := by
  obtain ⟨e, r, hinterrupted, he, c, hc, hrefused⟩ := h
  obtain ⟨serves, mayRefuse, -, -, -⟩ := reporting_hosts []
  have hfree := Obeys.requireFreeSource serves mayRefuse.mayConflict p s
  unfold interruption at hinterrupted
  cases hrequire : requireFreeSource p s with
  | error e' u =>
    -- nothing was changed yet, so nothing is undone
    rw [hrequire] at hinterrupted
    cases hinterrupted
    have hnone : (UndoLog.rollback [] u.chip).2.callsSince u.chip = [] :=
      Chip.callsSince_of_eq rfl
    rw [hnone] at hc
    cases hc
  | ok _ u =>
    have hgrowsFree : s.chip.Grows (fun _ => True) u.chip :=
      (hfree.of_ok hrequire).mono fun _ _ => trivial
    rw [hrequire] at hinterrupted
    have hmove := Obeys.moveDonePin u serves mayRefuse.mayConflict p ⟨u.chip, []⟩
    cases hstop : moveDonePin p ⟨u.chip, []⟩ with
    | ok a r' =>
      simp only [hstop] at hinterrupted
      cases hinterrupted
    | error e' r' =>
      simp only [hstop] at hinterrupted
      cases hinterrupted
      have hgrowsMove : u.chip.Grows (fun _ => True) r.chip :=
        (hmove.of_error hstop).mono fun _ _ => trivial
      have hback := grows_rollback r.log { u with chip := r.chip }
      have hgrows := hgrowsFree.trans hgrowsMove
      have hrun : setDonePin p s = .error e { u with chip := (r.log.rollback r.chip).2 } := by
        simp only [setDonePin, bind, EStateM.bind, hrequire, Session.rewire, hstop]
      refine ⟨e, _, hrun, he, hgrows.trans (hback.mono fun _ _ => trivial), c, ?_, hrefused⟩
      rw [hgrows.callsSince_append hback]
      exact List.mem_append_left _ hc

/-! ## Operations with a clean-up -/

namespace Operation

/-- Something goes wrong with the hardware during the operation: a call is refused, or a command of
the operation completes with a status that flags an error. -/
def Troubled (o : Operation) (s : Session) : Prop :=
  ∃ c ∈ (Event.after s (.call o)).chip.callsSince s.chip,
    c.isRefused = true ∨ ∃ k ∈ o.commands, k.Flags c

/-- Something else than the hardware stops the operation, and then the hardware fails while the
operation cleans up: a configuration is denied the completion pin and the undoing fails, or the
samples are not read, as when the control part does not decode, and the buffers are not handed back.
-/
def CleanUpFails (o : Operation) (s : Session) : Prop :=
  match o with
  | .setConfig c => s.Passes c ∧
    ∃ u, routeTriggerPin c.triggerPin s = .ok () u ∧ UndoingFails c.donePin u
  | .data => ∃ e u e' v, readSamples s = .error e u ∧ e.isHardwareFailure = false ∧
    execute .captureReadDone u = .error e' v
  | _ => False

variable {o : Operation} {s t : Session}

/-- If all calls of an operation were served without a flagged error, nothing went wrong with the
hardware. -/
theorem not_troubled_of_grows (h : s.chip.Grows (Call.Sound o.commands) t.chip)
    (hafter : Event.after s (.call o) = t) : ¬o.Troubled s := by
  rintro ⟨c, hc, hbad⟩
  rw [hafter] at hc
  obtain ⟨hserved, hunflagged⟩ := h.of_mem hc
  rcases hbad with hrefused | ⟨k, hk, hflags⟩
  · rw [hserved] at hrefused
    cases hrefused
  · exact hunflagged k hk hflags

/-- One call of an operation that was refused or flagged an error is enough for trouble, whatever
the operation makes of it. -/
theorem troubled_of_not_sound {c : Call} (hc : c ∈ t.chip.callsSince s.chip)
    (hbad : ¬c.Sound o.commands) (hafter : Event.after s (.call o) = t) : o.Troubled s := by
  rw [← hafter] at hc
  refine ⟨c, hc, ?_⟩
  by_cases hrefused : c.isRefused = true
  · exact .inl hrefused
  · refine .inr (Classical.byContradiction fun hunflagged => hbad ⟨by simpa using hrefused, ?_⟩)
    exact fun k hk hflags => hunflagged ⟨k, hk, hflags⟩

end Operation

/-! ### Without a failure of the clean-up -/

section reports

variable {s : Session}

/-- A configuration reports what went wrong, unless an undoing fails in the assignment of its pin.
The other steps of it undo nothing. -/
theorem ends_setConfig_reporting (commands : List Command) {c : Config}
    (h : ¬(Operation.setConfig c).CleanUpFails s) :
    Ends (Session.setConfig c) s (fun _ t => (reporting commands).done s t)
      (fun e t => (reporting commands).failed s e t) := by
  have hosts := reporting_hosts commands
  have hcheck := Obeys.checked hosts.mayRefuse (.checkConfig c) s
  refine (reporting commands).ends_bind hcheck fun _ t hchecked => ?_
  obtain ⟨rfl, hpass⟩ := (ends_checked_self c.check s).of_ok hchecked
  have configured : Obeys (reporting commands) (Session.setPhase .configured) := .setPhase hosts _
  refine (reporting commands).ends_bind (hosts.ends_tracked ?_) fun _ u _ => configured u
  have hrouted := Obeys.routeTriggerPin hosts c.triggerPin t
  refine (reporting commands).ends_bind hrouted fun _ u hroute => ?_
  have hpin : ¬UndoingFails c.donePin u := fun hundo => h ⟨hpass, u, hroute, hundo⟩
  refine (reporting commands).ends_bind (ends_setDonePin_reporting commands hpin) fun _ v _ => ?_
  exact hosts.serves _ rfl v

/-- To read the samples reports what went wrong, unless the buffers are not handed back after a
reading that was refused. Of two errors the first is the one that is reported, so a refusal hides
what comes after it. -/
theorem ends_captureData_reporting (h : ¬Operation.data.CleanUpFails s) :
    Ends Session.captureData s (fun _ t => (reporting Operation.data.commands).done s t)
      (fun e t => (reporting Operation.data.commands).failed s e t) := by
  have hosts := reporting_hosts Operation.data.commands
  have hread := Obeys.readSamples hosts s
  have hrelease : Obeys (reporting Operation.data.commands) (execute .captureReadDone) :=
    obeys_reporting_execute (List.mem_singleton.2 rfl)
  refine (reporting _).ends_bind (hosts.ends_tracked ?_) fun _ u _ => ?_
  · rw [ends_bind, ends_attempt]
    refine (hread.and (ends_self _ s)).mono ?_ ?_
    · rintro data t ⟨ht, -⟩
      rw [ends_bind, ends_attempt]
      refine (hrelease t).mono (fun _ u hu => ?_) (fun e u hu => ?_)
      · exact (reporting _).trans ht hu
      · exact (reporting _).fail ht hu
    · rintro e t ⟨ht, hstop⟩
      rw [ends_bind, ends_attempt]
      refine ((hrelease t).and (ends_self _ t)).mono ?_ ?_
      · exact fun _ u hu => (reporting _).late ht hu.1
      · -- both fail, and the first error is the one that is reported
        rintro e' u ⟨hu, hstop'⟩
        cases he : e.isHardwareFailure with
        | false => exact absurd ⟨e, t, e', u, hstop, he, hstop'⟩ h
        | true =>
          refine reporting_failed_of_hardware he ?_
          exact (ht.mono fun _ _ => trivial).trans (hu.mono fun _ _ => trivial)
  · exact Obeys.bind (.setPhase hosts _) (fun _ => .pure _) u

/-- Every operation reports what went wrong, unless it fails to clean up. The exception is the one
that the phase does not show. -/
theorem ends_run_reporting {o : Operation} (h : ¬o.CleanUpFails s) :
    Ends o.run s (fun _ t => (reporting o.commands).done s t)
      (fun e t => (reporting o.commands).failed s e t) := by
  cases hclean : o.cleansUp with
  | false =>
    exact Obeys.run_of_not_cleansUp (reporting_hosts _) hclean
      (fun k hk => obeys_reporting_execute hk) s
  | true =>
    cases o with
    | setConfig c => exact ends_setConfig_reporting _ h
    | data => exact ends_captureData_reporting h
    | _ => cases hclean

end reports

/-! ### With a failure of the clean-up -/

/-- A configuration that is denied its completion pin fails with that error. The record is not
written any more. -/
theorem setConfig_of_passes {c : Config} {s u t : Session} {e : Error} (hpass : s.Passes c)
    (hroute : routeTriggerPin c.triggerPin s = .ok () u)
    (hpin : setDonePin c.donePin u = .error e t)
    (he : e.isHardwareFailure = false) : Session.setConfig c s = .error e t := by
  have hcheck : checked c.check s = .ok () s := by
    have hends := ends_checked_self c.check s
    cases hrun : checked c.check s with
    | ok _ t =>
      obtain ⟨rfl, -⟩ := hends.of_ok hrun
      rfl
    | error e t =>
      obtain ⟨-, hon, hfound⟩ := hends.of_error hrun
      rw [hpass hon] at hfound
      cases hfound
  simp [Session.setConfig, bind, EStateM.bind, hcheck, tracked, hroute, hpin, he]

/-- What an operation comes to when it fails to clean up: its error does not tell. The two cases are
an assignment that is not undone and buffers that are not handed back. -/
theorem Operation.CleanUpFails.run {o : Operation} {s : Session} (h : o.CleanUpFails s) :
    ∃ e t, o.run s = .error e t ∧ e.isHardwareFailure = false ∧ o.Troubled s := by
  cases o with
  | setConfig c =>
    obtain ⟨hpass, u, hroute, hundo⟩ := h
    obtain ⟨e, t, hpin, he, hgrows, call, hcall, hrefused⟩ := hundo.run
    have hrun : (Operation.setConfig c).run s = .error e t :=
      setConfig_of_passes hpass hroute hpin he
    have hgrowsRoute : s.chip.Grows (fun _ => True) u.chip :=
      ((Obeys.routeTriggerPin (reporting_hosts []) _ s).of_ok hroute).mono fun _ _ => trivial
    refine ⟨e, t, hrun, he, call, ?_, .inl hrefused⟩
    rw [Event.after_call_of_error hrun, hgrowsRoute.callsSince_append hgrows]
    exact List.mem_append_left _ hcall
  | data =>
    obtain ⟨e, u, e', v, hread, he, hrelease⟩ := h
    have hk : Command.captureReadDone ∈ Operation.data.commands := List.mem_singleton.2 rfl
    obtain ⟨-, hgrows, call, hcall, hbad⟩ := (ends_execute_reporting hk u).of_error hrelease
    have hgrowsRead : s.chip.Grows (fun _ => True) u.chip :=
      ((Obeys.readSamples (reporting_hosts []) s).of_error hread).mono fun _ _ => trivial
    have hrun : Operation.data.run s = .error e v := by
      have hstop : (ofExcept (Session.readThenRelease (.error e : Except Error Capture.Data)
          (.error e')) : SessionM Capture.Data) v = .error e v := rfl
      simp [Operation.run, Session.captureData, bind, EStateM.bind, tracked, attempt, hread,
        hrelease, hstop, he]
    refine ⟨e, v, hrun, he,
      Operation.troubled_of_not_sound ?_ hbad (Event.after_call_of_error hrun)⟩
    rw [hgrowsRead.callsSince_append hgrows]
    exact List.mem_append_left _ hcall
  | _ => exact h.elim

/-! ## The rule -/

/-- An operation obeys the rule, that it ends in the phase `failed` if the hardware fails during it,
exactly if it does not fail to clean up. -/
theorem latched_iff (o : Operation) (s : Session) (hs : s.phase ≠ .failed) :
    (o.Troubled s → (Event.after s (.call o)).phase = .failed) ↔ ¬o.CleanUpFails s := by
  constructor
  · intro hlatch hclean
    obtain ⟨e, t, hrun, he, htrouble⟩ := hclean.run
    have hphase := (phaseLaw_run o s).of_error hrun
    rw [he] at hphase
    have hfailed := hlatch htrouble
    rw [Event.after_call_of_error hrun, hphase] at hfailed
    exact hs hfailed
  · intro hclean htrouble
    have hreport := ends_run_reporting hclean
    cases hrun : o.run s with
    | ok a t =>
      have hgrows : s.chip.Grows (Call.Sound o.commands) t.chip := hreport.of_ok hrun
      exact absurd htrouble (Operation.not_troubled_of_grows hgrows (Event.after_call_of_ok hrun))
    | error e t =>
      have hafter : Event.after s (.call o) = t := Event.after_call_of_error hrun
      have hphase := (phaseLaw_run o s).of_error hrun
      cases he : e.isHardwareFailure with
      | true => rw [hafter, hphase, he]; rfl
      | false =>
        have hgrows : s.chip.Grows (Call.Sound o.commands) t.chip :=
          (hreport.of_error hrun).mono fun _ hsound => hsound he
        exact absurd htrouble (Operation.not_troubled_of_grows hgrows hafter)

/-- A session whose reads of objects time out. -/
def stuckReads : Session := .start (Chip.initial.inject (.timeout .objectRead)) default

/-- A read that times out is latched: the session is failed after it. -/
theorem latched_stuckReads :
    Operation.control.Troubled stuckReads ∧
      (Event.after stuckReads (.call .control)).phase = .failed := by
  have hrefused : ((Event.after stuckReads (.call .control)).chip.callsSince stuckReads.chip).any
      Call.isRefused = true := by decide
  obtain ⟨c, hc, hcall⟩ := List.any_eq_true.1 hrefused
  have htrouble : Operation.control.Troubled stuckReads := ⟨c, hc, .inl hcall⟩
  exact ⟨htrouble, (latched_iff .control stuckReads (by decide)).2 (fun h => h) htrouble⟩

/-- A session on whose chip the control part of the record names a size that there is not, and whose
commands time out. -/
def unreadableControl : Session :=
  .start ((Chip.initial.writeObject Object.capture 50 [9]).inject (.timeout .command)) default

/-- With a control part that does not decode, the samples are not read; and with a fault on
commands, the buffers are not handed back. -/
theorem cleanUpFails_unreadableControl : Operation.data.CleanUpFails unreadableControl := by
  have hobject : unreadableControl.chip.object Object.capture = Bytes.overwrite [] 50 [9] := by
    simp [unreadableControl, Session.start, Chip.inject, Chip.writeObject, Chip.object,
      Chip.initial]
  have hdecode : Capture.Control.decode
      ((unreadableControl.chip.object Object.capture).window 36 22) =
        .error (.invalid "captureSize" "9" "unknown size code") := by
    rw [hobject]
    rfl
  have hcontrol : Session.control unreadableControl =
      .error (.invalid "captureSize" "9" "unknown size code") { unreadableControl with
        chip := unreadableControl.chip.served (.objectRead Object.capture 36 22) } := by
    have hserved : tracked (Session.readCapture Capture.Control.offset
        Capture.Control.recordLength) unreadableControl =
          .ok ((unreadableControl.chip.object Object.capture).window 36 22)
            { unreadableControl with
              chip := unreadableControl.chip.served (.objectRead Object.capture 36 22) } := rfl
    simp only [Session.control, bind, EStateM.bind, hserved, hdecode]
    rfl
  have hread : readSamples unreadableControl =
      .error (.invalid "captureSize" "9" "unknown size code") { unreadableControl with
        chip := unreadableControl.chip.served (.objectRead Object.capture 36 22) } := by
    simp only [readSamples, bind, EStateM.bind, hcontrol]
  exact ⟨_, _, _, _, hread, rfl, rfl⟩

/-- The samples are not read, as the control part does not decode; then handing the buffers back
times out, and the session is not failed. -/
theorem failed_release_is_not_latched :
    ¬∀ (o : Operation) (s : Session), s.phase ≠ .failed → o.Troubled s →
      (Event.after s (.call o)).phase = .failed := by
  intro hlatch
  obtain ⟨e, t, hrun, he, htrouble⟩ := cleanUpFails_unreadableControl.run
  have hphase := (phaseLaw_run _ _).of_error hrun
  have hfailed := hlatch .data unreadableControl (by decide) htrouble
  rw [Event.after_call_of_error hrun, hphase, he] at hfailed
  cases hfailed

end Predistortion
