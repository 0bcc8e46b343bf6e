import Predistortion.Proofs.Healthy

/-!
# The flag that a capture is complete

The firmware raises the flag when a capture completes, and the session asks for it and clears it by
commands that may fail halfway. Main statements: an operation raises the flag only through captures
that it triggers and that complete at once, and it clears the flag only by the command for that
(`ends_run_progress`); a poll that succeeds answers what the flag was and leaves it cleared
(`ends_pollDone`). The second holds under all faults that do not make a command of the poll look
carried out when it was not (`Fault.Honest`).
-/

namespace Predistortion

open SessionM
open Session (queryDone pollDone clearDone tracked)

/-! ## Raising the flag -/

namespace Chip

/-- What an activity of the chip may do to the captures, where `clears` says whether it may clear
the flag: captures are triggered, and some of them complete at once. -/
structure Progress (clears : Bool) (before after : Chip) : Prop where
  /-- Captures complete at once as before. -/
  autoComplete : after.autoComplete = before.autoComplete
  /-- Captures are triggered. -/
  triggers : before.triggers ≤ after.triggers
  /-- The flag is raised only by a capture that completed. -/
  raised : after.captureDone = true →
    before.captureDone = true ∨ before.autoComplete = true ∧ before.triggers < after.triggers
  /-- A capture that completed raises the flag, which lasts if it is not cleared. -/
  lasts : clears = false →
    before.captureDone = true ∨ before.autoComplete = true ∧ before.triggers < after.triggers →
    after.captureDone = true

namespace Progress

variable {clears : Bool} {chip c d : Chip}

/-- An activity that leaves the flag and the count of captures as they are may do so whether or not
it is allowed to clear the flag. -/
theorem of_captures (hauto : c.autoComplete = chip.autoComplete)
    (hcaptures : c.captures = chip.captures) : Progress clears chip c := by
  obtain ⟨hdone, htriggers⟩ := Prod.mk.inj hcaptures
  refine ⟨hauto, by omega, fun hraised => ?_, fun _ hbefore => ?_⟩
  · exact .inl (hdone ▸ hraised)
  · rcases hbefore with hflag | ⟨-, hless⟩
    · exact hdone ▸ hflag
    · omega

/-- The same for an activity that leaves the whole core of the chip, in which both of them are. -/
theorem of_core (hcore : c.core = chip.core) : Progress clears chip c :=
  of_captures (congrArg (·.2.2.1) (chip.fixed_of_core hcore)) (chip.captures_of_core hcore)

/-- To do nothing is allowed. -/
theorem refl (clears : Bool) (chip : Chip) : Progress clears chip chip := of_captures rfl rfl

/-- What is allowed to two activities is allowed to one after the other. A capture that completed in
the first of them has raised a flag that lasts through the second. -/
theorem trans (h : Progress clears chip c) (h' : Progress clears c d) : Progress clears chip d := by
  have hauto := h.autoComplete
  have htriggers := h.triggers
  have htriggers' := h'.triggers
  refine ⟨h'.autoComplete.trans hauto, by omega, fun hraised => ?_, fun hlasts hbefore => ?_⟩
  · rcases h'.raised hraised with hflag | ⟨hcomplete, hless⟩
    · rcases h.raised hflag with hflag | ⟨hcomplete, hless⟩
      · exact .inl hflag
      · exact .inr ⟨hcomplete, by omega⟩
    · exact .inr ⟨hauto ▸ hcomplete, by omega⟩
  · refine h'.lasts hlasts ?_
    rcases hbefore with hflag | ⟨hcomplete, hless⟩
    · exact .inl (h.lasts hlasts (.inl hflag))
    · -- the capture was triggered before the middle or after it
      by_cases hearly : chip.triggers < c.triggers
      · exact .inl (h.lasts hlasts (.inr ⟨hcomplete, hearly⟩))
      · exact .inr ⟨hauto.trans hcomplete, by omega⟩

end Progress

variable {clears : Bool} (chip : Chip)

/-- No request changes whether captures complete at once. Only who set up the chip decides about
it. -/
theorem autoComplete_served (r : Request) : (chip.served r).autoComplete = chip.autoComplete := by
  rw [served_eq]
  exact congrArg (·.2.2) (chip.permanent_serve r)

/-- To count a request and to note it in the journal does not touch the captures. -/
theorem captures_served (r : Request) : (chip.served r).captures = (chip.serve r).2.captures := by
  rw [served_eq]
  rfl

/-- What a command does to the captures: one triggers, one may clear the flag, and all others leave
both. -/
theorem progress_execute {payload : Bytes} (opcode : UInt8)
    (hclears : clears = false → payload.byteAt 0 ≠ Object.captureDone) :
    Progress clears chip (chip.execute opcode payload) := by
  have set (object : UInt8) (hobject : clears = false → object ≠ Object.captureDone) :
      Progress clears chip (chip.executeSet object payload) := by
    by_cases htrigger : object = Object.captureTrigger
    · rw [htrigger, executeSet_captureTrigger]
      have hless : chip.triggers < chip.triggers + 1 := Nat.lt_succ_self _
      refine ⟨rfl, Nat.le_of_lt hless, fun hraised => ?_, fun _ hbefore => ?_⟩
      · rcases Bool.or_eq_true_iff.1 hraised with hflag | hcomplete
        · exact .inl hflag
        · exact .inr ⟨hcomplete, hless⟩
      · rcases hbefore with hflag | ⟨hcomplete, -⟩
        · exact Bool.or_eq_true_iff.2 (.inl hflag)
        · exact Bool.or_eq_true_iff.2 (.inr hcomplete)
    · by_cases hdone : object = Object.captureDone
      · rw [hdone, executeSet_captureDone]
        split
        · refine ⟨rfl, Nat.le_refl _, fun hraised => ?_,
            fun hlasts => absurd hdone (hobject hlasts)⟩
          cases hraised
        · exact .refl clears chip
      · exact .of_core (chip.core_executeSet payload htrigger hdone)
  unfold execute
  dsimp only
  split
  · exact set _ hclears
  · split
    · exact .of_core (chip.core_executeGet payload _)
    · exact .refl clears chip

/-- What a request does to the captures. Only commands matter, and one whose status is forced does
nothing. -/
theorem progress_served (r : Request)
    (hclears : clears = false → ∀ opcode payload, r = .command opcode payload →
      payload.byteAt 0 ≠ Object.captureDone) :
    Progress clears chip (chip.served r) := by
  by_cases hcommand : r.kind = .command
  · cases r with
    | command opcode payload =>
      have hprogress : Progress clears chip (chip.takeCommand opcode payload) := by
        cases hforced : chip.forced (payload.byteAt 0) with
        | some status => rw [takeCommand_of_forced _ _ _ hforced]; exact .of_captures rfl rfl
        | none =>
          rw [takeCommand_of_not_forced _ _ _ hforced]
          have hstart : Progress clears chip
              { chip with lastObject := payload.byteAt 0, lastStatus := 0 } := .of_captures rfl rfl
          refine hstart.trans (progress_execute _ opcode fun hlasts => ?_)
          exact hclears hlasts opcode payload rfl
      refine hprogress.trans (.of_captures ?_ (chip.captures_served _))
      exact (chip.autoComplete_served _).trans hprogress.autoComplete.symm
    | _ => cases hcommand
  · refine .of_captures (chip.autoComplete_served r) ?_
    rw [captures_served, captures_serve chip hcommand]

end Chip

/-- The contract to move the captures only by commands. -/
def progressing (clears : Bool) : Contract Session :=
  .ofRelation (fun s t => s.chip.Progress clears t.chip) (fun s => .refl clears s.chip)
    fun h h' => h.trans h'

/-- The operation may clear the flag. -/
def Operation.clears (o : Operation) : Bool := o.commands.any (·.object == Object.captureDone)

section progress

variable {clears : Bool}

/-- A request obeys the contract if it is not a command that clears the flag, or if the flag may be
cleared. -/
theorem obeys_progressing_perform {r : Request}
    (hclears : clears = false → ∀ opcode payload, r = .command opcode payload →
      payload.byteAt 0 ≠ Object.captureDone) :
    Obeys (progressing clears) (perform r) :=
  .request (fun s => s.chip.progress_served r hclears) fun _ _ _ => .of_captures rfl rfl

/-- The contract holds for everything that an operation does besides its commands. -/
theorem progressing_hosts : (progressing clears).Hosts := by
  refine .of_requests (fun r hr => ?_) (fun s _ => .refl clears s.chip) fun s t hchip _ _ => ?_
  · refine obeys_progressing_perform fun _ opcode payload hcommand => ?_
    rw [hcommand] at hr
    exact absurd rfl hr
  · show s.chip.Progress clears t.chip
    rw [hchip]
    exact .refl clears s.chip

/-- A command obeys the contract if it is not the one that clears the flag, or if the flag may be
cleared. The wait that follows it is a request like any other. -/
theorem obeys_progressing_execute {k : Command}
    (hclears : clears = false → k.object ≠ Object.captureDone) :
    Obeys (progressing clears) (execute k) := by
  refine .command (obeys_progressing_perform ?_) (fun _ _ => obeys_progressing_perform ?_)
    fun s _ _ => .refl clears s.chip
  · rintro hlasts opcode payload hcommand
    cases hcommand
    exact hclears hlasts
  · rintro - opcode payload hcommand
    cases hcommand

end progress

/-- What an operation does to the captures, however it ends. It may clear the flag if one of its
commands does. -/
theorem ends_run_progress (o : Operation) (s : Session) :
    Ends o.run s (fun _ t => s.chip.Progress o.clears t.chip)
      (fun _ t => s.chip.Progress o.clears t.chip) := by
  refine Obeys.run progressing_hosts (fun _ _ _ h => h) o (fun k hk => ?_) s
  refine obeys_progressing_execute fun hlasts hobject => ?_
  have hclears : o.clears = true := List.any_eq_true.2 ⟨k, hk, by simp [hobject]⟩
  rw [hlasts] at hclears
  cases hclears

/-! ## Asking for the flag and clearing it -/

/-- The fault keeps the command from being carried out and leaves a status that does not tell. -/
def Fault.Hides (f : Fault) (k : Command) : Prop :=
  ∃ status, f = .commandStatus k.object status ∧ status &&& k.errorMask = 0

/-- The fault hides none of the commands of a poll. -/
def Fault.Honest (f : Fault) : Prop := ∀ k ∈ Operation.pollDone.commands, ¬f.Hides k

/-- A command of a poll that completes without an error was carried out, because an honest fault
would have made it fail. -/
theorem Chip.not_forced_of_honest {chip : Chip} (hhonest : ∀ f ∈ chip.faults, f.Honest)
    {k : Command}
    (hk : k ∈ Operation.pollDone.commands)
    (hstatus : (chip.forced k.object).getD 0 &&& k.errorMask = 0) :
    chip.forced k.object = none := by
  cases hforced : chip.forced k.object with
  | none => rfl
  | some status =>
    obtain ⟨f, hf, hforces⟩ := List.exists_of_findSome?_eq_some hforced
    rw [hforced] at hstatus
    have hfault : f = .commandStatus k.object status := by
      cases f with
      | commandStatus target forcing =>
        simp only [Fault.forcedStatus?] at hforces
        split at hforces
        · next htarget => rw [htarget, Option.some.inj hforces]
        · cases hforces
      | _ => cases hforces
    exact absurd ⟨status, hfault, hstatus⟩ (hhonest f hf k hk)

namespace Chip

variable {chip : Chip}

/-- The question was carried out: the answer is in the memory, and the flag is as it was. No fault
may have forced the status of the command. -/
theorem served_captureDone (h : chip.forced Object.captureDone = none) :
    (chip.served Command.captureDone.request).captures = chip.captures ∧
      (chip.served Command.captureDone.request).memory =
        chip.memory.writeRun mailboxGet [flagByte chip.captureDone] := by
  have htake := takeCommand_of_not_forced chip Command.captureDone.payload Opcode.get h
  rw [served_eq]
  constructor
  · show (chip.takeCommand Opcode.get Command.captureDone.payload).captures = chip.captures
    rw [htake]
    rfl
  · show (chip.takeCommand Opcode.get Command.captureDone.payload).memory = _
    rw [htake]
    rfl

/-- The command was carried out: the flag is cleared, and the count of captures stays. -/
theorem served_clearCaptureDone (h : chip.forced Object.captureDone = none) :
    (chip.served Command.clearCaptureDone.request).captures = (false, chip.triggers) := by
  have htake := takeCommand_of_not_forced chip Command.clearCaptureDone.payload Opcode.set h
  rw [served_eq]
  show (chip.takeCommand Opcode.set Command.clearCaptureDone.payload).captures = _
  rw [htake]
  rfl

/-- The answer, as it is read from the memory. -/
theorem doneFlag_flagByte (flag : Bool) :
    (Bytes.byteAt [flagByte flag] 0 &&& Session.doneFlag != 0) = flag := by
  cases flag <;> rfl

end Chip

section polling

variable {s : Session} (hhonest : ∀ f ∈ s.chip.faults, f.Honest)

include hhonest

/-- The question is answered truthfully, and changes nothing. If no answer comes, there are faults.
The faults have to be honest, or a status could be forged and an old answer be read. -/
theorem ends_queryDone :
    Ends queryDone s
      (fun complete t => complete = s.chip.captureDone ∧ t.chip.captures = s.chip.captures ∧
        t.chip.faults = s.chip.faults)
      (fun _ _ => s.chip.faults ≠ []) := by
  unfold queryDone
  rw [ends_bind]
  refine (ends_execute .captureDone s).mono ?_ fun _ _ ht => ht.2
  rintro _ t ⟨hstatus, timeoutUs, intervalUs, rfl⟩
  have hforced := Chip.not_forced_of_honest hhonest (by decide) hstatus
  obtain ⟨hcaptures, hmemory⟩ := Chip.served_captureDone hforced
  let asked := (s.chip.served Command.captureDone.request).served
    (.statusWait Command.captureDone.waitOpcode timeoutUs intervalUs)
  have hasked : asked.captures = s.chip.captures ∧ asked.faults = s.chip.faults := by
    constructor
    · exact (Chip.captures_served ..).trans hcaptures
    · exact (Chip.faults_served ..).trans (Chip.faults_served ..)
  have hanswer : asked.memory.readRun mailboxGet 1 = [Chip.flagByte s.chip.captureDone] := by
    have hsame : asked.memory = (s.chip.served Command.captureDone.request).memory := by
      rw [show asked = Chip.served _ _ from rfl, Chip.served_eq]
      rfl
    rw [hsame, hmemory]
    exact Memory.readRun_writeRun_self _ _ [_] (by simp)
  unfold perform
  rw [ends_bind, ends_onChip]
  refine Chip.ends_perform_of ?_ fun e hne => ?_
  · refine ⟨?_, ?_, ?_⟩
    · show (Bytes.byteAt (asked.memory.readRun mailboxGet 1) 0 &&& Session.doneFlag != 0) = _
      rw [hanswer, Chip.doneFlag_flagByte]
    · exact (Chip.captures_served ..).trans hasked.1
    · exact (Chip.faults_served ..).trans hasked.2
  · rwa [← hasked.2]

/-- A clearing that succeeds leaves the flag cleared. A status without an error means that it was
carried out. -/
theorem ends_execute_clearCaptureDone :
    Ends (execute .clearCaptureDone) s
      (fun _ t => t.chip.captures = (false, s.chip.triggers)) (fun _ _ => s.chip.faults ≠ []) := by
  refine (ends_execute .clearCaptureDone s).mono ?_ fun _ _ ht => ht.2
  rintro _ t ⟨hstatus, timeoutUs, intervalUs, rfl⟩
  have hforced := Chip.not_forced_of_honest hhonest (by decide) hstatus
  exact (Chip.captures_served ..).trans (Chip.served_clearCaptureDone hforced)

/-- A clearing that succeeds leaves the flag cleared and the count of captures as it was. It fails
only under faults. -/
theorem ends_clearDone :
    Ends clearDone s
      (fun _ t => t.chip.captures = (false, s.chip.triggers)) (fun _ _ => s.chip.faults ≠ []) := by
  unfold clearDone
  rw [ends_bind, ends_tracked]
  refine (ends_execute_clearCaptureDone hhonest).mono (fun _ t ht => ht) fun e t ht => ht

/-- A poll that succeeds answers what the flag was and leaves it cleared. It fails only under faults
or in the phase `failed`. -/
theorem ends_pollDone :
    Ends pollDone s
      (fun complete t => complete = s.chip.captureDone ∧
        t.chip.captures = (false, s.chip.triggers))
      (fun _ _ => s.phase = .failed ∨ s.chip.faults ≠ []) := by
  have hphase (operation : String) :
      Ends (Session.requireNotFailed operation) s (fun _ t => t = s)
        (fun _ _ => s.phase = .failed) := by
    unfold Session.requireNotFailed
    rw [ends_bind, ends_get, ends_ite]
    exact ⟨fun hfailed => hfailed, fun _ => rfl⟩
  unfold pollDone
  rw [ends_bind]
  refine (hphase _).mono ?_ fun _ _ hfailed => .inl hfailed
  rintro _ t ht
  rw [ht, ends_bind, ends_tracked]
  refine (ends_queryDone hhonest).mono ?_ fun _ _ hne => .inr hne
  rintro complete t ⟨rfl, hcaptures, hfaults⟩
  have hflag : t.chip.captureDone = s.chip.captureDone := congrArg (·.1) hcaptures
  have htriggers : t.chip.triggers = s.chip.triggers := congrArg (·.2) hcaptures
  rw [ends_ite]
  refine ⟨fun hclear => ?_, fun hset => ?_⟩
  · -- there is nothing to clear
    have hfalse : s.chip.captureDone = false := by simpa using hclear
    refine ⟨hfalse.symm, ?_⟩
    rw [hcaptures]
    exact congrArg (·, s.chip.triggers) hfalse
  · have hhonest' : ∀ f ∈ t.chip.faults, f.Honest := by rwa [hfaults]
    rw [ends_bind, ends_tracked]
    refine (ends_execute_clearCaptureDone hhonest').mono ?_ fun _ _ hne => .inr (hfaults ▸ hne)
    rintro _ u hu
    have htrue : s.chip.captureDone = true := by simpa using hset
    refine ⟨htrue.symm, ?_⟩
    exact hu.trans (congrArg (false, ·) htriggers)

end polling

end Predistortion
