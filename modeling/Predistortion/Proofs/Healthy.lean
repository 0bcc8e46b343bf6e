import Predistortion.Proofs.Interface

/-!
# A healthy chip

Without faults, and if the settings allow to look at the clock at all, no operation fails for want
of hardware (`ends_run_healthily`): every request is served, a command completes with
status zero (`ends_execute`), and the actuator clock follows at once (`ends_setClock_of_healthy`).
That an operation keeps the settings and the faults and blames the hardware only then is a contract
(`healthily`).
-/

namespace Predistortion

open SessionM

/-! ## Commands -/

/-- The request that sends a command. -/
def Command.request (k : Command) : Request := .command k.opcode k.payload

/-- The status that a command leaves is the one that a fault forces, or else zero. -/
theorem Chip.lastStatus_served_command (chip : Chip) (k : Command) :
    (chip.served k.request).lastStatus = (chip.forced k.object).getD 0 := by
  have hfixed := chip.fixed_takeCommand k.payload k.opcode
  rw [served_eq]
  exact congrArg (·.2.2.2.1) hfixed

/-- A command that succeeds was sent and completed with a status that flags no error; one that fails
met a fault. -/
theorem ends_execute (k : Command) (s : Session) :
    Ends (execute k) s
      (fun _ t => (s.chip.forced k.object).getD 0 &&& k.errorMask = 0 ∧
        ∃ timeoutUs intervalUs, t = { s with
          chip := (s.chip.served k.request).served
            (.statusWait k.waitOpcode timeoutUs intervalUs) })
      (fun _ t => (t.settings = s.settings ∧ t.chip.faults = s.chip.faults) ∧
        s.chip.faults ≠ []) := by
  unfold execute perform
  rw [ends_bind, ends_get, ends_bind, ends_onChip]
  refine Chip.ends_perform_of ?_ fun e hfaults => ⟨⟨rfl, rfl⟩, hfaults⟩
  rw [ends_bind, ends_onChip]
  refine Chip.ends_perform_of ?_ fun e hfaults => ?_
  · have hstatus := s.chip.lastStatus_served_command k
    rw [ends_ite]
    refine ⟨fun hflags => ⟨⟨rfl, ?_⟩, fun hnil => ?_⟩, fun hflags => ⟨?_, _, _, rfl⟩⟩
    · exact (Chip.faults_served ..).trans (Chip.faults_served ..)
    · have hunforced : s.chip.forced k.object = none := by rw [Chip.forced, hnil]; rfl
      rw [hunforced] at hstatus
      refine hflags ?_
      rw [show (Chip.serve _ _).1 = (s.chip.served k.request).lastStatus from rfl, hstatus]
      exact UInt8.zero_and
    · rw [← hstatus]
      exact Decidable.not_not.1 hflags
  · rw [Chip.faults_served] at hfaults
    exact ⟨⟨rfl, Chip.faults_served ..⟩, hfaults⟩

/-! ## The clock -/

namespace Chip

/-- A serial register that is written has the new value, and the others have theirs. -/
theorem registers_served_registerWrite (chip : Chip) (address : UInt16) (value : UInt8) :
    (chip.served (.registerWrite address value)).registers =
      chip.registers.insert address value := by
  rw [served_eq]
  rfl

/-- The chip after the requests that name a clock and say what to do with it. -/
def clockNamed (chip : Chip) (c : Channel) (on : Bool) : Chip :=
  (chip.served (.registerWrite clockChannelRegister c.bit)).served
    (.registerWrite clockActionRegister (if on then clockEnable else clockDisable))

/-- The chip after a clock was switched and looked at. -/
def clocked (chip : Chip) (c : Channel) (on : Bool) : Chip :=
  ((chip.clockNamed c on).served (.streamStart clockStream)).served (.clockStatus c)

variable (chip : Chip) (c : Channel) (on : Bool)

/-- To name the clock that is asked for injects no fault and clears none. -/
@[simp] theorem faults_clockNamed : (chip.clockNamed c on).faults = chip.faults :=
  (faults_served ..).trans (faults_served ..)

/-- The stream switches the clock that was named, unless it is stuck. Which clock it is stands in
the serial registers. -/
theorem runStream_clockNamed (hstuck : Fault.clockStuck ∉ chip.faults) :
    (chip.clockNamed c on).runStream clockStream =
      (chip.clockNamed c on).modifyChannel c ({ · with clock := on }) := by
  have hregisters : (chip.clockNamed c on).registers =
      (chip.registers.insert clockChannelRegister c.bit).insert clockActionRegister
        (if on then clockEnable else clockDisable) := by
    unfold clockNamed
    rw [registers_served_registerWrite, registers_served_registerWrite]
  have hchannel : (chip.clockNamed c on).registers.getD clockChannelRegister 0 = c.bit := by
    rw [hregisters, Std.HashMap.getD_insert, if_neg (by decide), Std.HashMap.getD_insert_self]
  have haction : (chip.clockNamed c on).registers[clockActionRegister]? =
      some (if on then clockEnable else clockDisable) := by
    rw [hregisters, Std.HashMap.getElem?_insert_self]
  have hmask : ChannelMask.channels ⟨c.bit⟩ = [c] := ChannelMask.channels_singleton c
  cases on <;>
    simp [runStream, hstuck, hchannel, haction, clockEnable, clockDisable, modifyChannels, hmask,
      PerChannel.modifyAll, modifyChannel, channel]

end Chip

/-- A clock that has followed is seen at the first look, so no further look is taken. The chip
switches clocks at once, so this is the case that occurs without faults. -/
theorem ends_awaitClock_of_running {s : Session} {c : Channel} {on : Bool} {n : Nat}
    (hfaults : s.chip.faults = []) (hrunning : (s.chip.channel c).clock = on) (hn : n ≠ 0) :
    Ends (Session.awaitClock c on n) s
      (fun followed t => followed = true ∧ t = { s with chip := s.chip.served (.clockStatus c) })
      (fun _ _ => False) := by
  obtain ⟨m, rfl⟩ := Nat.exists_eq_succ_of_ne_zero hn
  unfold Session.awaitClock
  rw [ends_bind]
  refine ends_perform_of_no_faults hfaults ?_
  rw [ends_ite]
  exact ⟨fun _ => ⟨rfl, rfl⟩, fun hnot => absurd hrunning hnot⟩

/-- Without faults the clock is set, if it is looked at. The settings have to allow one look at
least, and the first look already finds that the clock has followed. -/
theorem ends_setClock_of_healthy {s : Session} (c : Channel) (on : Bool)
    (hfaults : s.chip.faults = []) (hattempts : s.settings.clock.attempts ≠ 0) :
    Ends (Session.setClock c on) s (fun _ t => t = { s with chip := s.chip.clocked c on })
      (fun _ _ => False) := by
  let chosen := s.chip.served (.registerWrite clockChannelRegister c.bit)
  let ready := s.chip.clockNamed c on
  have hchosen : chosen.faults = [] := (Chip.faults_served ..).trans hfaults
  have hready : ready.faults = [] := (Chip.faults_clockNamed ..).trans hfaults
  have hrunning : ((ready.served (.streamStart clockStream)).channel c).clock = on := by
    have hchannel : (ready.served (.streamStart clockStream)).channel c =
        (ready.runStream clockStream).channel c := by
      rw [Chip.served_eq]
      rfl
    rw [hchannel, Chip.runStream_clockNamed _ _ _ (by simp [hfaults])]
    simp [Chip.modifyChannel, Chip.channel]
  have hattempts' : s.settings.clock.attempts.toNat ≠ 0 := by
    intro hzero
    exact hattempts (UInt32.toNat_inj.1 hzero)
  unfold Session.setClock
  rw [ends_bind]
  refine ends_perform_of_no_faults hfaults ?_
  rw [ends_bind]
  refine ends_perform_of_no_faults (s := { s with chip := chosen }) hchosen ?_
  rw [ends_bind]
  refine ends_perform_of_no_faults (s := { s with chip := ready }) hready ?_
  rw [ends_bind, ends_get, ends_bind]
  refine (ends_awaitClock_of_running ((Chip.faults_served ..).trans hready) hrunning
    hattempts').mono ?_ fun _ _ hf => hf
  rintro followed t ⟨rfl, rfl⟩
  rfl

/-! ## Operations -/

/-- The contract to keep the settings and the faults, and to blame the hardware only if there are
faults or the clock is never looked at. -/
def healthily : Contract Session where
  done s t := t.settings = s.settings ∧ t.chip.faults = s.chip.faults
  failed s e t := (t.settings = s.settings ∧ t.chip.faults = s.chip.faults) ∧
    (s.chip.faults = [] → s.settings.clock.attempts ≠ 0 → e.isHardwareFailure = false)
  refl _ := ⟨rfl, rfl⟩
  trans h h' := ⟨h'.1.trans h.1, h'.2.trans h.2⟩
  fail h h' := by
    refine ⟨⟨h'.1.1.trans h.1, h'.1.2.trans h.2⟩, fun hfaults hattempts => h'.2 ?_ ?_⟩
    · exact h.2.trans hfaults
    · rwa [h.1]
  late h h' := ⟨⟨h'.1.trans h.1.1, h'.2.trans h.1.2⟩, h.2⟩

/-- To stay healthy is a contract that all functions of pins, tables and captures can be held to.
Only the clock can fail as hardware does where there is no fault, if the settings allow no look at
it. -/
theorem healthily_hosts : healthily.Hosts := by
  have requests (r : Request) : Obeys healthily (perform r) := by
    refine .request (fun s => ⟨rfl, Chip.faults_served ..⟩) fun s e hne => ?_
    exact ⟨⟨rfl, rfl⟩, fun hnil => absurd hnil hne⟩
  refine ⟨fun r _ => requests r, fun s e he => ⟨⟨rfl, rfl⟩, fun _ _ => he⟩,
    fun s t hchip hset _ => ?_, fun _ _ => requests _, ?_⟩
  · exact ⟨hset, by rw [hchip]⟩
  · intro c on s
    -- what the clock comes to apart, all of this only makes requests
    have hrequests : Obeys (Contract.keeping fun s : Session => (s.settings, s.chip.faults))
        (Session.setClock c on) := by
      refine .setClock (fun r _ s => ?_) (fun _ _ => rfl) c on
      refine (requests r s).mono (fun _ t ht => ?_) fun _ t ht => ?_
      · exact Prod.ext ht.1 ht.2
      · exact Prod.ext ht.1.1 ht.1.2
    by_cases hhealthy : s.chip.faults = [] ∧ s.settings.clock.attempts ≠ 0
    · have hset := ends_setClock_of_healthy c on hhealthy.1 hhealthy.2
      refine ((hrequests s).and hset).mono (fun _ t ht => ?_) fun _ t ht => ht.2.elim
      exact Prod.mk.inj ht.1
    · refine (hrequests s).mono (fun _ t ht => Prod.mk.inj ht) fun e t ht => ?_
      exact ⟨Prod.mk.inj ht, fun hnil hattempts => absurd ⟨hnil, hattempts⟩ hhealthy⟩

/-- A command leaves a session healthy. That it may fail is another matter. -/
theorem obeys_healthily_execute (k : Command) : Obeys healthily (execute k) := by
  intro s
  refine (ends_execute k s).mono ?_ fun e t ht => ?_
  · rintro _ t ⟨-, _, _, rfl⟩
    exact ⟨rfl, (Chip.faults_served ..).trans (Chip.faults_served ..)⟩
  · exact ⟨ht.1, fun hnil => absurd hnil ht.2⟩

/-- An operation keeps the settings and the faults; without faults, and if the clock is looked at,
it fails at most for another reason than the hardware. -/
theorem ends_run_healthily (o : Operation) (s : Session) :
    Ends o.run s (fun _ t => t.settings = s.settings ∧ t.chip.faults = s.chip.faults)
      (fun e t => (t.settings = s.settings ∧ t.chip.faults = s.chip.faults) ∧
        (s.chip.faults = [] → s.settings.clock.attempts ≠ 0 → e.isHardwareFailure = false)) :=
  Obeys.run healthily_hosts (fun _ _ _ h => h.1) o (fun k _ => obeys_healthily_execute k) s

end Predistortion
