import Predistortion.Proofs.TableStore

/-!
# What a write to a table leaves

A write to a table sets fields of three registers, moves the data, and puts most of the fields back.
Which of them it puts back depends on two settings and on swap mode, which may be a flag of the
session or one of the firmware.

Main statement: what a write that is accepted leaves of a session without faults, byte by byte
(`Session.wrote_writeTable`, with `Session.Wrote`). It is the exact state of the bench after a write
(`acts_writeTable`), told in terms of the session. A byte that belongs to no register is known from
the content of the bench, and one of a register from its word (`Session.read_eq_of_bench`), so
nothing escapes; what is not part of the bench is the rest of the session, which a write leaves
alone.
-/

namespace Predistortion

/-! ## The words and the content after a write -/

section fields

variable (w : UInt32) (t : Table)

/-- The table at which memory accesses point is a number of five bits, which are the lowest of the
word. -/
theorem withBits_raw :
    withBits w ramSelectMask t.raw.toUInt32 =
      w &&& ~~~ramSelectMask ||| UInt32.ofNat t.index.val := by
  have hraw : ∀ i : Fin 32,
      (UInt8.ofNat i.val).toUInt32 &&& ramSelectMask = UInt32.ofNat i.val := by decide
  unfold withBits Table.raw
  rw [hraw]

/-- To power a table on clears its bit. The bits say which tables are off. -/
theorem withBits_powerBit : withBits w t.powerBit 0 = w &&& ~~~t.powerBit := by
  unfold withBits
  rw [UInt32.zero_and, UInt32.or_zero]

end fields

namespace Bench

variable (b : Bench) (c : Channel) (t : Table) (bank : Bank) (data : Bytes)
  (restorePower swapOn : Bool)

/-- The power of the table stays on unless it is to be restored. The settings decide about it, and
swap mode does not matter here. -/
theorem words_written_power :
    (b.written c t bank data restorePower swapOn).words (.power c) =
      if restorePower then b.words (.power c) else b.words (.power c) &&& ~~~t.powerBit := by
  cases restorePower <;> cases swapOn <;> simp [written, words_setBits, withBits_powerBit]

/-- In swap mode memory accesses stay at the table that was written. Otherwise they point again at
where they pointed before. -/
theorem words_written_mode :
    (b.written c t bank data restorePower swapOn).words (.mode c) =
      if swapOn then b.words (.mode c) &&& ~~~ramSelectMask ||| UInt32.ofNat t.index.val
      else b.words (.mode c) := by
  cases restorePower <;> cases swapOn <;> simp [written, words_setBits, withBits_raw]

/-- All other registers are what they were: those of the other channels, and the configuration of
the channel itself, whose flags are put back. -/
theorem words_written_of_ne {register : ActuatorRegister} (hpower : register ≠ .power c)
    (hmode : register ≠ .mode c) :
    (b.written c t bank data restorePower swapOn).words register = b.words register := by
  cases restorePower <;> cases swapOn <;> simp [written, words_setBits, hpower, hmode]

/-- Beside the registers a write changes nothing but the bytes that it is given. -/
theorem content_written :
    (b.written c t bank data restorePower swapOn).content =
      putRun b.content (Table.address c t bank) data := by
  cases restorePower <;> cases swapOn <;> rfl

/-- After a write the clock of the channel is stopped. The clocks of the others are as before. -/
theorem clock_written :
    (b.written c t bank data restorePower swapOn).clock = Function.update b.clock c false := by
  cases restorePower <;> cases swapOn <;> rfl

end Bench

/-! ## The session after a write -/

namespace Session

/-- `u` is what a write of data to a table leaves of the session. -/
structure Wrote (s : Session) (c : Channel) (t : Table) (bank : Bank) (data : Bytes) (u : Session) :
    Prop where
  /-- The data is in place. -/
  placed : u.chip.memory.readRun (Table.address c t bank) data.length = data
  /-- The configuration of the channel is what it was. -/
  config : u.chip.memory.word c.block.config = s.chip.memory.word c.block.config
  /-- The table stays powered unless the settings say to restore the power. -/
  power : u.chip.memory.word c.block.tablePower =
    if s.settings.tables.restorePower then s.chip.memory.word c.block.tablePower
    else s.chip.memory.word c.block.tablePower &&& ~~~t.powerBit
  /-- Memory accesses stay at the table in swap mode, and else are put back. -/
  mode : u.chip.memory.word c.block.mode =
    if s.swapOn then
      s.chip.memory.word c.block.mode &&& ~~~ramSelectMask ||| UInt32.ofNat t.index.val
    else s.chip.memory.word c.block.mode
  /-- Every other byte of the memory is what it was. -/
  elsewhere (a : UInt32)
    (hdata : ¬((Table.address c t bank).toNat ≤ a.toNat ∧
      a.toNat < (Table.address c t bank).toNat + data.length))
    (hpower : ¬(ActuatorRegister.power c).Spans a) (hmode : ¬(ActuatorRegister.mode c).Spans a) :
    u.chip.memory.read a = s.chip.memory.read a
  /-- The clock of the channel is stopped. Beside it and the memory, only the serial registers that
  gate the clocks and the lists of calls and of transactions may differ: the other clocks, the
  objects, the pins and what the session remembers are what they were. -/
  frame : ∃ registers calls journal, u = { s with chip := { s.chip with
    memory := u.chip.memory
    channels := s.chip.channels.set c { s.chip.channel c with clock := false }
    registers
    calls
    journal } }

/-- A write to a table that is accepted succeeds where no faults are injected, and leaves nothing
changed but its data, the stopped clock, and what is not to be restored. -/
theorem wrote_writeTable {s : Session} (h : s.Healthy) (c : Channel) (t : Table) (bank : Bank)
    {data : Bytes} (haccess : Table.checkAccess bank data.machineLength = .ok ()) :
    ∃ u, writeTable c t bank data s = .ok () u ∧ s.Wrote c t bank data u := by
  obtain ⟨u, hrun, hrest, hbench⟩ :=
    acts_writeTable (healthy_rest.2 h) c t bank data haccess s rfl rfl
  have hinside := (Table.checkAccess_machineLength.1 haccess).2
  obtain ⟨hlow, hfits⟩ := Table.address_bounds c t hinside
  have hwords (register : ActuatorRegister) :
      u.chip.memory.word register.address = u.bench.words register := rfl
  refine ⟨u, hrun, ?placed, ?config, ?power, ?mode, ?elsewhere, ?frame⟩
  case placed =>
    calc u.chip.memory.readRun (Table.address c t bank) data.length
        = u.bench.tables.read c t bank data.length := by
          rw [u.readRun_eq_content hlow hfits, Bench.read_tables _ hinside]
      _ = (s.bench.tables.write c t bank data).read c t bank data.length := by
          rw [hbench, Bench.tables_written _ _ _ hinside]
      _ = data := TableStore.read_write_self _ _ _ _ _
  case config =>
    refine (hwords (.config c)).trans ?_
    rw [hbench]
    exact Bench.words_written_of_ne _ _ _ _ _ _ _ (by simp) (by simp)
  case power =>
    refine (hwords (.power c)).trans ?_
    rw [hbench]
    exact Bench.words_written_power _ _ _ _ _ _ _
  case mode =>
    refine (hwords (.mode c)).trans ?_
    rw [hbench]
    exact Bench.words_written_mode _ _ _ _ _ _ _
  case elsewhere =>
    intro a hdata hpower hmode
    apply read_eq_of_bench
    · intro register hspans
      rw [hbench]
      apply Bench.words_written_of_ne
      · rintro rfl
        exact hpower hspans
      · rintro rfl
        exact hmode hspans
    · rw [hbench, Bench.content_written, Bench.putRun, if_neg hdata]
  case frame =>
    have hchannels : u.chip.channels =
        s.chip.channels.set c { s.chip.channel c with clock := false } := by
      apply channels_of_rest hrest
      rw [hbench, Bench.clock_written]
    obtain ⟨registers, calls, journal, hframe⟩ := exists_eq_of_rest hrest
    rw [hchannels] at hframe
    exact ⟨registers, calls, journal, hframe⟩

/-- In swap mode, with all tables of the first channel powered off. -/
def poweredDown : Session :=
  let off := LittleEndian.ofUInt32 0xFFFFFFFF
  let memory := Memory.blank.writeRun Channel.tx1.block.tablePower off
  { Session.start { Chip.initial with memory } default with swapMode := true }

/-- The table that was written stays on, since its power is not to be restored, and the others stay
off. -/
theorem wrote_writeTable_poweredDown :
    ∃ u, writeTable .tx1 ⟨7⟩ .bank1 [1, 2, 3, 4] poweredDown = .ok () u ∧
      poweredDown.Wrote .tx1 ⟨7⟩ .bank1 [1, 2, 3, 4] u ∧
      u.chip.memory.word Channel.tx1.block.tablePower = 0xFFFFFF7F := by
  have hhealthy : poweredDown.Healthy := ⟨rfl, by decide⟩
  have haccess : Table.checkAccess .bank1 (Bytes.machineLength [1, 2, 3, 4]) = .ok () := rfl
  obtain ⟨u, hrun, hwrote⟩ := wrote_writeTable hhealthy .tx1 ⟨7⟩ .bank1 haccess
  have hword : poweredDown.chip.memory.word Channel.tx1.block.tablePower = 0xFFFFFFFF :=
    Memory.word_writeRun_self _ _ _
  refine ⟨u, hrun, hwrote, ?_⟩
  rw [hwrote.power, hword]
  decide

end Session

end Predistortion
