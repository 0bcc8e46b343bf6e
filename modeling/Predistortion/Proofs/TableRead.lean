import Predistortion.Proofs.TableStore

/-!
# What a read of a table leaves

A read of a table opens it as a write does, and then puts back everything that it saved: the power
of the table, the enable and passthru bits, and the table at which memory accesses pointed. The
clock of the channel is not among what is saved. It is started to open the table and stopped at the
end, so a clock that ran before the read does not run after it.

* `Session.exists_readTable`: a read of a part of a table succeeds where no faults are injected. It
  answers with the bytes of the table, every byte of the memory is what it was, and of all the rest
  only the clock of the channel is touched (`Session.ReadBack`).
* `Session.restored_readTable_iff`: so a read restores the actuator (`Session.Restored`) exactly if
  the clock of the channel was stopped before.
-/

namespace Predistortion.Session

open SessionM

/-! ## The session after a read -/

/-- `u` is what a read of a table leaves of the session, and `data` is what it answers. -/
structure ReadBack (s : Session) (c : Channel) (t : Table) (bank : Bank) (length : Nat)
    (data : Bytes) (u : Session) : Prop where
  /-- The answer is what the table holds. -/
  data_eq : data = s.chip.memory.readRun (Table.address c t bank) length
  /-- Every byte of the memory is what it was, those of registers included. -/
  memory (a : UInt32) : u.chip.memory.read a = s.chip.memory.read a
  /-- The clock of the channel is stopped. Beside it, only the serial registers that gate the clocks
  and the lists of calls and of transactions may differ. -/
  frame : ∃ registers calls journal, u = { s with chip := { s.chip with
    memory := u.chip.memory
    channels := s.chip.channels.set c { s.chip.channel c with clock := false }
    registers
    calls
    journal } }

/-- In `u`, the actuator of a channel and the memory are as in `s`, and so are the clocks. -/
structure Restored (s : Session) (c : Channel) (u : Session) : Prop where
  /-- The power of the tables. -/
  power : u.chip.memory.word c.block.tablePower = s.chip.memory.word c.block.tablePower
  /-- The configuration, with the enable and passthru bits. -/
  config : u.chip.memory.word c.block.config = s.chip.memory.word c.block.config
  /-- The mode, with the table at which memory accesses point. -/
  mode : u.chip.memory.word c.block.mode = s.chip.memory.word c.block.mode
  /-- All other memory. -/
  memory (a : UInt32) : u.chip.memory.read a = s.chip.memory.read a
  /-- The clock of every channel. -/
  clock (d : Channel) : (u.chip.channel d).clock = (s.chip.channel d).clock

variable {s u : Session} {c : Channel} {t : Table} {bank : Bank} {length : Nat} {data : Bytes}

/-- Where no faults are injected, a read inside a table succeeds, answers the bytes of the table and
leaves every byte of the memory as it was. -/
theorem exists_readTable (h : s.Healthy) (c : Channel) (t : Table) (bank : Bank)
    (hpos : 0 < length) (hinside : bank.index * Table.bankBytes + length ≤ Table.bytes) :
    ∃ data u, readTable c t bank length s = .ok data u ∧ s.ReadBack c t bank length data u := by
  have hbuffer : length < 0x8000000000000000 := by
    unfold Table.bytes at hinside
    omega
  have hlength : (UInt64.ofNat length).toNat = length :=
    UInt64.toNat_ofNat_of_lt' (Nat.lt_trans hbuffer (by decide))
  have haccess : Table.checkAccess bank (UInt64.ofNat length) = .ok () := by
    rw [Table.checkAccess_eq_ok (by rwa [hlength]), hlength]
    exact ⟨Nat.ne_of_gt hpos, hinside⟩
  obtain ⟨hlow, hfits⟩ := Table.address_bounds c t hinside
  obtain ⟨u, hrun, hrest, hbench⟩ :=
    acts_readTable (healthy_rest.2 h) c t bank haccess hbuffer s rfl rfl
  refine ⟨_, u, hrun, ?data, ?memory, ?frame⟩
  case data => exact (s.readRun_eq_content hlow hfits).symm
  case memory =>
    intro a
    apply read_eq_of_bench
    · intro register _
      rw [hbench, Bench.words_setClock]
    · rw [hbench]
      rfl
  case frame =>
    have hchannels : u.chip.channels =
        s.chip.channels.set c { s.chip.channel c with clock := false } := by
      apply channels_of_rest hrest
      rw [hbench, Bench.clock_setClock]
    obtain ⟨registers, calls, journal, hframe⟩ := exists_eq_of_rest hrest
    rw [hchannels] at hframe
    exact ⟨registers, calls, journal, hframe⟩

/-! ## What a read restores -/

namespace ReadBack

/-- A word is put together from bytes that are what they were. So all registers are as before the
read. -/
theorem word_eq (h : s.ReadBack c t bank length data u) (a : UInt32) :
    u.chip.memory.word a = s.chip.memory.word a := by
  unfold Memory.word
  rw [Memory.readRun_congr fun i _ => h.memory (a + UInt32.ofNat i)]

/-- The clock of the channel does not run after a read, and those of the others run as before. -/
theorem clock_eq (h : s.ReadBack c t bank length data u) (d : Channel) :
    (u.chip.channel d).clock = if d = c then false else (s.chip.channel d).clock := by
  obtain ⟨registers, calls, journal, hframe⟩ := h.frame
  rw [hframe]
  unfold Chip.channel
  by_cases hd : d = c
  · rw [if_pos hd, hd, PerChannel.get_set_self]
  · rw [if_neg hd, PerChannel.get_set_of_ne _ hd]

/-- Everything that a read changes is put back but the clock. So the actuator is restored exactly if
the clock was stopped. -/
theorem restored_iff (h : s.ReadBack c t bank length data u) :
    s.Restored c u ↔ (s.chip.channel c).clock = false := by
  constructor
  · intro hrestored
    have hstopped := h.clock_eq c
    rw [if_pos rfl, hrestored.clock c] at hstopped
    exact hstopped
  · intro hstopped
    refine ⟨h.word_eq _, h.word_eq _, h.word_eq _, h.memory, fun d => ?_⟩
    rw [h.clock_eq d]
    split
    · next hd => rw [hd, hstopped]
    · rfl

end ReadBack

/-- Where no faults are injected, a read inside a table succeeds and answers with the bytes of the
table. It restores the actuator exactly if the clock of the channel was stopped; a clock that ran is
the only thing that it does not put back. -/
theorem restored_readTable_iff (h : s.Healthy) (c : Channel) (t : Table) (bank : Bank)
    (hpos : 0 < length) (hinside : bank.index * Table.bankBytes + length ≤ Table.bytes) :
    ∃ data u, readTable c t bank length s = .ok data u ∧ s.ReadBack c t bank length data u ∧
      (s.Restored c u ↔ (s.chip.channel c).clock = false) := by
  obtain ⟨data, u, hrun, hback⟩ := exists_readTable h c t bank hpos hinside
  exact ⟨data, u, hrun, hback, hback.restored_iff⟩

/-- With the first table of the third channel powered off, and accesses pointed at another one. -/
def benchAtRest : Session :=
  let off := LittleEndian.ofUInt32 1
  let mode := LittleEndian.ofUInt32 9
  let memory := (Memory.blank.writeRun Channel.tx3.block.tablePower off).writeRun
    Channel.tx3.block.mode mode
  Session.start { Chip.initial with memory } default

/-- The clock of the third channel is stopped, so that the read of its powered-off table restores
everything. -/
theorem restored_readTable_benchAtRest :
    ∃ data u, readTable .tx3 ⟨0⟩ .bank3 1024 benchAtRest = .ok data u ∧
      benchAtRest.Restored .tx3 u := by
  have hhealthy : benchAtRest.Healthy := ⟨rfl, by decide⟩
  obtain ⟨data, u, hrun, -, hiff⟩ :=
    restored_readTable_iff hhealthy .tx3 ⟨0⟩ .bank3 (by decide : 0 < 1024) (by decide)
  exact ⟨data, u, hrun, hiff.2 rfl⟩

/-- A session whose first channel has its clock running. -/
def clockRunning : Session :=
  let running := { ChannelState.initial with clock := true }
  Session.start { Chip.initial with channels := Chip.initial.channels.set .tx1 running } default

/-- A clock that runs is stopped by a read, and not started again. So the read does not restore the
actuator, although it succeeds. -/
theorem readTable_stops_clock :
    ∃ data u, readTable .tx1 ⟨0⟩ .bank0 4 clockRunning = .ok data u ∧
      (clockRunning.chip.channel .tx1).clock = true ∧ (u.chip.channel .tx1).clock = false ∧
      ¬clockRunning.Restored .tx1 u := by
  have hhealthy : clockRunning.Healthy := ⟨rfl, by decide⟩
  obtain ⟨data, u, hrun, hback⟩ :=
    exists_readTable hhealthy .tx1 ⟨0⟩ .bank0 (by decide : 0 < 4) (by decide)
  have hrunning : (clockRunning.chip.channel .tx1).clock = true := rfl
  refine ⟨data, u, hrun, hrunning, hback.clock_eq .tx1, ?_⟩
  rw [hback.restored_iff, hrunning]
  decide

end Predistortion.Session
