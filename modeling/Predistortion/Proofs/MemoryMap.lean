import Predistortion.Actuator.Staging
import Predistortion.Bytes.LittleEndian
import Predistortion.Chip.Memory

/-!
# The memory map

Registers, tables and staged rows share one memory of bytes. This module says where they lie
(`ActuatorRegister.address`, `Table.toNat_address`, `Staging.toNat_rowAddress`) and that they do not
meet: two registers never share a byte (`ActuatorRegister.disjoint`), all registers lie below all
tables (`ActuatorRegister.end_le`, `Table.le_place`), and two positions in tables are the same only
if channel, table and offset are (`Table.place_inj`).

It also says how runs of bytes are cut (`runAt_add`), what a run that is written shows at an address
(`Memory.read_writeRun_eq`) and does to the words of the memory, and what it comes to if bits of a
word are replaced (`withBits`).
-/

namespace Predistortion

/-! ## Runs of bytes -/

section runs

variable {bytes bytes' : UInt32 → UInt8} {a : UInt32} {m n : Nat}

/-- The `n` bytes from an address on. -/
def runAt (bytes : UInt32 → UInt8) (a : UInt32) (n : Nat) : Bytes :=
  (List.range n).map fun i => bytes (a + UInt32.ofNat i)

/-- A run has as many bytes as are asked for. -/
@[simp] theorem length_runAt : (runAt bytes a n).length = n := by
  simp [runAt]

/-- A run that is read from a memory is the run of what the memory has at each address. -/
theorem Memory.runAt_read (memory : Memory) (a : UInt32) (n : Nat) :
    runAt memory.read a n = memory.readRun a n := rfl

/-- The bytes of a run stand in the order of their addresses, one after the other. Addresses wrap
around at the top of the memory. -/
theorem byteAt_runAt {i : Nat} (h : i < n) :
    (runAt bytes a n).byteAt i = bytes (a + UInt32.ofNat i) := by
  simp [runAt, Bytes.byteAt, h]

/-- Runs are the same if what stands at their addresses is the same. What stands elsewhere has no
part in them. -/
theorem runAt_congr (h : ∀ i < n, bytes (a + UInt32.ofNat i) = bytes' (a + UInt32.ofNat i)) :
    runAt bytes a n = runAt bytes' a n := by
  unfold runAt
  rw [List.map_inj_left]
  intro i hi
  exact h i (List.mem_range.1 hi)

end runs

/-! ## Runs and words -/

/-- A word is read where it was written. -/
theorem LittleEndian.uint32At_ofUInt32 (w : UInt32) : uint32At (ofUInt32 w) 0 = w := by
  have hwindow : (ofUInt32 w).window 0 4 = ofUInt32 w := by
    simp [Bytes.window, Bytes.padTo, Bytes.zeros, List.take_of_length_le]
  rw [uint32At, hwindow, decode_ofUInt32, UInt32.ofNat_toNat]

namespace Memory

variable {m : Memory} {address : UInt32} {data : Bytes}

/-- An address that stays below the top of the memory does not wrap around, so places can be
compared as numbers. -/
theorem toNat_add_ofNat {i : Nat} (h : address.toNat + i < 0x100000000) :
    (address + UInt32.ofNat i).toNat = address.toNat + i := by
  rw [UInt32.toNat_add, UInt32.toNat_ofNat_of_lt' (show i < 2 ^ 32 by omega)]
  exact Nat.mod_eq_of_lt h

/-- What is written without running over the top of the memory shows at the addresses that it
reaches, and nowhere else. -/
theorem read_writeRun_eq (h : address.toNat + data.length ≤ 0x100000000) (a : UInt32) :
    (m.writeRun address data).read a =
      if address.toNat ≤ a.toNat ∧ a.toNat < address.toNat + data.length then
        data.byteAt (a.toNat - address.toNat)
      else m.read a := by
  by_cases hreached : address.toNat ≤ a.toNat ∧ a.toNat < address.toNat + data.length
  · rw [if_pos hreached]
    have ha : a = address + UInt32.ofNat (a.toNat - address.toNat) := by
      apply UInt32.toNat_inj.1
      rw [toNat_add_ofNat (by omega)]
      omega
    rw [← read_writeRun data m address (a.toNat - address.toNat) (by omega) (by omega), ← ha]
  · rw [if_neg hreached]
    apply read_writeRun_of_ne
    intro i hi heq
    apply hreached
    rw [heq, toNat_add_ofNat (by omega)]
    omega

/-- What is read depends on nothing but the bytes that it covers. -/
theorem readRun_congr {m m' : Memory} {n : Nat}
    (h : ∀ i < n, m.read (address + UInt32.ofNat i) = m'.read (address + UInt32.ofNat i)) :
    m.readRun address n = m'.readRun address n := runAt_congr h

/-- The little-endian word at an address. -/
def word (m : Memory) (address : UInt32) : UInt32 :=
  LittleEndian.uint32At (m.readRun address 4) 0

/-- A word is read back where it was written. -/
theorem word_writeRun_self (m : Memory) (address value : UInt32) :
    (m.writeRun address (LittleEndian.ofUInt32 value)).word address = value := by
  have hrun := readRun_writeRun_self m address (LittleEndian.ofUInt32 value) (by simp)
  rw [LittleEndian.length_ofUInt32] at hrun
  unfold word
  rw [hrun, LittleEndian.uint32At_ofUInt32]

/-- A word is left alone by everything that is written below it or above it, as long as neither of
the two runs over the top of the memory. -/
theorem word_writeRun_of_disjoint {place : UInt32}
    (h : address.toNat + data.length ≤ 0x100000000) (hplace : place.toNat + 4 ≤ 0x100000000)
    (hdisjoint : place.toNat + 4 ≤ address.toNat ∨ address.toNat + data.length ≤ place.toNat) :
    (m.writeRun address data).word place = m.word place := by
  have hrun : (m.writeRun address data).readRun place 4 = m.readRun place 4 := by
    apply readRun_congr
    intro i hi
    rw [read_writeRun_eq h, if_neg]
    rw [toNat_add_ofNat (by omega)]
    omega
  unfold word
  rw [hrun]

/-- The bytes of a word are the four that are read at its address, lowest first. -/
theorem ofUInt32_word (m : Memory) (address : UInt32) :
    LittleEndian.ofUInt32 (m.word address) = m.readRun address 4 := by
  have hwindow : (m.readRun address 4).window 0 4 = m.readRun address 4 := by
    simp [Bytes.window, Bytes.padTo, Bytes.zeros, List.take_of_length_le]
  have hlt := LittleEndian.decode_lt (m.readRun address 4)
  have hbytes := LittleEndian.encode_decode (m.readRun address 4)
  rw [length_readRun] at hlt hbytes
  unfold word LittleEndian.uint32At LittleEndian.ofUInt32
  rw [hwindow, UInt32.toNat_ofNat_of_lt' hlt, hbytes]

end Memory

/-! ## Bits of a word -/

/-- The word with the bits of a mask taken from another one. -/
def withBits (word mask value : UInt32) : UInt32 := word &&& ~~~mask ||| value &&& mask

section bits

variable (w mask v v' : UInt32)

/-- The bits of the mask come from the one word, all others from the other. The laws below are read
off this, bit by bit. -/
theorem getElem_withBits {i : Nat} (hi : i < 32) : (withBits w mask v).toBitVec[i] =
    if mask.toBitVec[i] then v.toBitVec[i] else w.toBitVec[i] := by
  unfold withBits
  simp only [UInt32.toBitVec_or, UInt32.toBitVec_and, UInt32.toBitVec_not, BitVec.getElem_or,
    BitVec.getElem_and, BitVec.getElem_not]
  cases mask.toBitVec[i] <;> simp

/-- To replace bits by themselves changes nothing. -/
theorem withBits_self : withBits w mask w = w := by
  apply UInt32.eq_of_toBitVec_eq
  ext i hi
  rw [getElem_withBits, ite_self]

/-- Of two replacements under one mask the later one counts. -/
theorem withBits_withBits : withBits (withBits w mask v) mask v' = withBits w mask v' := by
  apply UInt32.eq_of_toBitVec_eq
  ext i hi
  rw [getElem_withBits, getElem_withBits, getElem_withBits]
  split <;> rfl

/-- The bits of the mask are those of the other word. What is put into a field can be read back from
it. -/
theorem withBits_and : withBits w mask v &&& mask = v &&& mask := by
  apply UInt32.eq_of_toBitVec_eq
  ext i hi
  rw [UInt32.toBitVec_and, UInt32.toBitVec_and, BitVec.getElem_and, BitVec.getElem_and,
    getElem_withBits]
  cases mask.toBitVec[i] <;> simp

/-- The bits of another mask are kept, if the two masks have none in common. So fields of one
register can be written without regard to each other. -/
theorem withBits_and_of_disjoint {mask n : UInt32} (h : mask &&& n = 0) :
    withBits w mask v &&& n = w &&& n := by
  apply UInt32.eq_of_toBitVec_eq
  ext i hi
  have hbit : (mask.toBitVec[i] && n.toBitVec[i]) = false := by
    rw [← BitVec.getElem_and, ← UInt32.toBitVec_and, h]
    exact BitVec.getElem_zero hi
  rw [UInt32.toBitVec_and, UInt32.toBitVec_and, BitVec.getElem_and, BitVec.getElem_and,
    getElem_withBits]
  cases hmask : mask.toBitVec[i] with
  | true =>
    rw [hmask, Bool.true_and] at hbit
    rw [hbit, Bool.and_false, Bool.and_false]
  | false => rfl

/-- Bits that are replaced by what they were leave the word as it was. What was saved is put back in
this way. -/
theorem withBits_of_and_eq {w mask v : UInt32} (h : v &&& mask = w &&& mask) :
    withBits w mask v = w := by
  have hself := withBits_self w mask
  unfold withBits at hself ⊢
  rw [h, hself]

/-- Bits that are written as they were read beside others change nothing. Two flags that are always
written together are told apart by this. -/
theorem withBits_beside {mask v : UInt32} (kept : UInt32) (hmask : kept &&& mask = 0)
    (hv : v &&& mask = v) : withBits w (kept ||| mask) (w &&& kept ||| v) = withBits w mask v := by
  apply UInt32.eq_of_toBitVec_eq
  ext i hi
  have hapart : (kept.toBitVec[i] && mask.toBitVec[i]) = false := by
    rw [← BitVec.getElem_and, ← UInt32.toBitVec_and, hmask]
    exact BitVec.getElem_zero hi
  have hinside : (v.toBitVec[i] && mask.toBitVec[i]) = v.toBitVec[i] := by
    rw [← BitVec.getElem_and, ← UInt32.toBitVec_and, hv]
  rw [getElem_withBits, getElem_withBits]
  simp only [UInt32.toBitVec_or, UInt32.toBitVec_and, BitVec.getElem_or, BitVec.getElem_and]
  grind

/-- What two masks select of a word is what they select together. The masks may overlap. -/
theorem and_or_and (n : UInt32) :
    (w &&& mask ||| w &&& n) &&& (mask ||| n) = w &&& (mask ||| n) := by
  have hsplit : w &&& (mask ||| n) = w &&& mask ||| w &&& n := by
    apply UInt32.eq_of_toBitVec_eq
    simp only [UInt32.toBitVec_and, UInt32.toBitVec_or, BitVec.and_or_distrib_left]
  rw [← hsplit, UInt32.and_assoc, UInt32.and_self]

/-- The word has one bit. -/
def IsBit (b : UInt32) : Prop := ∃ i, b.toBitVec = BitVec.twoPow 32 i

/-- A single bit is kept as a flag, and the flag gives back what the mask selects of the word. -/
theorem ite_and_eq {b : UInt32} (h : IsBit b) : (if w &&& b != 0 then b else 0) = w &&& b := by
  obtain ⟨i, hi⟩ := h
  have hand : w &&& b = if w.toBitVec.getLsbD i then b else 0 := by
    apply UInt32.eq_of_toBitVec_eq
    rw [UInt32.toBitVec_and, hi, BitVec.and_twoPow]
    split
    · exact hi.symm
    · rfl
  rw [hand]
  split
  · by_cases hzero : b = 0
    · simp [hzero]
    · simp [hzero]
  · simp

/-- The flag that enables an actuator is the lowest bit of its configuration. -/
theorem isBit_enable : IsBit ConfigBit.enable := ⟨0, by decide⟩

/-- The flag for a channel that is passed through is the next bit. -/
theorem isBit_passthru : IsBit ConfigBit.passthru := ⟨1, by decide⟩

/-- The bit of a table stands at its index, so the 32 tables of a channel fill one word. -/
theorem Table.toBitVec_powerBit (t : Table) :
    t.powerBit.toBitVec = BitVec.twoPow 32 t.index.val := by
  have hbits : ∀ i : Fin 32,
      ((1 : UInt32) <<< UInt32.ofNat i.val).toBitVec = BitVec.twoPow 32 i.val := by decide
  exact hbits t.index

/-- The power of a table is switched by a single bit, so that it can be set and read beside those of
the others. -/
theorem isBit_powerBit (t : Table) : IsBit t.powerBit := ⟨t.index.val, t.toBitVec_powerBit⟩

end bits

/-! ## Registers -/

/-- A register of an actuator that accesses to tables work on. -/
inductive ActuatorRegister where
  /-- The configuration register of a channel. -/
  | config (c : Channel)
  /-- The mode register of a channel. -/
  | mode (c : Channel)
  /-- The power register of a channel. -/
  | power (c : Channel)
deriving DecidableEq

namespace ActuatorRegister

/-- The registers of all channels. -/
def all : List ActuatorRegister :=
  Channel.all.map config ++ Channel.all.map mode ++ Channel.all.map power

/-- Where a register lies. -/
def address : ActuatorRegister → UInt32
  | config c => c.block.config
  | mode c => c.block.mode
  | power c => c.block.tablePower

/-- The list has every register, so that what is decided over the list holds for all of them. -/
theorem mem_all (r : ActuatorRegister) : r ∈ all := by
  cases r <;> simp [all]

/-- No two registers share a byte. There are twelve of them, which are compared one by one. -/
theorem disjoint {r q : ActuatorRegister} (h : r ≠ q) :
    r.address.toNat + 4 ≤ q.address.toNat ∨ q.address.toNat + 4 ≤ r.address.toNat := by
  have hall : ∀ r ∈ all, ∀ q ∈ all, r ≠ q →
      r.address.toNat + 4 ≤ q.address.toNat ∨ q.address.toNat + 4 ≤ r.address.toNat := by decide
  exact hall r (mem_all r) q (mem_all q) h

/-- All registers lie in the lower part of the memory, below everything that is moved in bulk. -/
theorem end_le (r : ActuatorRegister) : r.address.toNat + 4 ≤ 0x60000000 := by
  have hall : ∀ r ∈ all, r.address.toNat + 4 ≤ 0x60000000 := by decide
  exact hall r (mem_all r)

/-- The address is one of a register. -/
def Covers (a : UInt32) : Prop :=
  ∃ r ∈ all, r.address.toNat ≤ a.toNat ∧ a.toNat < r.address.toNat + 4

instance : DecidablePred Covers := fun _ => inferInstanceAs (Decidable (∃ r ∈ all, _))

/-- No register reaches into the upper part of the memory, where the tables and the rows are. -/
theorem not_covers_of_le {a : UInt32} (h : 0x60000000 ≤ a.toNat) : ¬Covers a := by
  rintro ⟨r, -, -, hlt⟩
  have hend := r.end_le
  omega

end ActuatorRegister

/-! ## Tables and staged rows -/

namespace Table

/-- Where a position of a table lies. -/
def place (c : Channel) (t : Table) (i : Nat) : Nat :=
  0x61800000 + c.index * 0x100000 + t.index.val * bytes + i

/-- The address at which a bank of a table is accessed is the place of its first byte. Nothing is
cut off when it is computed. -/
theorem toNat_address (c : Channel) (t : Table) (b : Bank) :
    (address c t b).toNat = place c t (b.index * bankBytes) := by
  have hbase : c.block.tables.toNat = 0x61800000 + c.index * 0x100000 := by cases c <;> rfl
  have htable : (UInt32.ofNat t.index.val * UInt32.ofNat bytes).toNat = t.index.val * bytes := by
    have ht := t.index.isLt
    rw [UInt32.toNat_mul, UInt32.toNat_ofNat_of_lt' (show t.index.val < 2 ^ 32 by omega)]
    exact Nat.mod_eq_of_lt (show t.index.val * bytes < 2 ^ 32 by unfold bytes; omega)
  have hbank : (UInt32.ofNat b.index * UInt32.ofNat bankBytes).toNat = b.index * bankBytes := by
    cases b <;> rfl
  have hb : b.index * bankBytes ≤ 3072 := by cases b <;> decide
  have hc : c.index ≤ 3 := by cases c <;> decide
  have ht := t.index.isLt
  unfold address place
  rw [UInt32.toNat_add, UInt32.toNat_add, hbase, htable, hbank]
  unfold bytes
  omega

section bounds

variable (c : Channel) (t : Table) {i : Nat}

/-- All tables lie above the registers, and above the areas that the commands use. -/
theorem le_place : 0x61800000 ≤ place c t i := by
  unfold place
  omega

/-- No table reaches beyond the part of the memory that is set aside for them. The bound includes
the end of the last one. -/
theorem place_lt (h : i ≤ bytes) : place c t i ≤ 0x61C00000 := by
  have hc : c.index ≤ 3 := by cases c <;> decide
  have ht := t.index.isLt
  unfold place bytes at *
  omega

end bounds

/-- Positions in tables do not meet. Channel, table and offset are the digits of the place, which is
why it tells them. -/
theorem place_inj {c c' : Channel} {t t' : Table} {i i' : Nat} (hi : i < bytes) (hi' : i' < bytes)
    (h : place c t i = place c' t' i') : c = c' ∧ t = t' ∧ i = i' := by
  have hc : c.index ≤ 3 := by cases c <;> decide
  have hc' : c'.index ≤ 3 := by cases c' <;> decide
  have ht := t.index.isLt
  have ht' := t'.index.isLt
  have hindex : c.index = c'.index ∧ t.index.val = t'.index.val ∧ i = i' := by
    unfold place bytes at *
    omega
  refine ⟨Channel.index_inj hindex.1, ?_, hindex.2.2⟩
  obtain ⟨t⟩ := t
  obtain ⟨t'⟩ := t'
  exact congrArg Table.mk (Fin.ext hindex.2.1)

end Table

/-- The address of a row, for whatever number of a table: what does not fit into a word is cut
off. -/
theorem Staging.toNat_rowAddress_mod (table : UInt64) (second : Bool) :
    (rowAddress table second).toNat =
      (0x62020000 + (table.toNat * 2 + second.toNat) * 1024) % 0x100000000 := by
  have hsecond : (if second then 1 else 0 : UInt64).toNat = second.toNat := by
    cases second <;> rfl
  have htwo : (2 : UInt64).toNat = 2 := rfl
  have hbase : stagingBase.toNat = 0x62020000 := rfl
  have hstride : stagingStride.toNat = 1024 := rfl
  unfold rowAddress
  rw [UInt32.toNat_add, UInt32.toNat_mul, UInt64.toNat_toUInt32, UInt64.toNat_add,
    UInt64.toNat_mul, hsecond, htwo, hbase, hstride]
  omega

/-- The rows stand one after the other, two for each table, above all tables. -/
theorem Staging.toNat_rowAddress {table : UInt64} (h : table.toNat < tables) (second : Bool) :
    (rowAddress table second).toNat = 0x62020000 + (table.toNat * 2 + second.toNat) * 1024 := by
  have hle := second.toNat_le
  unfold tables at h
  rw [toNat_rowAddress_mod, Nat.mod_eq_of_lt (by omega)]

end Predistortion
