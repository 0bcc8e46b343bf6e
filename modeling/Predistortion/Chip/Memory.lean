import Predistortion.Bytes.Basic
import Std.Data.HashMap

/-!
# Memory

The chip's memory is a byte for each 32-bit address, zero until written. Runs of bytes are read and
written at consecutive addresses, which wrap around at the top. Main statements: what a single write
does to a single read (`read_write`), and that a run of bytes is read where it was written
(`readRun_writeRun_self`).
-/

namespace Predistortion

/-- A byte for each address. -/
structure Memory where
  /-- The bytes that were written. -/
  cells : Std.HashMap UInt32 UInt8

namespace Memory

/-- Memory that was never written. -/
def blank : Memory := ⟨∅⟩

instance : Inhabited Memory := ⟨blank⟩

/-- The byte at an address. -/
def read (m : Memory) (address : UInt32) : UInt8 := m.cells.getD address 0

/-- The memory with one byte written. -/
def write (m : Memory) (address : UInt32) (value : UInt8) : Memory :=
  ⟨m.cells.insert address value⟩

/-- The `n` bytes from an address on. -/
def readRun (m : Memory) (address : UInt32) (n : Nat) : Bytes :=
  (List.range n).map fun i => m.read (address + UInt32.ofNat i)

/-- The `n` bytes from an address on, as a block of fixed length. -/
def readBlock (m : Memory) (address : UInt32) (n : Nat) : Vector UInt8 n :=
  Vector.ofFn fun i => m.read (address + UInt32.ofNat i.val)

/-- The memory with a run of bytes written from an address on. -/
def writeRun (m : Memory) (address : UInt32) : Bytes → Memory
  | [] => m
  | b :: rest => (m.write address b).writeRun (address + 1) rest

/-- A memory that was never written reads as zero everywhere. -/
@[simp] theorem read_blank (address : UInt32) : blank.read address = 0 := by
  simp [blank, read]

/-- A write shows at its own address and nowhere else. All about runs of writes follows from
this. -/
theorem read_write (m : Memory) (address : UInt32) (value : UInt8) (a : UInt32) :
    (m.write address value).read a = if a = address then value else m.read a := by
  unfold read write
  rw [Std.HashMap.getD_insert]
  by_cases h : address = a
  · subst h; simp
  · simp [h, Ne.symm h]

/-- A run is read in its full length, wherever it starts. -/
@[simp] theorem length_readRun (m : Memory) (address : UInt32) (n : Nat) :
    (m.readRun address n).length = n := by
  simp [readRun]

/-- A run of writes does not show at an address that it does not reach. The addresses may wrap
around, so they are compared one by one and not as intervals. -/
theorem read_writeRun_of_ne (data : Bytes) (m : Memory) (address a : UInt32)
    (h : ∀ i, i < data.length → a ≠ address + UInt32.ofNat i) :
    (m.writeRun address data).read a = m.read a := by
  induction data generalizing m address with
  | nil => rfl
  | cons b rest ih =>
    rw [writeRun, ih, read_write, if_neg]
    · have h0 := h 0 (by simp)
      simpa using h0
    · intro i hi
      have hs := h (i + 1) (by simp; omega)
      intro heq
      apply hs
      rw [heq, UInt32.add_assoc]
      congr 1
      apply UInt32.toNat_inj.1
      simp [Nat.add_comm]

/-- A run of writes shows, at each address it reaches, the byte meant for it, as long as it is not
longer than the address space. -/
theorem read_writeRun (data : Bytes) (m : Memory) (address : UInt32) (i : Nat)
    (hi : i < data.length) (hlen : data.length ≤ 0x100000000) :
    (m.writeRun address data).read (address + UInt32.ofNat i) = data.byteAt i := by
  induction data generalizing m address i with
  | nil => simp at hi
  | cons b rest ih =>
    simp only [List.length_cons] at hi hlen
    cases i with
    | zero =>
      rw [writeRun, read_writeRun_of_ne]
      · rw [read_write, if_pos (by simp)]
        rfl
      · intro j hj heq
        have h1 : (address + UInt32.ofNat 0) = address := by simp
        rw [h1, UInt32.add_assoc] at heq
        have h2 : (1 + UInt32.ofNat j) = 0 := by
          have := congrArg (fun x => x - address) heq
          simpa [UInt32.add_comm address] using this.symm
        have h3 := congrArg UInt32.toNat h2
        simp at h3
        omega
    | succ i =>
      have hstep : address + UInt32.ofNat (i + 1) = address + 1 + UInt32.ofNat i := by
        rw [UInt32.add_assoc]
        congr 1
        apply UInt32.toNat_inj.1
        simp [Nat.add_comm]
      rw [writeRun, hstep, ih _ _ _ (by omega) (by omega)]
      simp [Bytes.byteAt]

/-- A run of bytes is read where it was written, if it does not come around to its own start. -/
theorem readRun_writeRun_self (m : Memory) (address : UInt32) (data : Bytes)
    (hlen : data.length ≤ 0x100000000) :
    (m.writeRun address data).readRun address data.length = data := by
  apply List.ext_getElem (by simp)
  intro i h1 h2
  simp only [readRun, List.getElem_map, List.getElem_range]
  rw [read_writeRun data m address i h2 hlen]
  simp [Bytes.byteAt, h2]

end Memory

end Predistortion
