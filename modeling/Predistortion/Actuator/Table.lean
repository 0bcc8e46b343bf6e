import Predistortion.Actuator.Model
import Predistortion.RegisterMap

/-!
# Actuator tables

Each channel owns 32 look-up tables of 4096 bytes in four banks of 1024. This module names a table
(`Table`), resolves its address, and checks that an access which starts at a bank ends inside the
table.
-/

namespace Predistortion

/-- The index of a table. -/
structure Table where
  /-- The index. -/
  index : Fin 32
deriving DecidableEq

namespace Table

/-- The length of a table. -/
def bytes : Nat := 4096

/-- The length of a bank. -/
def bankBytes : Nat := 1024

/-- The table on which swap mode parks the memory access. -/
def park : Table := ⟨31⟩

/-- The byte that stands for a table. -/
def raw (t : Table) : UInt8 := UInt8.ofNat t.index.val

/-- The table that a byte stands for. -/
def ofRaw? (raw : UInt8) : Option Table :=
  if h : raw.toNat < 32 then some ⟨⟨raw.toNat, h⟩⟩ else none

/-- The table that a byte stands for; there are 32. -/
def ofRaw (raw : UInt8) : Except Error Table :=
  match ofRaw? raw with
  | some t => .ok t
  | none => .error (.invalid "lut" (toString raw.toNat) "must be LUT0..LUT31")

/-- The table that the low five bits of a mode register select. -/
def ofMode (mode : UInt32) : Table :=
  ⟨⟨(mode &&& ramSelectMask).toNat, by
    have h : (mode &&& ramSelectMask).toNat ≤ ramSelectMask.toNat := by
      rw [UInt32.toNat_and]; exact Nat.and_le_right
    exact Nat.lt_of_le_of_lt h (by decide)⟩⟩

/-- The name shown to users. -/
def label (t : Table) : String := s!"LUT{t.index.val}"

/-- The bit of a table in the power register. -/
def powerBit (t : Table) : UInt32 := 1 <<< UInt32.ofNat t.index.val

/-- The address of a bank of a table. -/
def address (c : Channel) (t : Table) (b : Bank) : UInt32 :=
  c.block.tables + UInt32.ofNat t.index.val * UInt32.ofNat bytes +
    UInt32.ofNat b.index * UInt32.ofNat bankBytes

/-- Checks that `length` bytes from a bank on stay inside the table. The end of the access is
computed in machine words. -/
def checkAccess (b : Bank) (length : UInt64) : Except Error Unit :=
  if length = 0 then
    .error (.missing "lutData")
  else
    let stop := UInt64.ofNat b.index * UInt64.ofNat bankBytes + length
    if stop > UInt64.ofNat bytes then
      .error (.invalid "lutDataSize" (toString length.toNat)
        (s!"{b.label} access would end at byte {stop.toNat}, " ++
          s!"past the {bytes}-byte LUT"))
    else
      .ok ()

end Table

end Predistortion
