import Predistortion.Actuator.Table

/-!
# Staged tables

The tables of the model that is not running are staged in rows of 512 bytes, two rows for each of
the 26 tables, and promoted by the firmware on request. A payload that is shorter than its two rows
is padded with zeros: the zeros are written first and the payload over them (`rowWrites`).
-/

namespace Predistortion.Staging

/-- The count of staged tables. -/
def tables : Nat := 26

/-- The length of a row. -/
def rowBytes : Nat := 512

/-- The length of the longest payload. -/
def maxBytes : Nat := 2 * rowBytes

/-- Checks the payload of a staged table. -/
def check (table : UInt64) (data : Bytes) : Except Error Unit :=
  if table.toNat ≥ tables then
    .error (.invalid "multiModelLut" (toString table.toNat) s!"must be < {tables}")
  else if data.length > maxBytes then
    .error (.invalid "multiModelLutSize" (toString data.length) s!"must be <= {maxBytes}")
  else if data.length % 4 ≠ 0 then
    .error (.invalid "multiModelLutSize" (toString data.length) "must be a multiple of 4")
  else
    .ok ()

/-- The address of the first or the second row of a table. The row number is counted in 64 bits and
cut to 32. -/
def rowAddress (table : UInt64) (second : Bool) : UInt32 :=
  stagingBase + (table * 2 + if second then 1 else 0).toUInt32 * stagingStride

/-- The writes that put a payload's part into a row: the part alone when it fills the row, else
zeros and then what there is. -/
def rowWrites (table : UInt64) (second : Bool) (part : Bytes) : List (UInt32 × Bytes) :=
  let address := rowAddress table second
  if part.length ≥ rowBytes then
    [(address, part.take rowBytes)]
  else if part.isEmpty then
    [(address, Bytes.zeros rowBytes)]
  else
    [(address, Bytes.zeros rowBytes), (address, part)]

/-- The writes that stage a table. -/
def tableWrites (table : UInt64) (data : Bytes) : List (UInt32 × Bytes) :=
  rowWrites table false data ++ rowWrites table true (data.drop rowBytes)

/-- The outcome of the last promotion. -/
structure Promotion where
  /-- The firmware's status byte. -/
  status : UInt8
  /-- The bank in which the tables landed. -/
  bank : Bank
deriving DecidableEq, Inhabited

end Predistortion.Staging
