import Predistortion.Actuator.Table

/-!
# Swap-mode tables

In swap mode the actuator reads an active bank while the firmware brings in the content of a holding
bank. A write takes a set of payloads by table number; `SwapSet` holds it, and `SwapSet.check` says
which sets, active banks and companders go together.
-/

namespace Predistortion

/-- Payloads for the tables of a swap-mode write, at most one for each of the entries 0 to 30. -/
structure SwapSet where
  /-- The payload of each entry. -/
  entries : Vector (Option Bytes) 31

namespace SwapSet

/-- The count of entries. -/
def size : Nat := 31

/-- The count of entries that a write covers; the table after the last of them is still left over
for parking. -/
abbrev writtenCount : Nat := 30

/-- No payload at all. -/
def empty : SwapSet := ⟨Vector.replicate 31 none⟩

instance : Inhabited SwapSet := ⟨empty⟩

/-- The set with the payload of an entry replaced. -/
def insert (s : SwapSet) (entry : Nat) (data : Bytes) : Except Error SwapSet :=
  if h : entry < size then
    .ok ⟨s.entries.set entry (some data) h⟩
  else
    .error (.invalid "swapModeLutIndex" (toString entry) s!"must be < {size}")

/-- The set of a list of payloads; a later payload replaces an earlier one of the same entry. -/
def ofList (payloads : List (Nat × Bytes)) : Except Error SwapSet :=
  payloads.foldlM (fun s p => s.insert p.1 p.2) empty

/-- The payload of an entry; an empty payload counts as none. -/
def get? (s : SwapSet) (entry : Nat) : Option Bytes :=
  match s.entries[entry]? with
  | some (some data) => if data.isEmpty then none else some data
  | _ => none

/-- The payloads that a write covers, by descending entry. -/
def payloads (s : SwapSet) : List (Fin writtenCount × Bytes) :=
  (List.finRange writtenCount).reverse.filterMap fun entry => (s.get? entry.val).map (entry, ·)

/-- The table that an entry is written to in the active bank. -/
def activeTable (entry : Fin writtenCount) : Table := ⟨entry.castLE (by decide)⟩

/-- The table that an entry is written to in the holding bank: the one after it. -/
def heldTable (entry : Fin writtenCount) : Table := ⟨entry.succ.castLE (by decide)⟩

/-- An active bank that leaves the holding bank free. -/
def isActiveBank : Compander → Bank → Bool
  | .bits9, b => b == .bank0
  | .bits8, b => b != .bank3

/-- Checks a set against the compander and the active bank: first the bank, then that the last entry
is unused, then the length of each payload by descending entry. -/
def check (s : SwapSet) (compander : Compander) (bank : Bank) : Except Error Unit := do
  if !isActiveBank compander bank then
    throw (.invalid "lutBank" bank.label
      s!"not a valid active bank in swap mode with a {compander.label} compander")
  if (s.get? (size - 1)).isSome then
    throw (.invalid "swapModeLutIndex" (toString (size - 1))
      s!"swap mode writes entries 0..={writtenCount - 1} only")
  s.payloads.forM fun p =>
    if p.2.length > compander.maxSwapBytes then
      throw (.invalid "swapModeLutSize" (toString p.2.length)
        (s!"entry {p.1.val} exceeds {compander.maxSwapBytes} bytes " ++
          s!"for a {compander.label} compander"))
    else
      pure ()

end SwapSet

end Predistortion
