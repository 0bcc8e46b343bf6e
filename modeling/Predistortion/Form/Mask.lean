import Predistortion.Channel
import Predistortion.Form.Basic
import Predistortion.Text.Blank

/-!
# Channel masks as text

A mask is written as the names of its channels in ascending order, joined by bars, with the bits
that name no channel as one hexadecimal item at the end. Reading takes names and hexadecimal items
in any order and adds up their bits.
-/

namespace Predistortion.ChannelMask

/-- The names of the single bits. -/
def bitNames : List (String × ChannelMask) :=
  [("TX1", ⟨1⟩), ("TX2", ⟨2⟩), ("TX3", ⟨4⟩), ("TX4", ⟨8⟩)]

/-- The mask as text. -/
def toText (m : ChannelMask) : String :=
  let names := bitNames.filterMap fun (name, bit) =>
    if m.bits &&& bit.bits ≠ 0 then some name else none
  let stray :=
    if m.strayBits ≠ 0 then ["0x" ++ String.ofList (Nat.toDigits 16 m.strayBits.toNat)] else []
  " | ".intercalate (names ++ stray)

/-- The value of a hexadecimal digit of either case. -/
def hexDigit? (c : Char) : Option Nat :=
  if '0' ≤ c ∧ c ≤ '9' then some (c.toNat - '0'.toNat)
  else if 'a' ≤ c ∧ c ≤ 'f' then some (c.toNat - 'a'.toNat + 10)
  else if 'A' ≤ c ∧ c ≤ 'F' then some (c.toNat - 'A'.toNat + 10)
  else none

/-- The number that hexadecimal digits write; there must be one. -/
def hexNumber? (digits : List Char) : Option Nat :=
  if digits.isEmpty then none
  else digits.foldlM (fun n c => (hexDigit? c).map (16 * n + ·)) 0

/-- The bits of one item: a name, or a hexadecimal number of at most eight bits, which may have a
plus sign. -/
def item? (cs : List Char) : Option UInt8 :=
  match cs with
  | '0' :: 'x' :: digits =>
    let digits :=
      match digits with
      | '+' :: rest => rest
      | _ => digits
    match hexNumber? digits with
    | some n => if n < 256 then some (UInt8.ofNat n) else none
    | none => none
  | _ => (bitNames.lookup (String.ofList cs)).map (·.bits)

/-- The mask that a text stands for; a blank text stands for the empty mask. -/
def ofText? (s : String) : Option ChannelMask :=
  if (Text.trim s.toList).isEmpty then
    some empty
  else
    ((Text.splitAt '|' s.toList).foldlM
      (fun bits part => (item? (Text.trim part)).map (bits ||| ·)) 0).map ChannelMask.mk

instance : Form ChannelMask where
  toValue m := .text m.toText
  ofValue
    | .text s =>
      match ofText? s with
      | some m => .ok m
      | none => .mismatch .rejected
    | _ => .mismatch .wrongType

end Predistortion.ChannelMask
