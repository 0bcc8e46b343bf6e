import Predistortion.Error

/-!
# Transmit channels

A `Channel` is one of the four transmitters; operations on one target take a channel. A
`ChannelMask` names any set of them by one bit each; batch operations take a mask. A mask keeps bits
that name no channel, because the commands that carry a mask carry all eight of its bits.
-/

namespace Predistortion

/-! ## Channels -/

/-- A transmitter. -/
inductive Channel where
  | tx1 | tx2 | tx3 | tx4
deriving DecidableEq, Inhabited

namespace Channel

/-- The channels in ascending order. -/
def all : List Channel := [tx1, tx2, tx3, tx4]

/-- The position of a channel, from 0. -/
def index : Channel → Nat
  | tx1 => 0
  | tx2 => 1
  | tx3 => 2
  | tx4 => 3

/-- The position as the byte that records carry. -/
def code (c : Channel) : UInt8 := UInt8.ofNat c.index

/-- The mask bit of a channel. -/
def bit : Channel → UInt8
  | tx1 => 1
  | tx2 => 2
  | tx3 => 4
  | tx4 => 8

/-- The name shown to users. -/
def label : Channel → String
  | tx1 => "Tx1"
  | tx2 => "Tx2"
  | tx3 => "Tx3"
  | tx4 => "Tx4"

/-- The channel at a position. -/
def ofIndex? (i : Nat) : Option Channel := all[i]?

/-- The channel whose bit is the whole of `bits`. -/
def ofBit? (bits : UInt8) : Option Channel := all.find? (·.bit == bits)

/-- The channel at the position that a record byte or an argument gives. -/
def ofIndex (i : UInt8) : Except Error Channel :=
  match ofIndex? i.toNat with
  | some c => .ok c
  | none => .error (.invalid "txChannelIndex" (toString i.toNat) "must be in 0..=3")

/-- A channel is read from the byte that records carry for it. -/
@[simp] theorem ofIndex_code (c : Channel) : ofIndex c.code = .ok c := by
  cases c <;> rfl

/-- The channel whose bit is the whole of `bits`; two bits at once name no channel. -/
def ofBit (bits : UInt8) : Except Error Channel :=
  match ofBit? bits with
  | some c => .ok c
  | none =>
    .error (.invalid "txChannel" s!"0x{Numeral.hex 2 bits.toNat}" "must be exactly one of Tx1..Tx4")

/-- A channel is found again at its position. -/
@[simp] theorem ofIndex?_index (c : Channel) : ofIndex? c.index = some c := by cases c <;> rfl

/-- A channel is known by its position, so that channels can be told apart by arithmetic. -/
theorem index_inj {c d : Channel} (h : c.index = d.index) : c = d := by
  have hsome := congrArg ofIndex? h
  simpa using hsome

/-- A channel is found again by its bit. -/
@[simp] theorem ofBit?_bit (c : Channel) : ofBit? c.bit = some c := by cases c <;> rfl

/-- The list of all channels leaves none out. -/
@[simp] theorem mem_all (c : Channel) : c ∈ all := by cases c <;> simp [all]

end Channel

/-! ## Masks -/

/-- A set of channels, one bit each; bits that name no channel are kept. -/
structure ChannelMask where
  /-- The bits. -/
  bits : UInt8
deriving DecidableEq, Inhabited

namespace ChannelMask

/-- The mask without any bit. -/
def empty : ChannelMask := ⟨0⟩

/-- The mask of one channel. -/
def singleton (c : Channel) : ChannelMask := ⟨c.bit⟩

/-- No bit at all is set. -/
def isEmpty (m : ChannelMask) : Bool := m.bits == 0

/-- The bit of `c` is set. -/
def contains (m : ChannelMask) (c : Channel) : Bool := m.bits &&& c.bit != 0

/-- The member channels in ascending order. -/
def channels (m : ChannelMask) : List Channel := Channel.all.filter m.contains

/-- The bits that name no channel. -/
def strayBits (m : ChannelMask) : UInt8 := m.bits &&& 0xF0

/-- The bits as messages show them. -/
def label (m : ChannelMask) : String := s!"0x{Numeral.hex 2 m.bits.toNat}"

/-- A mask from bits that must name at least one channel and nothing else. -/
def ofBits (bits : UInt8) : Except Error ChannelMask :=
  let m : ChannelMask := ⟨bits⟩
  if m.isEmpty || m.strayBits != 0 then
    .error (.invalid "txChannelMask" m.label "must be a non-empty combination of Tx1..Tx4")
  else
    .ok m

/-- Refuses a mask without any bit. -/
def requireNonempty (m : ChannelMask) : Except Error Unit :=
  if m.isEmpty then
    .error (.invalid "txChannelMask" "0x00" "at least one channel required")
  else
    .ok ()

/-- The channels of a mask are those whose bits are set. Bits that name no channel add nothing. -/
@[simp] theorem mem_channels {m : ChannelMask} {c : Channel} :
    c ∈ m.channels ↔ m.contains c = true := by
  simp [channels]

/-- The channels of a mask stand by ascending position, and so each of them stands there once. What
a batch operation does for a mask, it does in this order. -/
theorem pairwise_channels (m : ChannelMask) : m.channels.Pairwise fun c d => c.index < d.index :=
  List.Pairwise.filter _ (by decide : Channel.all.Pairwise fun c d => c.index < d.index)

/-- The mask of one channel has this channel and no other one. -/
@[simp] theorem channels_singleton (c : Channel) : (singleton c).channels = [c] := by
  cases c <;> decide

end ChannelMask

/-! ## Tables with one entry for each channel -/

/-- One value for each channel. -/
structure PerChannel (α : Type) where
  /-- The value of the first channel. -/
  tx1 : α
  /-- The value of the second channel. -/
  tx2 : α
  /-- The value of the third channel. -/
  tx3 : α
  /-- The value of the fourth channel. -/
  tx4 : α
deriving DecidableEq, Inhabited

namespace PerChannel

variable {α : Type}

/-- The same value for all channels. -/
def replicate (a : α) : PerChannel α := ⟨a, a, a, a⟩

/-- The value of a channel. -/
def get (t : PerChannel α) : Channel → α
  | .tx1 => t.tx1
  | .tx2 => t.tx2
  | .tx3 => t.tx3
  | .tx4 => t.tx4

/-- The table with the value of one channel replaced. -/
def set (t : PerChannel α) (c : Channel) (a : α) : PerChannel α :=
  match c with
  | .tx1 => { t with tx1 := a }
  | .tx2 => { t with tx2 := a }
  | .tx3 => { t with tx3 := a }
  | .tx4 => { t with tx4 := a }

/-- The table with the values of all channels in a list replaced by functions of the old ones. -/
def modifyAll (t : PerChannel α) (f : α → α) (cs : List Channel) : PerChannel α :=
  cs.foldl (fun t c => t.set c (f (t.get c))) t

/-- A table that was filled with one value has it for every channel. -/
@[simp] theorem get_replicate (a : α) (c : Channel) : (replicate a).get c = a := by
  cases c <;> rfl

/-- The value of a channel that is set is the one that was given. -/
@[simp] theorem get_set_self (t : PerChannel α) (c : Channel) (a : α) : (t.set c a).get c = a := by
  cases c <;> rfl

/-- To set the value of one channel leaves those of the others. -/
theorem get_set_of_ne (t : PerChannel α) {c d : Channel} (h : d ≠ c) (a : α) :
    (t.set c a).get d = t.get d := by
  cases c <;> cases d <;> first | rfl | exact absurd rfl h

end PerChannel

end Predistortion
