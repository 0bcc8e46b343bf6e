import Predistortion.Chip.Fault
import Predistortion.Chip.Memory

/-!
# The chip

A simulated chip: its memory, the firmware's objects and per-channel state, the table of pins, and
beside them the faults that are injected, the calls that were made (`calls`) and the journal of
completed transactions (`journal`). Calls and journal are kept newest first.
-/

namespace Predistortion

/-- What the firmware keeps for one channel. -/
structure ChannelState where
  /-- The actuator clock runs. -/
  clock : Bool
  /-- The actuator is enabled. -/
  enabled : Bool
  /-- The model that is selected. -/
  model : UInt8
  /-- The clipper record. -/
  clipper : Vector UInt8 3
  /-- The clip counter. -/
  clipCount : UInt32
  /-- The status of the last promotion of staged tables. -/
  promotion : Vector UInt8 2
  /-- The capture status record. -/
  status : Vector UInt8 26
deriving DecidableEq

namespace ChannelState

/-- A channel after reset. -/
def initial : ChannelState where
  clock := false
  enabled := false
  model := 0
  clipper := Vector.replicate 3 0
  clipCount := 0
  promotion := Vector.replicate 2 0
  status := Vector.replicate 26 0

instance : Inhabited ChannelState := ⟨initial⟩

end ChannelState

/-- The position of a source group in the register file. -/
def SourceGroup.index : SourceGroup → Fin 5
  | .pins0To3 => 0
  | .pins4To7 => 1
  | .pins8To11 => 2
  | .pins12To15 => 3
  | .pins16To18 => 4

/-- The groups are told apart by their positions, so what is kept by position is kept for each
group. -/
theorem SourceGroup.index_inj {g h : SourceGroup} : g.index = h.index ↔ g = h := by
  cases g <;> cases h <;> decide

/-- What is kept about the pins. -/
structure PinTable where
  /-- The direction of each pin. -/
  directions : Vector Direction pinCount
  /-- The owner of each pin. -/
  features : Vector Feature pinCount
  /-- The source control of each group. -/
  sources : Vector UInt8 5
deriving DecidableEq

namespace PinTable

/-- All pins are free inputs. -/
def initial : PinTable where
  directions := Vector.replicate pinCount .input
  features := Vector.replicate pinCount .unused
  sources := Vector.replicate 5 0

instance : Inhabited PinTable := ⟨initial⟩

/-- The direction of a pin; no pin counts as an input. -/
def direction (t : PinTable) : Pin → Direction
  | .digital n => t.directions.get n
  | .unassigned => .input

/-- The owner of a pin; no pin is owned by nobody. -/
def feature (t : PinTable) : Pin → Feature
  | .digital n => t.features.get n
  | .unassigned => .unused

/-- The source control of a group. -/
def source (t : PinTable) (g : SourceGroup) : UInt8 := t.sources[g.index]

/-- The table with the direction of a pin replaced. -/
def setDirection (t : PinTable) (p : Pin) (d : Direction) : PinTable :=
  match p with
  | .digital n => { t with directions := t.directions.set n.val d n.isLt }
  | .unassigned => t

/-- The table with the owner of a pin replaced. -/
def setFeature (t : PinTable) (p : Pin) (f : Feature) : PinTable :=
  match p with
  | .digital n => { t with features := t.features.set n.val f n.isLt }
  | .unassigned => t

/-- The table with the source control of a group replaced. -/
def setSource (t : PinTable) (g : SourceGroup) (value : UInt8) : PinTable :=
  { t with sources := t.sources.set g.index value }

section lemmas

variable (t : PinTable) (p : Pin) (n : Fin pinCount) (d d' : Direction) (f f' : Feature)
  (g : SourceGroup) (v : UInt8)

/-! What a change shows. -/

/-- The feature of a digital pin is kept at its number. -/
theorem feature_digital : t.feature (.digital n) = t.features[n.val] := rfl

/-- The direction of a digital pin is kept at its number. -/
theorem direction_digital : t.direction (.digital n) = t.directions[n.val] := rfl

/-- A feature that is set shows at its pin and at no other one. For a pin that is not assigned
nothing can be set, so the lemma is about digital pins. -/
@[simp] theorem feature_setFeature :
    (t.setFeature (.digital n) f).feature p = if p = .digital n then f else t.feature p := by
  cases p with
  | digital m => simp [feature_digital, setFeature, Vector.getElem_set, Fin.val_inj, eq_comm]
  | unassigned => rfl

/-- Directions are apart from features. -/
@[simp] theorem feature_setDirection (q : Pin) : (t.setDirection q d).feature p = t.feature p := by
  cases q <;> cases p <;> rfl

/-- Source groups are apart from features. -/
@[simp] theorem feature_setSource : (t.setSource g v).feature p = t.feature p := by
  cases p <;> rfl

/-- A direction that is set shows at its pin and at no other one. -/
@[simp] theorem direction_setDirection :
    (t.setDirection (.digital n) d).direction p = if p = .digital n then d else t.direction p := by
  cases p with
  | digital m => simp [direction_digital, setDirection, Vector.getElem_set, Fin.val_inj, eq_comm]
  | unassigned => rfl

/-- Features are apart from directions. -/
@[simp] theorem direction_setFeature (q : Pin) :
    (t.setFeature q f).direction p = t.direction p := by
  cases q <;> cases p <;> rfl

/-- Source groups are apart from directions. -/
@[simp] theorem direction_setSource : (t.setSource g v).direction p = t.direction p := by
  cases p <;> rfl

/-- The nibble of a group that is set shows at this group and at no other one. -/
@[simp] theorem source_setSource (h : SourceGroup) :
    (t.setSource g v).source h = if h = g then v else t.source h := by
  simp [source, setSource, Vector.getElem_set, Fin.val_inj, SourceGroup.index_inj, eq_comm]

/-- Features are apart from source groups. -/
@[simp] theorem source_setFeature : (t.setFeature p f).source g = t.source g := by
  cases p <;> rfl

/-- Directions are apart from source groups. -/
@[simp] theorem source_setDirection : (t.setDirection p d).source g = t.source g := by
  cases p <;> rfl

/-! A change that is made again, and one that changes nothing. -/

/-- Of two features for one pin the later one stays. -/
@[simp] theorem setFeature_setFeature : (t.setFeature p f).setFeature p f' = t.setFeature p f' := by
  cases p <;> simp [setFeature]

/-- Of two directions for one pin the later one stays. -/
@[simp] theorem setDirection_setDirection :
    (t.setDirection p d).setDirection p d' = t.setDirection p d' := by
  cases p <;> simp [setDirection]

/-- To set the feature that a pin has changes nothing. An undoing that puts back what was there uses
this. -/
theorem setFeature_self (h : t.feature p = f) : t.setFeature p f = t := by
  cases p with
  | digital n => simp [← h, setFeature, feature_digital]
  | unassigned => rfl

/-- To set the direction that a pin has changes nothing, which is used in the same way. -/
theorem setDirection_self (h : t.direction p = d) : t.setDirection p d = t := by
  cases p with
  | digital n => simp [← h, setDirection, direction_digital]
  | unassigned => rfl

end lemmas

end PinTable

/-- A simulated chip. -/
structure Chip where
  /-- The memory. -/
  memory : Memory
  /-- The contents of the firmware's objects. -/
  objects : Std.HashMap UInt8 Bytes
  /-- The serial registers that were written. -/
  registers : Std.HashMap UInt16 UInt8
  /-- The status of the last command. -/
  lastStatus : UInt8
  /-- The object of the last command. -/
  lastObject : UInt8
  /-- The firmware's state of each channel. -/
  channels : PerChannel ChannelState
  /-- A capture is complete. -/
  captureDone : Bool
  /-- Captures complete as soon as they are triggered. -/
  autoComplete : Bool
  /-- The captures triggered through the mailbox. This count and the next two are numbers without a
  bound, where a device has words of 32 bits; no statement is about a count that such a word cannot
  hold. -/
  triggers : Nat
  /-- The captures handed back. -/
  readDones : Nat
  /-- The times that all tables were cleared. -/
  tableClears : Nat
  /-- The pins. -/
  pins : PinTable
  /-- The pins routed to inputs of the stream processor. -/
  streamPins : Std.HashMap UInt8 Pin
  /-- The pin of the lower model-select signal. -/
  select0 : SignalPin
  /-- The pin of the upper model-select signal. -/
  select1 : SignalPin
  /-- The injected faults, in the order of injection. -/
  faults : List Fault
  /-- The calls since the faults were last cleared, newest first. -/
  calls : List Call
  /-- The completed transactions since the journal was last cleared, newest first. -/
  journal : List Request

namespace Chip

/-- A chip after reset, without faults. -/
def initial : Chip where
  memory := Memory.blank
  objects := ∅
  registers := ∅
  lastStatus := 0
  lastObject := 0
  channels := PerChannel.replicate ChannelState.initial
  captureDone := false
  autoComplete := false
  triggers := 0
  readDones := 0
  tableClears := 0
  pins := PinTable.initial
  streamPins := ∅
  select0 := SignalPin.ofPin .unassigned
  select1 := SignalPin.ofPin .unassigned
  faults := []
  calls := []
  journal := []

instance : Inhabited Chip := ⟨initial⟩

/-! ## Views -/

/-- The content of an object; empty until it is written. -/
def object (chip : Chip) (o : UInt8) : Bytes := chip.objects.getD o []

/-- The state of a channel. -/
def channel (chip : Chip) (c : Channel) : ChannelState := chip.channels.get c

/-- The pin of a model-select signal. -/
def signal (chip : Chip) : SelectSignal → SignalPin
  | .bit0 => chip.select0
  | .bit1 => chip.select1

/-- The count of calls of a kind, those that were refused included. It has no bound either, where a
device counts in 32 bits. Only faults look at it, and what is shown of a session under faults holds
whatever they refuse. -/
def callCount (chip : Chip) (kind : Request.Kind) : Nat :=
  chip.calls.countP (·.kind = kind)

/-! ## Changes -/

/-- The chip with a run of bytes written to its memory. -/
def writeMemory (chip : Chip) (address : UInt32) (data : Bytes) : Chip :=
  { chip with memory := chip.memory.writeRun address data }

/-- The chip with data written into an object, which grows as needed. -/
def writeObject (chip : Chip) (o : UInt8) (offset : UInt16) (data : Bytes) : Chip :=
  { chip with objects := chip.objects.insert o ((chip.object o).overwrite offset.toNat data) }

/-- The chip with the state of one channel changed. -/
def modifyChannel (chip : Chip) (c : Channel) (f : ChannelState → ChannelState) : Chip :=
  { chip with channels := chip.channels.set c (f (chip.channel c)) }

/-- The chip with the state of all channels in a mask changed. -/
def modifyChannels (chip : Chip) (mask : UInt8) (f : ChannelState → ChannelState) : Chip :=
  { chip with channels := chip.channels.modifyAll f (ChannelMask.channels ⟨mask⟩) }

/-- The chip with the pin of a model-select signal replaced. -/
def setSignal (chip : Chip) (s : SelectSignal) (p : SignalPin) : Chip :=
  match s with
  | .bit0 => { chip with select0 := p }
  | .bit1 => { chip with select1 := p }

/-- The chip without faults and with its calls forgotten. -/
def clearFaults (chip : Chip) : Chip := { chip with faults := [], calls := [] }

/-- The chip with one more fault. -/
def inject (chip : Chip) (f : Fault) : Chip := { chip with faults := chip.faults ++ [f] }

/-- The chip with an empty journal. -/
def clearJournal (chip : Chip) : Chip := { chip with journal := [] }

end Chip

end Predistortion
