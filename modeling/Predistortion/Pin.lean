import Predistortion.Error

/-!
# Pins

The chip has nineteen digital pins, GPIO00 to GPIO18. A `Pin` is one of them or `unassigned`, the
sentinel that records and registers carry as the number 19. Beside the pin itself stand the things
that are kept for a pin: its direction, the feature that owns it, the source-control group that
routes it, and its assignment to a signal of the processor.
-/

namespace Predistortion

/-! ## Pins -/

/-- The count of digital pins. -/
abbrev pinCount : Nat := 19

/-- A digital pin, or no pin. -/
inductive Pin where
  /-- A digital pin by its number. -/
  | digital (number : Fin pinCount)
  /-- No pin. -/
  | unassigned
deriving DecidableEq

namespace Pin

instance : Inhabited Pin := ⟨.unassigned⟩

/-- It is a digital pin. -/
def isAssigned : Pin → Bool
  | .digital _ => true
  | .unassigned => false

/-- The number of a digital pin. -/
def number? : Pin → Option (Fin pinCount)
  | .digital n => some n
  | .unassigned => none

/-- The byte that stands for the pin; 19 stands for no pin. -/
def raw : Pin → UInt8
  | .digital n => UInt8.ofNat n.val
  | .unassigned => 19

/-- The pin that a byte stands for. -/
def ofRaw? (raw : UInt8) : Option Pin :=
  if h : raw.toNat < pinCount then some (.digital ⟨raw.toNat, h⟩)
  else if raw = 19 then some .unassigned
  else none

/-- The pin that a byte stands for; bytes above 19 stand for none. -/
def ofRaw (raw : UInt8) : Except Error Pin :=
  match ofRaw? raw with
  | some p => .ok p
  | none =>
    .error (.invalid "gpioPin" (toString raw.toNat)
      "must be GPIO00..GPIO18 or the invalid sentinel")

/-- The name shown to users. -/
def label : Pin → String
  | .digital n => s!"GPIO{Numeral.decimal 2 n.val}"
  | .unassigned => "GPIO_INVALID"

/-- A pin is assigned exactly if it is one of the digital pins. -/
theorem isAssigned_iff {p : Pin} : p.isAssigned ↔ ∃ n, p = .digital n := by
  cases p <;> simp [isAssigned]

/-- The byte of a pin, or of no pin, names it again, so that no two pins share a byte. The number of
a digital pin fits into a byte and is not the one of no pin. -/
@[simp] theorem ofRaw?_raw (p : Pin) : ofRaw? p.raw = some p := by
  cases p with
  | unassigned => rfl
  | digital n =>
    have hn := n.isLt
    have hlt : (UInt8.ofNat n.val).toNat = n.val := by
      simp [pinCount] at hn ⊢
      omega
    simp [ofRaw?, raw, hlt]

end Pin

/-! ## What is kept for a pin -/

/-- The electrical direction of a pin. -/
inductive Direction where
  /-- The chip listens on the pin; the state after reset. -/
  | input
  /-- The chip drives the pin. -/
  | output
deriving DecidableEq, Inhabited

/-- The owner of a pin in the shared-resource table. -/
inductive Feature where
  /-- Nobody. -/
  | unused
  /-- The pin shows that a capture is complete. -/
  | captureDone
  /-- Some other feature of the chip. -/
  | other (tag : UInt8)
deriving DecidableEq, Inhabited

/-- A register group that routes a run of pins. -/
inductive SourceGroup where
  | pins0To3 | pins4To7 | pins8To11 | pins12To15 | pins16To18
deriving DecidableEq, Inhabited

namespace SourceGroup

/-- The group of a digital pin. -/
def ofNumber (n : Fin pinCount) : SourceGroup :=
  if n.val < 4 then .pins0To3
  else if n.val < 8 then .pins4To7
  else if n.val < 12 then .pins8To11
  else if n.val < 16 then .pins12To15
  else .pins16To18

/-- The group that routes a pin; no pin has no group. -/
def ofPin : Pin → Except Error SourceGroup
  | .digital n => .ok (ofNumber n)
  | .unassigned =>
    .error (.invalid "gpioPin" Pin.unassigned.label "no source-control group for this pin")

end SourceGroup

/-- The two processor signals that select a model from outside. -/
inductive SelectSignal where
  | bit0 | bit1
deriving DecidableEq, Inhabited

/-- The level at which a signal is active. -/
inductive Polarity where
  /-- Active high. -/
  | normal
  /-- Active low. -/
  | inverted
deriving DecidableEq, Inhabited

/-- A pin assigned to a processor signal. -/
structure SignalPin where
  /-- The pin, if any. -/
  pin : Pin
  /-- The active level. -/
  polarity : Polarity
  /-- The signal is routed. -/
  enabled : Bool
deriving DecidableEq

namespace SignalPin

/-- The assignment of a pin with normal polarity, routed exactly when there is a pin. -/
def ofPin (p : Pin) : SignalPin := ⟨p, .normal, p.isAssigned⟩

instance : Inhabited SignalPin := ⟨ofPin .unassigned⟩

end SignalPin

/-- The source-control value of a pin in its default use. -/
def sourceDefault : UInt8 := 0

/-- The source-control value of a pin that is driven from the memory element. -/
def sourceMemoryElement : UInt8 := 3

end Predistortion
