import Predistortion.Capture.Limits
import Predistortion.Capture.Record
import Predistortion.Session.Batches
import Predistortion.Session.Monitors

/-!
# Refusals

Range checks and decoders refuse what they are given; they never report a failure of the hardware.
`Refuses x` says so of a result: if it is an error, the error blames an argument or a decoded field.
-/

namespace Predistortion

variable {α β : Type}

/-- If the result is an error, the error blames the arguments. -/
def Refuses (x : Except Error α) : Prop := ∀ e, x = .error e → e.isInvalidArgument = true

namespace Refuses

/-- What is accepted is no refusal at all. -/
theorem ok (a : α) : Refuses (.ok a : Except Error α) := by
  intro e h
  cases h

/-- An error that blames an argument is a refusal. In every decoder and check below this is decided
by the constructor of the error. -/
theorem error {e : Error} (h : e.isInvalidArgument = true) :
    Refuses (.error e : Except Error α) := by
  intro e' h'
  cases h'
  exact h

/-- Two steps in turn refuse if both do. A decoder is made of such steps, and its first refusal is
its result. -/
theorem bind {x : Except Error α} {k : α → Except Error β} (hx : Refuses x)
    (hk : ∀ a, Refuses (k a)) : Refuses (x >>= k) := by
  intro e h
  cases x with
  | ok a => exact hk a e h
  | error e' =>
    cases h
    exact hx e rfl

/-- A choice refuses if both of its branches do. This is the form of most checks. -/
theorem ite {c : Prop} [Decidable c] {x y : Except Error α} (hx : Refuses x) (hy : Refuses y) :
    Refuses (if c then x else y) := by
  split
  · exact hx
  · exact hy

/-- What a refusal blames is not the hardware. -/
theorem not_hardware {x : Except Error α} (hx : Refuses x) {e : Error} (h : x = .error e) :
    e.isHardwareFailure = false :=
  Error.isHardwareFailure_eq_false_of_isInvalidArgument (hx e h)

/-! ## Pins and tables -/

/-- A pin that is not assigned belongs to no group of sources, and is refused. -/
theorem ofPin (p : Pin) : Refuses (SourceGroup.ofPin p) := by
  cases p with
  | digital n => exact ok _
  | unassigned => exact error rfl

/-- An access to a table is refused because it is empty or because it would leave the table. -/
theorem checkAccess (b : Bank) (length : UInt64) : Refuses (Table.checkAccess b length) :=
  ite (error rfl) (ite (error rfl) (ok _))

/-! ## Coded fields -/

/-- A byte that is not the number of a channel is refused. -/
theorem ofIndex (i : UInt8) : Refuses (Channel.ofIndex i) := by
  unfold Channel.ofIndex
  split
  · exact ok _
  · exact error rfl

/-- A byte that is not the code of a size is refused. -/
theorem ofCode (code : UInt8) : Refuses (Capture.Size.ofCode code) := by
  unfold Capture.Size.ofCode
  split
  · exact ok _
  · exact error rfl

/-- A byte that is not the number of an input is refused. -/
theorem peakInput (raw : UInt8) : Refuses (Capture.PeakInput.ofRaw raw) :=
  ite (ok _) (ite (ok _) (error rfl))

/-- A byte that is not the number of a unit is refused. -/
theorem pulseUnit (raw : UInt8) : Refuses (Capture.PulseUnit.ofRaw raw) :=
  ite (ok _) (ite (ok _) (ite (ok _) (ite (ok _) (error rfl))))

/-- A byte that is not the number of a band is refused. -/
theorem powerBand (raw : UInt8) : Refuses (Capture.PowerBand.ofRaw raw) :=
  ite (ok _) (ite (ok _) (ite (ok _) (ite (ok _) (error rfl))))

/-- A byte that is not the number of a direction is refused. -/
theorem bandDirection (raw : UInt8) : Refuses (Capture.BandDirection.ofRaw raw) :=
  ite (ok _) (ite (ok _) (ite (ok _) (error rfl)))

/-! ## Decoders of the capture record -/

/-- A record that is too short is refused, whatever it holds. -/
theorem requireLength (field : String) (needed : Nat) (b : Bytes) :
    Refuses (Capture.requireLength field needed b) :=
  ite (error rfl) (ok _)

/-- A threshold is refused for its length or for its unit of pulses. All its other bytes are
accepted. -/
theorem decodeThreshold (b : Bytes) : Refuses (Capture.Threshold.decode b) :=
  bind (requireLength _ _ _) fun _ => bind (pulseUnit _) fun _ => ok _

/-- A level is refused for its length, for its direction or for its band. -/
theorem decodeLevel (b : Bytes) : Refuses (Capture.Level.decode b) :=
  bind (requireLength _ _ _) fun _ => bind (bandDirection _) fun _ => bind (powerBand _) fun _ =>
    ok _

/-- The control part is refused for its length, its size, its channel or its input. -/
theorem decodeControl (b : Bytes) : Refuses (Capture.Control.decode b) :=
  bind (requireLength _ _ _) fun _ => bind (ofCode _) fun _ => bind (ofIndex _) fun _ =>
    bind (peakInput _) fun _ => ok _

/-- The record is refused where one of its parts is, and for its length before all parts. The pins
come from outside and are not looked at. -/
theorem decodeConfig (b : Bytes) (triggerPin donePin : Pin) :
    Refuses (Capture.Config.decode b triggerPin donePin) :=
  bind (requireLength _ _ _) fun _ => bind (decodeThreshold _) fun _ =>
    bind (decodeThreshold _) fun _ => bind (decodeThreshold _) fun _ =>
      bind (decodeControl _) fun _ => bind (decodeLevel _) fun _ => ok _

/-- A status is refused for its length alone. -/
theorem decodeStatus (b : Bytes) : Refuses (Capture.Status.decode b) :=
  bind (requireLength _ _ _) fun _ => ok _

/-! ## Range checks -/

/-- A value out of its range is refused under the name of its field. -/
theorem requireRange (inRange : Bool) (field value requirement : String) :
    Refuses (Capture.requireRange inRange field value requirement) :=
  ite (ok _) (error rfl)

/-- The control part is refused for the first of its values that is out of range. -/
theorem checkControl (c : Capture.Control) : Refuses c.check :=
  bind (requireRange _ _ _ _) fun _ => bind (requireRange _ _ _ _) fun _ =>
    bind (requireRange _ _ _ _) fun _ => bind (requireRange _ _ _ _) fun _ => requireRange _ _ _ _

/-- A threshold is refused for the first of its values that is out of range. -/
theorem checkThreshold (t : Capture.Threshold) : Refuses t.check :=
  bind (requireRange _ _ _ _) fun _ => requireRange _ _ _ _

/-- A configuration is refused where one of its parts is, or for its trigger pin, which may not be
every pin and not the completion pin. -/
theorem checkConfig (c : Capture.Config) : Refuses c.check :=
  bind (checkControl _) fun _ => bind (requireRange _ _ _ _) fun _ =>
    bind (checkThreshold _) fun _ => bind (checkThreshold _) fun _ =>
      bind (checkThreshold _) fun _ => bind (requireRange _ _ _ _) fun _ => requireRange _ _ _ _

/-- A run of checks refuses if each of them does. It stops at the first refusal. -/
theorem forM {f : α → Except Error Unit} (h : ∀ a, Refuses (f a)) (l : List α) :
    Refuses (l.forM f) := by
  induction l with
  | nil => exact ok ()
  | cons a rest ih => exact bind (h a) fun _ => ih

/-! ## Models and batches of tables -/

/-- A byte that is not the number of a model is refused. -/
theorem modelSlot (raw : UInt8) : Refuses (ModelSlot.ofRaw raw) :=
  ite (ok _) (ite (ok _) (ite (ok _) (ite (ok _) (error rfl))))

/-- A slot that is not one of the two is refused where two models are kept for each channel. -/
theorem requireDual (slot : ModelSlot) : Refuses slot.requireDual := ite (ok _) (error rfl)

/-- A number that is not the one of a bank is refused. -/
theorem bank (i : Nat) : Refuses (Bank.ofIndex i) := by
  unfold Bank.ofIndex
  split
  · exact ok _
  · exact error rfl

/-- A byte that is not the number of a compander is refused. -/
theorem compander (raw : UInt8) : Refuses (Compander.ofRaw raw) :=
  ite (ok _) (ite (ok _) (error rfl))

/-- A model is refused for the first of its two values that are limited. -/
theorem checkModel (m : Model) : Refuses m.check := ite (error rfl) (ite (error rfl) (ok _))

/-- A model is refused for its length, or for its slot, its bank or its compander. -/
theorem decodeModel (b : Bytes) : Refuses (Model.decode b) := by
  refine ite (error rfl) (bind (modelSlot _) fun _ => bind (bank _) fun _ => ?_)
  exact bind (compander _) fun _ => ok _

/-- What needs swap mode is refused while it is off. -/
theorem requireSwapMode (on : Bool) : Refuses (Session.requireSwapMode on) :=
  ite (ok _) (error rfl)

/-- A set of tables is refused for its bank, for a table in the place that is not written, or for
the first of its tables that is too long. -/
theorem checkSwapSet (set : SwapSet) (c : Compander) (b : Bank) : Refuses (set.check c b) := by
  have lengths : Refuses (set.payloads.forM fun p =>
      if p.2.length > c.maxSwapBytes then
        throw (.invalid "swapModeLutSize" (toString p.2.length)
          (s!"entry {p.1.val} exceeds {c.maxSwapBytes} bytes " ++ s!"for a {c.label} compander"))
      else pure ()) := forM (fun _ => ite (error rfl) (ok _)) _
  exact ite (error rfl) (ite (error rfl) lengths)

/-- A payload is refused because there is no such table, or for its length. -/
theorem checkStaging (table : UInt64) (data : Bytes) : Refuses (Staging.check table data) :=
  ite (error rfl) (ite (error rfl) (ite (error rfl) (ok _)))

/-! ## Masks and monitors -/

/-- A mask without any bit is refused. -/
theorem requireNonempty (m : ChannelMask) : Refuses m.requireNonempty := ite (error rfl) (ok _)

/-- A mask with a channel that is not initialized is refused, if it is to be enabled. -/
theorem requireInitialized (initialized m : ChannelMask) (on : Bool) :
    Refuses (Session.requireInitialized initialized m on) := ite (error rfl) (ok _)

/-- An empty list of entries is refused under the name of its field. -/
theorem requireEntries (field : String) (entries : List α) :
    Refuses (Session.requireEntries field entries) := ite (error rfl) (ok _)

/-- A monitor is refused for an empty mask or, if it is enabled, for its decay or for limits of
which the lower one is above the upper one. -/
theorem checkGain (g : GainMonitor) : Refuses g.check :=
  ite (error rfl) (ite (ok _) (ite (error rfl) (ite (error rfl) (ok _))))

/-- A record of a monitor is refused for its length or for one of its two models. -/
theorem decodeGain (c : Channel) (b : Bytes) : Refuses (GainMonitor.decode c b) := by
  refine ite (error rfl) (bind (modelSlot _) fun _ => ?_)
  exact bind (modelSlot _) fun _ => ok _

/-- A list of clippers is refused because there are too many, or for the first entry whose threshold
is not within full scale. -/
theorem checkClippers (entries : List Clipper) : Refuses (Clipper.checkAll entries) := by
  have each : Refuses (entries.forM Clipper.check) := forM (fun _ => ite (error rfl) (ok _)) _
  exact ite (error rfl) each

end Refuses

end Predistortion
