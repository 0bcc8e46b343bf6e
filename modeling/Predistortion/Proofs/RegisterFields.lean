import Predistortion.Proofs.TableAccess
import Predistortion.Proofs.Mailbox

/-!
# Fields of registers

The passthru bit and the two observation taps of a channel share its configuration register with
other bits, the table at which memory accesses point shares the mode register, and 32 power bits,
inverted, make up the power register. A call that sets a field reads the word and writes it back
with some bits replaced.

Two fields never share a bit (`Field.mask_and_mask`), so to set a field is an update of the function
that gives each field its value (`Bench.field_setField`), and no bit outside the fields is changed
(`Bench.otherBits_setField`). The passthru bit is written together with the enable bit; as the
enable bit is written as it was read, this too comes down to the field alone
(`Bench.setPassthru_eq_setField`).

Main statement: after any sequence of such calls each field reads as the last call set it, or as it
read before if no call set it, and all other bits of the registers and all other memory are as
before (`Session.fieldsSet_of_forM`). A sequence of calls that pass their checks does succeed
(`Session.exists_forM_fieldCall`).
-/

namespace Predistortion

open SessionM

/-! ## Fields -/

/-- A field that calls set and read. -/
inductive Field where
  /-- The signal passes the actuator of the channel by. -/
  | passthru (c : Channel)
  /-- Where the transmit signal is observed. -/
  | txTap (c : Channel)
  /-- Where the alternate signal is observed. -/
  | altTap (c : Channel)
  /-- The table at which memory accesses point. -/
  | ramSelect (c : Channel)
  /-- The table is powered. -/
  | tablePower (c : Channel) (t : Table)
deriving DecidableEq

namespace Field

/-- What a field holds. -/
@[reducible] def Value : Field → Type
  | passthru _ => Bool
  | txTap _ => Capture.TxTap
  | altTap _ => Capture.AltTap
  | ramSelect _ => Table
  | tablePower _ _ => Bool

/-- The call that reads a field. -/
def get : (f : Field) → SessionM f.Value
  | passthru c => Session.passthru c
  | txTap c => Session.txTap c
  | altTap c => Session.altTap c
  | ramSelect c => Session.ramSelect c
  | tablePower c t => Session.tablePower c t

/-- The register in which a field lies. -/
def register : Field → ActuatorRegister
  | passthru c => .config c
  | txTap c => .config c
  | altTap c => .config c
  | ramSelect c => .mode c
  | tablePower c _ => .power c

/-- The bits of a field. -/
def mask : Field → UInt32
  | passthru _ => ConfigBit.passthru
  | txTap _ => ConfigBit.txTap
  | altTap _ => ConfigBit.altTap
  | ramSelect _ => ramSelectMask
  | tablePower _ t => t.powerBit

/-- The bits that stand for a value. -/
def encode : (f : Field) → f.Value → UInt32
  | passthru _, on => if on then ConfigBit.passthru else 0
  | txTap _, tap => if tap = .preActuator then ConfigBit.txTap else 0
  | altTap _, tap => if tap = .preCfr then ConfigBit.altTap else 0
  | ramSelect _, t => t.raw.toUInt32
  | tablePower _ t, on => if on then 0 else t.powerBit

/-- The value that a word holds. -/
def decode : (f : Field) → UInt32 → f.Value
  | passthru _, w => w &&& ConfigBit.passthru != 0
  | txTap _, w => if w &&& ConfigBit.txTap ≠ 0 then .preActuator else .postActuator
  | altTap _, w => if w &&& ConfigBit.altTap ≠ 0 then .preCfr else .actuator
  | ramSelect _, w => Table.ofMode w
  | tablePower _ t, w => w &&& t.powerBit == 0

end Field

/-- The bits of a register that belong to fields. In a power register these are all 32. -/
def ActuatorRegister.fieldBits : ActuatorRegister → UInt32
  | config _ => ConfigBit.passthru ||| ConfigBit.txTap ||| ConfigBit.altTap
  | mode _ => ramSelectMask
  | power _ => 0xFFFFFFFF

/-- The enable bit of an actuator is none of them, though it is written together with the passthru
bit. -/
theorem ActuatorRegister.enable_and_fieldBits (c : Channel) :
    ~~~(config c).fieldBits &&& ConfigBit.enable = ConfigBit.enable := by
  simp only [fieldBits]
  decide

/-! ### Values in words -/

/-- Different tables have different bits, so that the power of one table is set without the
others. -/
theorem Table.powerBit_and_powerBit {t t' : Table} (h : t ≠ t') :
    t.powerBit &&& t'.powerBit = 0 := by
  have hindex : t'.index.val ≠ t.index.val := fun heq => h (congrArg Table.mk (Fin.ext heq.symm))
  apply UInt32.eq_of_toBitVec_eq
  rw [UInt32.toBitVec_and, t.toBitVec_powerBit, t'.toBitVec_powerBit, BitVec.and_twoPow, if_neg]
  · rfl
  · simp [hindex]

namespace Field

variable {f g : Field} {w w' : UInt32}

/-- Two fields of a register have no bit in common. This is what makes fields independent of one
another. -/
theorem mask_and_mask (hne : g ≠ f) (hregister : g.register = f.register) :
    g.mask &&& f.mask = 0 := by
  cases f with
  | tablePower c t =>
    cases g with
    | tablePower d u =>
      cases hregister
      exact Table.powerBit_and_powerBit fun h => hne (by rw [h])
    | _ => cases hregister
  | _ =>
    cases g <;> cases hregister
    all_goals first | exact absurd rfl hne | (simp only [mask]; decide)

/-- A value is read off the bits of its field, so words that agree on these have the same value
there. -/
theorem decode_congr (h : w &&& f.mask = w' &&& f.mask) : f.decode w = f.decode w' := by
  cases f with
  | ramSelect c =>
    refine congrArg Table.mk (Fin.ext ?_)
    exact congrArg UInt32.toNat h
  | _ =>
    simp only [mask] at h
    simp only [decode, h]

/-- What is put into a field is read back, one case for each kind of field: a flag, a tap, the table
that is selected, or the power of a table. -/
theorem decode_withBits_self (f : Field) (w : UInt32) (v : f.Value) :
    f.decode (withBits w f.mask (f.encode v)) = v := by
  cases f with
  | ramSelect c => exact ofMode_withBits w v
  | tablePower c t =>
    have hbits : ∀ i : Fin 32, (1 : UInt32) <<< UInt32.ofNat i.val ≠ 0 := by decide
    have hbit : t.powerBit ≠ 0 := hbits t.index
    simp only [decode, mask, encode, withBits_and]
    cases v <;> simp [hbit]
  | passthru c =>
    simp only [decode, mask, encode, withBits_and]
    cases v <;> simp [ConfigBit.passthru]
  | txTap c =>
    simp only [decode, mask, encode, withBits_and]
    cases v <;> simp [ConfigBit.txTap]
  | altTap c =>
    simp only [decode, mask, encode, withBits_and]
    cases v <;> simp [ConfigBit.altTap]

/-- The value of a field does not depend on bits outside its mask, so these may be replaced. -/
theorem decode_withBits_of_disjoint {n v : UInt32} (h : n &&& f.mask = 0) :
    f.decode (withBits w n v) = f.decode w :=
  decode_congr (withBits_and_of_disjoint w v h)

/-- The bits of a field are among the bits that belong to fields, so that to set it leaves all
others. One case for each kind of field. -/
theorem mask_and_fieldBits (f : Field) : f.mask &&& ~~~f.register.fieldBits = 0 := by
  cases f with
  | tablePower c t =>
    show t.powerBit &&& ~~~0xFFFFFFFF = 0
    exact UInt32.and_zero
  | _ =>
    simp only [mask, register, ActuatorRegister.fieldBits]
    decide

end Field

/-! ## Fields of a bench -/

namespace Bench

variable (b : Bench) (f : Field) (v : f.Value)

/-- The value of each field. -/
def field (f : Field) : f.Value := f.decode (b.words f.register)

/-- The bench with a field set. -/
def setField : Bench := b.setBits f.register f.mask (f.encode v)

/-- To set a field changes this field alone. Fields of other registers are in other words, and those
of the same one have other bits. -/
theorem field_setField : (b.setField f v).field = Function.update b.field f v := by
  funext g
  unfold field setField
  rw [words_setBits]
  by_cases hg : g = f
  · subst hg
    rw [if_pos rfl, Function.update_self]
    exact g.decode_withBits_self _ v
  · rw [Function.update_of_ne hg]
    split
    · next hregister =>
      rw [← hregister]
      exact Field.decode_withBits_of_disjoint
        (Field.mask_and_mask (fun h => hg h.symm) hregister.symm)
    · rfl

/-- A bit that belongs to no field is not changed, in whatever register it is. -/
theorem otherBits_setField (q : ActuatorRegister) :
    (b.setField f v).words q &&& ~~~q.fieldBits = b.words q &&& ~~~q.fieldBits := by
  unfold setField
  rw [words_setBits]
  split
  · next hq =>
    rw [hq]
    exact withBits_and_of_disjoint _ _ f.mask_and_fieldBits
  · rfl

/-- The passthru bit is written together with the enable bit, which stays as it is. So the call sets
one field, although it writes two bits. -/
theorem setPassthru_eq_setField (c : Channel) (on : Bool) :
    b.setPassthru c on = b.setField (.passthru c) on := by
  have hvalue : (if on then ConfigBit.passthru else 0) &&& ConfigBit.passthru =
      if on then ConfigBit.passthru else 0 := by cases on <;> decide
  have hword := withBits_beside (b.words (.config c)) ConfigBit.enable
    (show ConfigBit.enable &&& ConfigBit.passthru = 0 by decide) hvalue
  unfold setPassthru setField setBits
  rw [ite_and_eq _ isBit_enable, hword]
  rfl

/-- The bench with some fields set, one after the other. -/
def setFields (l : List ((f : Field) × f.Value)) : Bench :=
  l.foldl (fun b p => b.setField p.1 p.2) b

/-- To set some fields and then some more is to set all of them in turn. -/
theorem setFields_append (l l' : List ((f : Field) × f.Value)) :
    b.setFields (l ++ l') = (b.setFields l).setFields l' :=
  List.foldl_append

/-- However many fields are set, the bits that belong to no field stay as they were. By induction
over the list. -/
theorem otherBits_setFields (l : List ((f : Field) × f.Value)) (q : ActuatorRegister) :
    (b.setFields l).words q &&& ~~~q.fieldBits = b.words q &&& ~~~q.fieldBits := by
  induction l generalizing b with
  | nil => rfl
  | cons p rest ih => exact (ih (b.setField p.1 p.2)).trans (b.otherBits_setField p.1 p.2 q)

/-- To set fields changes registers only, and the tables and rows keep their content. -/
theorem content_setFields (l : List ((f : Field) × f.Value)) :
    (b.setFields l).content = b.content := by
  induction l generalizing b with
  | nil => rfl
  | cons p rest ih => exact ih (b.setField p.1 p.2)

/-- The passthru bits of a list of channels, set one after the other. No other field is changed. By
induction over the channels. -/
theorem field_setFields_passthru (b : Bench) (cs : List Channel) (on : Bool) (f : Field) :
    (b.setFields (cs.map fun c => ⟨.passthru c, on⟩)).field f =
      match f with
      | .passthru c => if c ∈ cs then on else b.field (.passthru c)
      | g => b.field g := by
  induction cs generalizing b with
  | nil => cases f <;> rfl
  | cons d rest ih =>
    refine (ih (b.setField (.passthru d) on)).trans ?_
    rw [field_setField]
    cases f with
    | passthru c => grind
    | _ => exact Function.update_of_ne (by simp) _ _

end Bench

/-! ## Calls -/

/-- A call that sets fields. -/
inductive FieldCall where
  /-- Set the passthru bits of a mask. -/
  | setPassthru (mask : ChannelMask) (on : Bool)
  /-- Choose where the transmit signal is observed. -/
  | setTxTap (c : Channel) (tap : Capture.TxTap)
  /-- Choose where the alternate signal is observed. -/
  | setAltTap (c : Channel) (tap : Capture.AltTap)
  /-- Point memory accesses at a table. -/
  | setRamSelect (c : Channel) (t : Table)
  /-- Power a table on or off. -/
  | setTablePower (c : Channel) (t : Table) (on : Bool)
deriving DecidableEq

namespace FieldCall

/-- Carries out a call. -/
def run : FieldCall → SessionM Unit
  | setPassthru mask on => Session.setPassthru mask on
  | setTxTap c tap => Session.setTxTap c tap
  | setAltTap c tap => Session.setAltTap c tap
  | setRamSelect c t => Session.setRamSelect c t
  | setTablePower c t on => Session.setTablePower c t on

/-- Checks the arguments of a call. -/
def check : FieldCall → Except Error Unit
  | setPassthru mask _ => mask.requireNonempty
  | _ => .ok ()

/-- What a call sets a field to, if it sets it. -/
def value? : FieldCall → (f : Field) → Option f.Value
  | setPassthru mask on, .passthru c => if mask.contains c then some on else none
  | setTxTap d tap, .txTap c => if d = c then some tap else none
  | setAltTap d tap, .altTap c => if d = c then some tap else none
  | setRamSelect d t, .ramSelect c => if d = c then some t else none
  | setTablePower d u on, .tablePower c t => if d = c ∧ u = t then some on else none
  | _, _ => none

/-- The fields that a call sets, in the order in which it does, and their values. -/
def settings : FieldCall → List ((f : Field) × f.Value)
  | setPassthru mask on => mask.channels.map fun c => ⟨.passthru c, on⟩
  | setTxTap c tap => [⟨.txTap c, tap⟩]
  | setAltTap c tap => [⟨.altTap c, tap⟩]
  | setRamSelect c t => [⟨.ramSelect c, t⟩]
  | setTablePower c t on => [⟨.tablePower c t, on⟩]

/-- The value that the last of the calls gives a field, or the initial one if none of them sets
it. -/
def lastValue (calls : List FieldCall) (f : Field) (initial : f.Value) : f.Value :=
  (calls.filterMap (·.value? f)).getLast?.getD initial

/-- What the first call gives a field is what the later calls start from. This is the form in which
the induction over the calls meets it. -/
theorem lastValue_cons (k : FieldCall) (rest : List FieldCall) (f : Field) (initial : f.Value) :
    lastValue (k :: rest) f initial = lastValue rest f ((k.value? f).getD initial) := by
  unfold lastValue
  rw [List.filterMap_cons]
  cases k.value? f with
  | none => rfl
  | some v => exact congrArg (Option.getD · initial) List.getLast?_cons

/-- A call sets the fields that it is meant to set, and leaves the other fields. One case for each
call, of which the one with a mask sets several fields. -/
theorem field_settings (k : FieldCall) (b : Bench) (f : Field) :
    (b.setFields k.settings).field f = (k.value? f).getD (b.field f) := by
  cases k with
  | setPassthru mask on =>
    refine (b.field_setFields_passthru mask.channels on f).trans ?_
    cases f with
    | passthru c =>
      simp only [ChannelMask.mem_channels, value?]
      split <;> rfl
    | _ => rfl
  | _ =>
    refine (congrFun (b.field_setField _ _) f).trans ?_
    cases f <;> simp only [value?] <;> grind

/-- The effect of a call on a bench: the fields that it sets, in their order. It succeeds if it
passes its check. -/
theorem acts {r : Session} (h : r.chip.faults = []) {k : FieldCall} {b : Bench}
    (hk : r.rangeCheck = true → k.check = .ok ()) :
    Acts k.run r b () (b.setFields k.settings) := by
  cases k with
  | setPassthru mask on =>
    refine (acts_setPassthru h hk).congr rfl ?_
    simp only [Bench.setPassthru_eq_setField, settings, Bench.setFields, List.foldl_map]
  | setTxTap c tap => exact acts_setTxTap h c tap
  | setAltTap c tap => exact acts_setAltTap h c tap
  | setRamSelect c t => exact acts_setRamSelect h c t
  | setTablePower c t on => exact acts_setTablePower h c t on

/-- A call that succeeded was accepted. Only the call with a mask can be refused, and only where
arguments are checked. -/
theorem accepted_of_run {k : FieldCall} {s t : Session} (hrun : k.run s = .ok () t)
    (hcheck : s.rangeCheck = true) : k.check = .ok () := by
  cases k with
  | setPassthru mask on =>
    obtain ⟨_, _, hchecked, -⟩ := exists_ok_of_bind hrun
    exact ((ends_checked_self _ s).of_ok hchecked).2 hcheck
  | _ => rfl

/-! ## Sequences of calls -/

/-- What a sequence of calls sets a field to is what the last of them sets it to. By induction over
the calls, where each starts from what the ones before have left. -/
theorem field_flatMap_settings (calls : List FieldCall) (b : Bench) (f : Field) :
    (b.setFields (calls.flatMap settings)).field f = lastValue calls f (b.field f) := by
  induction calls generalizing b with
  | nil => rfl
  | cons k rest ih =>
    rw [List.flatMap_cons, Bench.setFields_append, ih, field_settings, ← lastValue_cons]

/-- Where a sequence of calls succeeded, it set the fields one after the other. By induction over
the calls, each of which has to have been accepted. -/
theorem bench_of_forM {calls : List FieldCall} {s u : Session} (h : s.chip.faults = [])
    (hrun : calls.forM run s = .ok () u) :
    u.rest = s.rest ∧ u.bench = s.bench.setFields (calls.flatMap settings) := by
  induction calls generalizing s with
  | nil =>
    cases hrun
    exact ⟨rfl, rfl⟩
  | cons k rest ih =>
    obtain ⟨_, t, hhead, htail⟩ := exists_ok_of_bind hrun
    have haccepted := accepted_of_run hhead
    obtain ⟨-, hrest, hbench⟩ := (acts (r := s.rest) h haccepted).of_run hhead
    have hfaults : t.chip.faults = [] := (Session.faults_of_rest hrest).trans h
    obtain ⟨hrest', hbench'⟩ := ih hfaults htail
    rw [List.flatMap_cons, Bench.setFields_append, ← hbench]
    exact ⟨hrest'.trans hrest, hbench'⟩

end FieldCall

/-! ## What a sequence of calls leaves -/

/-- A computation that acts in a known way answers so, in every session with this bench and this
rest. -/
theorem Acts.answer_eq {α : Type} {m : SessionM α} {s : Session} {a : α} {b : Bench}
    (h : Acts m s.rest s.bench a b) : s.answer m = .ok a := by
  obtain ⟨t, hrun, -⟩ := h s rfl rfl
  unfold Session.answer
  rw [hrun]

/-- A field is read off the bench, and reading it changes nothing. -/
theorem acts_get {r : Session} {b : Bench} (h : r.chip.faults = []) (f : Field) :
    Acts f.get r b (b.field f) b := by
  cases f with
  | passthru c => exact (acts_enablePassthru h c).bind (.pure _)
  | txTap c => exact (acts_readRegister h (.config c)).bind (.pure _)
  | altTap c => exact (acts_readRegister h (.config c)).bind (.pure _)
  | ramSelect c => exact acts_ramSelect h c
  | tablePower c t => exact acts_tablePower h c t

namespace Session

variable {s u : Session} {calls : List FieldCall}

/-- `u` is what a sequence of calls leaves of the session, as far as fields and memory go. -/
structure FieldsSet (s : Session) (calls : List FieldCall) (u : Session) : Prop where
  /-- Each field reads as it was set last. If it was not set, it reads as before. -/
  fields (f : Field) :
    ∃ v, s.answer f.get = .ok v ∧ u.answer f.get = .ok (FieldCall.lastValue calls f v)
  /-- The bits of registers that belong to no field are what they were. -/
  otherBits (q : ActuatorRegister) :
    u.chip.memory.word q.address &&& ~~~q.fieldBits =
      s.chip.memory.word q.address &&& ~~~q.fieldBits
  /-- And so is all memory beside the registers. -/
  otherMemory (a : UInt32) (h : ¬ActuatorRegister.Covers a) :
    u.chip.memory.read a = s.chip.memory.read a

/-- Among the bits that are left alone is the enable bit of each actuator. So no such call enables
or disables one. -/
theorem FieldsSet.enable_eq (h : s.FieldsSet calls u) (c : Channel) :
    u.chip.memory.word c.block.config &&& ConfigBit.enable =
      s.chip.memory.word c.block.config &&& ConfigBit.enable := by
  have hbits := congrArg (· &&& ConfigBit.enable) (h.otherBits (.config c))
  simp only [UInt32.and_assoc, ActuatorRegister.enable_and_fieldBits] at hbits
  exact hbits

/-- Where no faults are injected, a sequence of calls that pass their checks succeeds. So the
statement below is not about runs that never happen. -/
theorem exists_forM_fieldCall (h : s.chip.faults = [])
    (hcalls : s.rangeCheck = true → ∀ k ∈ calls, k.check = .ok ()) :
    ∃ u, calls.forM FieldCall.run s = .ok () u := by
  have hacts : Acts (calls.forM FieldCall.run) s.rest s.bench ()
      (calls.foldl (fun b k => b.setFields k.settings) s.bench) :=
    .forM fun k hk _ => FieldCall.acts (r := s.rest) h fun hon => hcalls hon k hk
  obtain ⟨u, hrun, -⟩ := hacts s rfl rfl
  exact ⟨u, hrun⟩

/-- Where no faults are injected, a sequence of calls that succeeds leaves in each field what was
set last, and it leaves all other bits and all other memory alone. -/
theorem fieldsSet_of_forM (h : s.chip.faults = []) (hrun : calls.forM FieldCall.run s = .ok () u) :
    s.FieldsSet calls u := by
  obtain ⟨hrest, hbench⟩ := FieldCall.bench_of_forM h hrun
  have hfaults : u.chip.faults = [] := (faults_of_rest hrest).trans h
  refine ⟨?fields, ?otherBits, ?otherMemory⟩
  case fields =>
    intro f
    refine ⟨s.bench.field f, (acts_get (r := s.rest) h f).answer_eq, ?_⟩
    rw [← FieldCall.field_flatMap_settings, ← hbench]
    exact (acts_get (r := u.rest) hfaults f).answer_eq
  case otherBits =>
    intro q
    have hbits := s.bench.otherBits_setFields (calls.flatMap FieldCall.settings) q
    rwa [← hbench] at hbits
  case otherMemory =>
    intro a hnot
    refine read_eq_of_bench (fun register hspans => ?_) ?_
    · exact absurd ⟨register, register.mem_all, hspans⟩ hnot
    · rw [hbench, Bench.content_setFields]

/-- A session whose first channel has all bits of its configuration set. -/
def configAllOnes : Session :=
  let memory := Memory.blank.writeRun Channel.tx1.block.config (LittleEndian.ofUInt32 0xFFFFFFFF)
  Session.start { Chip.initial with memory } default

/-- The passthru bit is set twice, a tap once, and a table of another channel is powered off. The
bits of the configuration that belong to no field are all set, and stay so. -/
theorem fieldsSet_configAllOnes :
    let calls : List FieldCall := [.setPassthru ⟨0x0F⟩ true, .setTxTap .tx1 .postActuator,
      .setTablePower .tx2 ⟨31⟩ false, .setPassthru ⟨0x01⟩ false]
    ∃ u, calls.forM FieldCall.run configAllOnes = .ok () u ∧ configAllOnes.FieldsSet calls u ∧
      u.answer (Session.passthru .tx1) = .ok false := by
  intro calls
  have hchecks : ∀ k ∈ calls, k.check = .ok () := by
    simp only [calls, List.forall_mem_cons]
    exact ⟨rfl, rfl, rfl, rfl, by simp⟩
  obtain ⟨u, hrun⟩ := exists_forM_fieldCall (s := configAllOnes) rfl fun _ => hchecks
  have hset : configAllOnes.FieldsSet calls u := fieldsSet_of_forM rfl hrun
  obtain ⟨_, -, hpassthru⟩ := hset.fields (.passthru .tx1)
  exact ⟨u, hrun, hset, hpassthru⟩

end Session

end Predistortion
