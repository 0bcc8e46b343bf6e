import Predistortion.Proofs.Bench
import Predistortion.Proofs.SwapSet
import Predistortion.Session.Batches

/-!
# Accesses to tables

What each access to a table does to the bench, exactly. The fields of the registers are set by
replacing bits (`Bench.setBits`). An access opens the table, moves the data and puts back what it
changed; the saved fields, put back, give the words that were there (`withBits_flags`,
`withBits_power`, `withBits_ramSelect`), so what is left of a write is its data, the power of the
table if it is not to be restored, and in swap mode the table at which memory accesses point
(`acts_writeTable`). A read leaves nothing but the stopped clock (`acts_readTable`).
-/

namespace Predistortion

open SessionM

variable {r : Session} {b : Bench}

/-! ## What an access does -/

/-- What opening a table saves. -/
def Bench.saved (b : Bench) (c : Channel) (t : Table) : Session.OpenState where
  powered := b.words (.power c) &&& t.powerBit == 0
  enabled := b.words (.config c) &&& ConfigBit.enable != 0
  passthru := b.words (.config c) &&& ConfigBit.passthru != 0
  ramSelect := Table.ofMode (b.words (.mode c))

/-- The bench when a table is open: it is powered, the actuator is enabled and clocked, and memory
accesses point at the table. -/
def Bench.opened (b : Bench) (c : Channel) (t : Table) : Bench :=
  (((b.setBits (.power c) t.powerBit 0).setBits (.config c)
    (ConfigBit.enable ||| ConfigBit.passthru) (ConfigBit.enable |||
      (if b.words (.config c) &&& ConfigBit.passthru != 0 then ConfigBit.passthru else 0))).setClock
    c true).setBits (.mode c) ramSelectMask t.raw.toUInt32

/-- The bench after a write: its data is in place, the clock is stopped, and of the words those
differ that are not put back. -/
def Bench.written (b : Bench) (c : Channel) (t : Table) (bank : Bank) (data : Bytes)
    (restorePower swapOn : Bool) : Bench :=
  let powered := if restorePower then b else b.setBits (.power c) t.powerBit 0
  let selected := if swapOn then powered.setBits (.mode c) ramSelectMask t.raw.toUInt32 else powered
  (selected.transfer (Table.address c t bank) data).setClock c false

/-- The bench when a table is closed again after its data was moved. -/
def Bench.closed (b : Bench) (c : Channel) (t : Table) (moved : Bench)
    (restorePower swapOn : Bool) : Bench :=
  let flags := moved.setBits (.config c) (ConfigBit.enable ||| ConfigBit.passthru)
    ((if (b.saved c t).enabled then ConfigBit.enable else 0) |||
      (if (b.saved c t).passthru then ConfigBit.passthru else 0))
  let powered := if restorePower then
      flags.setBits (.power c) t.powerBit (if (b.saved c t).powered then 0 else t.powerBit)
    else flags
  let selected := if swapOn then powered
    else powered.setBits (.mode c) ramSelectMask (b.saved c t).ramSelect.raw.toUInt32
  selected.setClock c false

/-- The bench with the passthru bit of a channel set and its enable bit kept. -/
def Bench.setPassthru (b : Bench) (c : Channel) (on : Bool) : Bench :=
  b.setBits (.config c) (ConfigBit.enable ||| ConfigBit.passthru)
    ((if b.words (.config c) &&& ConfigBit.enable != 0 then ConfigBit.enable else 0) |||
      (if on then ConfigBit.passthru else 0))

/-- A payload is accepted if it is for a table that exists, not too long, and made of whole words.
It may be empty, and then the rows are cleared. -/
theorem Staging.check_eq_ok {table : UInt64} {data : Bytes} : check table data = .ok () ↔
    table.toNat < tables ∧ data.length ≤ maxBytes ∧ data.length % 4 = 0 := by
  unfold check
  split
  · next h => simp [Nat.not_lt.2 h]
  · next htable =>
    split
    · next h => simp [Nat.not_le.2 h]
    · next hlength =>
      split
      · next h => simp [h]
      · next h => simp [Nat.not_le.1 htable, Nat.not_lt.1 hlength, not_not.1 h]

/-- What is staged for a table goes into its two rows, and no write is longer than a row. A row is
written at once or in two writes, and all of them start where it does. -/
theorem Staging.mem_tableWrites {table : UInt64} {data : Bytes} {w : UInt32 × Bytes}
    (h : w ∈ tableWrites table data) :
    ∃ second, w.1 = rowAddress table second ∧ w.2.length ≤ rowBytes := by
  have row (second : Bool) (part : Bytes) (hw : w ∈ rowWrites table second part) :
      w.1 = rowAddress table second ∧ w.2.length ≤ rowBytes := by
    have hzeros : (Bytes.zeros rowBytes).length ≤ rowBytes := Nat.le_of_eq (Bytes.length_zeros _)
    unfold rowWrites at hw
    dsimp only at hw
    split at hw
    · rw [List.mem_singleton.1 hw]
      exact ⟨rfl, List.length_take_le _ _⟩
    · next hshort =>
      split at hw
      · rw [List.mem_singleton.1 hw]
        exact ⟨rfl, hzeros⟩
      · rcases List.mem_cons.1 hw with hw | hw
        · rw [hw]
          exact ⟨rfl, hzeros⟩
        · rw [List.mem_singleton.1 hw]
          exact ⟨rfl, Nat.le_of_lt (Nat.not_le.1 hshort)⟩
  rcases List.mem_append.1 h with h | h
  · exact ⟨false, row false _ h⟩
  · exact ⟨true, row true _ h⟩

/-! ## Fields that are put back -/

section fields

variable (w v : UInt32)

/-- The number of the table that a mode word names is what the word has in that field, so that it
can be put back. -/
theorem toUInt32_raw_ofMode : (Table.ofMode w).raw.toUInt32 = w &&& ramSelectMask := by
  have hlt : (w &&& ramSelectMask).toNat < 32 := (Table.ofMode w).index.isLt
  apply UInt32.toNat_inj.1
  unfold Table.raw Table.ofMode
  rw [UInt8.toNat_toUInt32, UInt8.toNat_ofNat_of_lt' (Nat.lt_trans hlt (by decide))]

/-- The table that is selected is the one that was asked for, since 32 tables fit into the field. -/
theorem ofMode_withBits (t : Table) :
    Table.ofMode (withBits w ramSelectMask t.raw.toUInt32) = t := by
  obtain ⟨t⟩ := t
  have hmask : ∀ i : Fin 32, ((UInt8.ofNat i.val).toUInt32 &&& ramSelectMask).toNat = i.val := by
    decide
  unfold Table.ofMode
  congr 1
  apply Fin.ext
  dsimp only
  rw [withBits_and]
  exact hmask t

variable (b : Bench) (c : Channel) (t : Table)

/-- The enable and passthru bits that were saved give back the word, whatever was put in their place
meanwhile. -/
theorem withBits_flags :
    withBits (withBits (b.words (.config c)) (ConfigBit.enable ||| ConfigBit.passthru) v)
      (ConfigBit.enable ||| ConfigBit.passthru)
      ((if (b.saved c t).enabled then ConfigBit.enable else 0) |||
        (if (b.saved c t).passthru then ConfigBit.passthru else 0)) = b.words (.config c) := by
  unfold Bench.saved
  dsimp only
  rw [withBits_withBits, ite_and_eq _ isBit_enable, ite_and_eq _ isBit_passthru]
  apply withBits_of_and_eq
  exact and_or_and _ ConfigBit.enable ConfigBit.passthru

/-- The power that was saved gives back the word. It is saved as a flag, and the flag is the inverse
of the bit. -/
theorem withBits_power :
    withBits (withBits (b.words (.power c)) t.powerBit v) t.powerBit
      (if (b.saved c t).powered then 0 else t.powerBit) = b.words (.power c) := by
  have hsaved : (b.saved c t).powered = (b.words (.power c) &&& t.powerBit == 0) := rfl
  have hbit : (if (b.saved c t).powered then 0 else t.powerBit) =
      b.words (.power c) &&& t.powerBit := by
    refine Eq.trans ?_ (ite_and_eq _ (isBit_powerBit t))
    rw [hsaved, bne]
    cases b.words (.power c) &&& t.powerBit == 0 <;> rfl
  rw [withBits_withBits, hbit]
  apply withBits_of_and_eq
  rw [UInt32.and_assoc, UInt32.and_self]

/-- The table at which memory accesses pointed gives back the word, in the same way. -/
theorem withBits_ramSelect :
    withBits (withBits (b.words (.mode c)) ramSelectMask v) ramSelectMask
      (b.saved c t).ramSelect.raw.toUInt32 = b.words (.mode c) := by
  unfold Bench.saved
  dsimp only
  rw [withBits_withBits, toUInt32_raw_ofMode]
  apply withBits_of_and_eq
  rw [UInt32.and_assoc, UInt32.and_self]

end fields

/-- What was saved is what was there. So an access that is closed has left what `Bench.written` says
and nothing else. -/
theorem Bench.closed_transfer (b : Bench) (c : Channel) (t : Table) (bank : Bank) (data : Bytes)
    (restorePower swapOn : Bool) :
    b.closed c t ((b.opened c t).transfer (Table.address c t bank) data) restorePower swapOn =
      b.written c t bank data restorePower swapOn := by
  apply Bench.ext
  · funext q
    -- each kind of register, of this channel and of another one
    rcases q with d | d | d <;> by_cases hd : d = c <;> cases restorePower <;> cases swapOn <;>
      simp only [closed, opened, written, words_setBits, words_setClock, words_transfer, hd,
        withBits_flags, withBits_power, withBits_ramSelect, ↓reduceIte, reduceCtorEq,
        ActuatorRegister.config.injEq, ActuatorRegister.power.injEq, ActuatorRegister.mode.injEq,
        Bool.false_eq_true]
  · cases restorePower <;> cases swapOn <;> rfl
  · cases restorePower <;> cases swapOn <;> exact Function.update_idem ..
  · cases restorePower <;> cases swapOn <;> rfl

/-- An access of a buffer's length that is accepted stays inside its table. Its end is too small to
wrap around. -/
theorem Table.inside_of_checkAccess {bank : Bank} {n : Nat} (hbuffer : n < 0x8000000000000000)
    (haccess : checkAccess bank (UInt64.ofNat n) = .ok ()) :
    bank.index * bankBytes + n ≤ bytes := by
  have hlength : (UInt64.ofNat n).toNat = n :=
    UInt64.toNat_ofNat_of_lt' (Nat.lt_trans hbuffer (by decide))
  have hinside := ((checkAccess_eq_ok (by rwa [hlength])).1 haccess).2
  rwa [hlength] at hinside

/-- An access inside a table stays above the registers and below the top of the memory, as bulk
accesses need it. -/
theorem Table.address_bounds (c : Channel) (t : Table) {bank : Bank} {n : Nat}
    (hinside : bank.index * bankBytes + n ≤ bytes) :
    0x60000000 ≤ (address c t bank).toNat ∧ (address c t bank).toNat + n ≤ 0x100000000 := by
  have hstart := le_place c t (i := bank.index * bankBytes)
  have hend := place_lt c t hinside
  rw [toNat_address]
  unfold place at *
  omega

/-! ## Fields of registers -/

/-- Swap mode is on, as far as the session or the firmware knows. -/
def Session.swapOn (r : Session) : Bool :=
  match r.settings.tables.swapSource with
  | .cache => r.swapMode
  | .device => ((r.chip.object Object.swapMode).window 0 1).byteAt 0 != 0

section requests

variable (h : r.chip.faults = [])

include h

/-- The power of a table is read off its bit in the power register, which is set if the table is
off. -/
theorem acts_tablePower (c : Channel) (t : Table) :
    Acts (Session.tablePower c t) r b (b.words (.power c) &&& t.powerBit == 0) b :=
  (acts_readRegister h (.power c)).bind (.pure _)

/-- Both flags of a channel are read off one word, which is read once. -/
theorem acts_enablePassthru (c : Channel) :
    Acts (Session.enablePassthru c) r b
      (b.words (.config c) &&& ConfigBit.enable != 0,
        b.words (.config c) &&& ConfigBit.passthru != 0) b :=
  (acts_readRegister h (.config c)).bind (.pure _)

/-- The table at which memory accesses point is read off the mode register. -/
theorem acts_ramSelect (c : Channel) :
    Acts (Session.ramSelect c) r b (Table.ofMode (b.words (.mode c))) b :=
  (acts_readRegister h (.mode c)).bind (.pure _)

/-- To power a table on clears its bit, and to power it off sets it. -/
theorem acts_setTablePower (c : Channel) (t : Table) (on : Bool) :
    Acts (Session.setTablePower c t on) r b ()
      (b.setBits (.power c) t.powerBit (if on then 0 else t.powerBit)) :=
  acts_updateRegister h (.power c) _ _

/-- Both flags of a channel are written together, and the other bits of the word are kept. -/
theorem acts_setEnablePassthru (c : Channel) (enable passthru : Bool) :
    Acts (Session.setEnablePassthru c enable passthru) r b ()
      (b.setBits (.config c) (ConfigBit.enable ||| ConfigBit.passthru)
        ((if enable then ConfigBit.enable else 0) |||
          (if passthru then ConfigBit.passthru else 0))) :=
  acts_updateRegister h (.config c) _ _

/-- To point memory accesses at a table replaces the field of the mode register. -/
theorem acts_setRamSelect (c : Channel) (t : Table) :
    Acts (Session.setRamSelect c t) r b ()
      (b.setBits (.mode c) ramSelectMask t.raw.toUInt32) :=
  acts_updateRegister h (.mode c) _ _

/-- To choose where the transmit signal is observed replaces one bit of the configuration. -/
theorem acts_setTxTap (c : Channel) (tap : Capture.TxTap) :
    Acts (Session.setTxTap c tap) r b ()
      (b.setBits (.config c) ConfigBit.txTap
        (if tap = .preActuator then ConfigBit.txTap else 0)) :=
  acts_updateRegister h (.config c) _ _

/-- To choose where the alternate signal is observed replaces another bit of it. -/
theorem acts_setAltTap (c : Channel) (tap : Capture.AltTap) :
    Acts (Session.setAltTap c tap) r b ()
      (b.setBits (.config c) ConfigBit.altTap
        (if tap = .preCfr then ConfigBit.altTap else 0)) :=
  acts_updateRegister h (.config c) _ _

/-- Swap mode is answered from the source that the settings name. The bench is left as it is by
either of them. -/
theorem acts_isSwapMode : Acts Session.isSwapMode r b r.swapOn b := by
  refine .get_bind fun s hr _ => ?_
  have hsettings : s.settings = r.settings := by rw [← hr, s.settings_rest]
  have hmode : s.swapMode = r.swapMode := by rw [← hr, s.swapMode_rest]
  unfold Session.swapOn
  cases hsource : r.settings.tables.swapSource with
  | cache =>
    simp only [hsettings, hsource, hmode]
    exact .pure _
  | device =>
    simp only [hsettings, hsource]
    exact (acts_objectRead h Object.swapMode 0 1).bind (.pure _)

/-! ## Passthru bits and staged tables -/

/-- The passthru bit of each channel of the mask is set, and its enable bit is kept. The channels
are gone through in ascending order. -/
theorem acts_setPassthru {mask : ChannelMask} {on : Bool}
    (hmask : r.rangeCheck = true → mask.requireNonempty = .ok ()) :
    Acts (Session.setPassthru mask on) r b ()
      (mask.channels.foldl (fun b c => b.setPassthru c on) b) := by
  refine (Acts.checked hmask).bind (.forM fun c _ b => ?_)
  exact (acts_enablePassthru h c).bind (acts_setEnablePassthru h c _ on)

/-- A table is staged by the transfers of its rows, if it is one of the tables that there are. Else
their addresses may be anywhere. -/
theorem acts_stage {table : UInt64} (htable : table.toNat < Staging.tables) (data : Bytes) :
    Acts (Session.stage table data) r b ()
      ((Staging.tableWrites table data).foldl (fun b w => b.transfer w.1 w.2) b) := by
  refine .forM fun w hw b => ?_
  obtain ⟨second, haddress, hlength⟩ := Staging.mem_tableWrites hw
  have hrow := Staging.toNat_rowAddress htable second
  have hle := second.toNat_le
  unfold Staging.tables at htable
  unfold Staging.rowBytes at hlength
  rw [← haddress] at hrow
  refine acts_transfer h ?_ ?_
  · omega
  · omega

end requests

/-! ## Opening, writing, reading -/

section accesses

variable (h : r.Healthy)

include h

/-- To open a table saves the fields that it changes, and leaves the table powered, enabled and
selected and the clock of the channel running. -/
theorem acts_openTable (c : Channel) (t : Table) :
    Acts (Session.openTable c t) r b (b.saved c t) (b.opened c t) := by
  unfold Session.openTable
  refine (acts_tablePower h.faults c t).bind ((acts_setTablePower h.faults c t true).bind ?_)
  refine (acts_enablePassthru h.faults c).bind ((acts_setEnablePassthru h.faults c true _).bind ?_)
  refine (acts_setClock h c true).bind ((acts_ramSelect h.faults c).bind ?_)
  refine (acts_setRamSelect h.faults c t).bind ?_
  -- none of the words was written before it was read
  refine (Acts.pure _).congr ?_ ?_
  · simp [Bench.saved, Bench.words_setBits]
  · simp [Bench.opened, Bench.words_setBits]

/-- To write into a table that passes its check leaves the data, and of what opening it changed only
what is not put back. -/
theorem acts_writeTable (c : Channel) (t : Table) (bank : Bank) (data : Bytes)
    (haccess : Table.checkAccess bank data.machineLength = .ok ()) :
    Acts (Session.writeTable c t bank data) r b ()
      (b.written c t bank data r.settings.tables.restorePower r.swapOn) := by
  have hinside := (Table.checkAccess_machineLength.1 haccess).2
  obtain ⟨hlow, hfits⟩ := Table.address_bounds c t hinside
  have finish (b' : Bench) : Acts (do
      if !(← Session.isSwapMode) then Session.setRamSelect c (b.saved c t).ramSelect
      Session.setClock c false) r b' ()
      ((if r.swapOn then b' else b'.setBits (.mode c) ramSelectMask
        (b.saved c t).ramSelect.raw.toUInt32).setClock c false) := by
    refine (acts_isSwapMode h.faults).bind ?_
    cases r.swapOn with
    | true => exact acts_setClock h c false
    | false => exact (acts_setRamSelect h.faults c _).bind (acts_setClock h c false)
  rw [← b.closed_transfer]
  unfold Session.writeTable
  refine (Acts.checked fun _ => haccess).bind ((acts_openTable h c t).bind ?_)
  refine (acts_transfer h.faults hlow hfits).bind ((acts_setEnablePassthru h.faults c _ _).bind ?_)
  refine .get_bind fun s hr _ => ?_
  have hsettings : s.settings = r.settings := by rw [← hr, s.settings_rest]
  rw [hsettings]
  cases r.settings.tables.restorePower with
  | true => exact (acts_setTablePower h.faults c t _).bind (finish _)
  | false => exact finish _

/-- A read is answered by the content, and leaves nothing but the clock stopped. What was changed to
open the table is put back, in swap mode too. -/
theorem acts_readTable (c : Channel) (t : Table) (bank : Bank) {length : Nat}
    (haccess : Table.checkAccess bank (UInt64.ofNat length) = .ok ())
    (hbuffer : length < 0x8000000000000000) :
    Acts (Session.readTable c t bank length) r b
      (runAt b.content (Table.address c t bank) length) (b.setClock c false) := by
  obtain ⟨hlow, hfits⟩ := Table.address_bounds c t (Table.inside_of_checkAccess hbuffer haccess)
  unfold Session.readTable
  refine (Acts.checked fun _ => haccess).bind ((acts_openTable h c t).bind ?_)
  refine (acts_fetch h.faults hlow hfits).bind ((acts_setTablePower h.faults c t _).bind ?_)
  refine (acts_setEnablePassthru h.faults c _ _).bind ((acts_setRamSelect h.faults c _).bind ?_)
  refine (acts_setClock h c false).bind ((Acts.pure _).congr rfl ?_)
  apply Bench.ext
  · funext q
    rcases q with d | d | d <;> by_cases hd : d = c <;>
      simp only [Bench.opened, Bench.words_setBits, Bench.words_setClock, hd, withBits_flags,
        withBits_power, withBits_ramSelect, ↓reduceIte, reduceCtorEq,
        ActuatorRegister.config.injEq, ActuatorRegister.power.injEq, ActuatorRegister.mode.injEq]
  · rfl
  · exact Function.update_idem ..
  · rfl

end accesses

end Predistortion
