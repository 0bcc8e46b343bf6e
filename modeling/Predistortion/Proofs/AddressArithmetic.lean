import Predistortion.Proofs.GainRecords
import Predistortion.Proofs.TableAccess
import Mathlib.Algebra.Order.Ring.Nat

/-!
# Arithmetic of addresses

Addresses and offsets are computed in machine integers: lengths and positions in 64 bits, addresses
in 32, offsets of records in 16, and every step cuts off what does not fit. A computation is a tree
of such steps (`Arithmetic`). It has the result that the machine gets (`Arithmetic.result`), the
number that is meant (`Arithmetic.exact`), and the demand that no step leaves its type
(`Arithmetic.Fits`). Where nothing is cut off the two are the same (`Arithmetic.result_of_fits`).

Main statement: which of the computations fit (`addressArithmetic`, with `AddressArithmetic`). The
addresses of tables and the offsets of records always do. The end of an access to a table does if it
is below `2 ^ 64`, and then the check of the access is right. The address of a staged row does if it
is below `2 ^ 32`, so it does for the 26 tables that pass their check. Without the check the number
of a table is taken as it is. Then only the number of the row modulo `2 ^ 22` counts, and tables
that agree modulo `2 ^ 21` are staged to the same place. Nothing is said of longer accesses. One
that is accepted and two tables that meet are in `steps_cut_off`.
-/

namespace Predistortion

open SessionM

/-! ## Machine integers -/

/-- A computation in machine integers. A step is made in a type of some width. -/
inductive Arithmetic where
  /-- A number that is there. -/
  | given (n : Nat)
  /-- A sum. -/
  | add (width : Nat) (a b : Arithmetic)
  /-- A product. -/
  | mul (width : Nat) (a b : Arithmetic)
  /-- A number put into another type. -/
  | narrow (width : Nat) (a : Arithmetic)

namespace Arithmetic

/-- What the machine gets: each step is cut to its width. -/
def result : Arithmetic → Nat
  | given n => n
  | add width a b => (a.result + b.result) % 2 ^ width
  | mul width a b => a.result * b.result % 2 ^ width
  | narrow width a => a.result % 2 ^ width

/-- The number that is meant. -/
def exact : Arithmetic → Nat
  | given n => n
  | add _ a b => a.exact + b.exact
  | mul _ a b => a.exact * b.exact
  | narrow _ a => a.exact

/-- No step leaves its type. -/
def Fits : Arithmetic → Prop
  | given _ => True
  | add width a b => a.Fits ∧ b.Fits ∧ a.exact + b.exact < 2 ^ width
  | mul width a b => a.Fits ∧ b.Fits ∧ a.exact * b.exact < 2 ^ width
  | narrow width a => a.Fits ∧ a.exact < 2 ^ width

/-- If no step leaves its type then nothing is cut off, and the machine computes the exact number.
By induction over the tree of steps, where each step starts from results that are exact. -/
theorem result_of_fits {e : Arithmetic} (h : e.Fits) : e.result = e.exact := by
  induction e with
  | given n => rfl
  | add width a b iha ihb =>
    obtain ⟨ha, hb, hlt⟩ := h
    rw [result, iha ha, ihb hb, Nat.mod_eq_of_lt hlt, exact]
  | mul width a b iha ihb =>
    obtain ⟨ha, hb, hlt⟩ := h
    rw [result, iha ha, ihb hb, Nat.mod_eq_of_lt hlt, exact]
  | narrow width a iha =>
    obtain ⟨ha, hlt⟩ := h
    rw [result, iha ha, Nat.mod_eq_of_lt hlt, exact]

end Arithmetic

open Arithmetic (given add mul narrow)

/-! ## The computations -/

/-- The address of a bank of a table. -/
def Table.addressSteps (c : Channel) (t : Table) (b : Bank) : Arithmetic :=
  add 32
    (add 32 (given c.block.tables.toNat) (mul 32 (given t.index.val) (given bytes)))
    (mul 32 (given b.index) (given bankBytes))

/-- The end of an access to a table. -/
def Table.endSteps (b : Bank) (length : UInt64) : Arithmetic :=
  add 64 (mul 64 (given b.index) (given bankBytes)) (given length.toNat)

/-- The number of a staged row, counted in 64 bits. -/
def Staging.rowSteps (table : UInt64) (second : Bool) : Arithmetic :=
  add 64 (mul 64 (given table.toNat) (given 2)) (given second.toNat)

/-- The address of a staged row. -/
def Staging.addressSteps (table : UInt64) (second : Bool) : Arithmetic :=
  add 32 (given stagingBase.toNat)
    (mul 32 (narrow 32 (rowSteps table second)) (given stagingStride.toNat))

/-- The offset of a model. -/
def Model.offsetSteps (c : Channel) : Arithmetic :=
  narrow 16 (mul 64 (given c.index) (given recordLength))

/-- The offset of one of two models. -/
def Model.dualOffsetSteps (c : Channel) (m : ModelSlot) : Arithmetic :=
  narrow 16 (add 64 (mul 64 (given c.index) (given (2 * recordLength)))
    (given (if m = .model1 then recordLength else 0)))

/-- The offset of the record of a gain monitor. -/
def GainMonitor.offsetSteps (c : Channel) : Arithmetic :=
  narrow 16 (mul 64 (given c.index) (given recordLength))

/-! ### The machine makes these steps -/

section results

variable (c : Channel) (t : Table) (b : Bank) (m : ModelSlot)

/-- The address of a bank is computed by these steps, whether they fit or not. Each operation of the
machine is one step, with its own width. -/
theorem Table.toNat_address_eq_result : (address c t b).toNat = (addressSteps c t b).result := by
  have ht := t.index.isLt
  have htable : (UInt32.ofNat t.index.val).toNat = t.index.val :=
    UInt32.toNat_ofNat_of_lt' (show t.index.val < 2 ^ 32 by omega)
  have hbank : (UInt32.ofNat b.index).toNat = b.index := by cases b <;> rfl
  have hbytes : (UInt32.ofNat bytes).toNat = bytes := rfl
  have hbankBytes : (UInt32.ofNat bankBytes).toNat = bankBytes := rfl
  unfold address
  rw [UInt32.toNat_add, UInt32.toNat_add, UInt32.toNat_mul, UInt32.toNat_mul, htable, hbank,
    hbytes, hbankBytes]
  rfl

/-- The check of an access goes by the end that the machine gets, not by the one that is meant. -/
theorem Table.checkAccess_eq_verdict_result (length : UInt64) :
    checkAccess b length = verdict b length (endSteps b length).result := by
  rw [checkAccess_eq_verdict]
  cases b <;> rfl

/-- The address of a row is computed by these steps, also for a number of a table that is far too
large. -/
theorem Staging.toNat_rowAddress_eq_result (table : UInt64) (second : Bool) :
    (rowAddress table second).toNat = (addressSteps table second).result := by
  have hsecond : (if second then 1 else 0 : UInt64).toNat = second.toNat := by
    cases second <;> rfl
  unfold rowAddress
  rw [UInt32.toNat_add, UInt32.toNat_mul, UInt64.toNat_toUInt32, UInt64.toNat_add,
    UInt64.toNat_mul, hsecond]
  rfl

/-- The offset of a model is computed by these steps. -/
theorem Model.toNat_offset_eq_result : (offset c).toNat = (offsetSteps c).result := by
  cases c <;> rfl

/-- The offset of one of two models is computed by these steps. -/
theorem Model.toNat_dualOffset_eq_result :
    (dualOffset c m).toNat = (dualOffsetSteps c m).result := by
  cases c <;> cases m <;> rfl

/-- The offset of the record of a gain monitor is computed by these steps. -/
theorem GainMonitor.toNat_offset_eq_result : (offset c).toNat = (offsetSteps c).result := by
  cases c <;> rfl

end results

/-! ## What fits -/

section fits

variable (c : Channel) (t : Table) (b : Bank) (m : ModelSlot)

/-- The highest table of the highest block ends far below the last address, so no step leaves its 32
bits. -/
theorem Table.fits_addressSteps : (addressSteps c t b).Fits := by
  have hc : c.block.tables.toNat ≤ 0x61B00000 := by cases c <;> decide
  have ht := t.index.isLt
  have hb : b.index ≤ 3 := by cases b <;> decide
  simp only [addressSteps, Arithmetic.Fits, Arithmetic.exact, bytes, bankBytes, true_and]
  omega

/-- Only the sum can leave its type, since a bank starts at 3072 at most. -/
theorem Table.fits_endSteps_iff (length : UInt64) :
    (endSteps b length).Fits ↔ b.index * bankBytes + length.toNat < 2 ^ 64 := by
  have hb : b.index ≤ 3 := by cases b <;> decide
  simp only [endSteps, Arithmetic.Fits, Arithmetic.exact, bankBytes, true_and]
  omega

/-- If the address fits into 32 bits then so do the number of the row and its product, which are
smaller. -/
theorem Staging.fits_addressSteps_iff (table : UInt64) (second : Bool) :
    (addressSteps table second).Fits ↔ (addressSteps table second).exact < 2 ^ 32 := by
  have htable := table.toNat_lt
  have hsecond := second.toNat_le
  have hbase : stagingBase.toNat = 0x62020000 := rfl
  have hstride : stagingStride.toNat = 1024 := rfl
  simp only [addressSteps, rowSteps, Arithmetic.Fits, Arithmetic.exact, hbase, hstride, true_and]
  omega

/-- Four records end far below what 16 bits hold, so the offset of a model is exact for every
channel. -/
theorem Model.fits_offsetSteps : (offsetSteps c).Fits := by
  have hc : c.index ≤ 3 := by cases c <;> decide
  simp only [offsetSteps, Arithmetic.Fits, Arithmetic.exact, recordLength, true_and]
  omega

/-- Eight records end far below what 16 bits hold, so the offset is exact for both models of every
channel. -/
theorem Model.fits_dualOffsetSteps : (dualOffsetSteps c m).Fits := by
  have hc : c.index ≤ 3 := by cases c <;> decide
  simp only [dualOffsetSteps, Arithmetic.Fits, Arithmetic.exact, recordLength, true_and]
  split <;> omega

/-- Four records of a gain monitor end far below what 16 bits hold, so their offsets are exact. -/
theorem GainMonitor.fits_offsetSteps : (offsetSteps c).Fits := by
  have hc : c.index ≤ 3 := by cases c <;> decide
  simp only [offsetSteps, Arithmetic.Fits, Arithmetic.exact, recordLength, true_and]
  omega

end fits

/-! ## Staging without a check -/

namespace Staging

/-- Two rows have the same address exactly if their numbers agree modulo `2 ^ 22`. A row takes `2 ^
10` bytes, and an address has 32 bits. -/
theorem rowAddress_eq_iff (table table' : UInt64) (second second' : Bool) :
    rowAddress table second = rowAddress table' second' ↔
      (rowSteps table second).exact % 2 ^ 22 = (rowSteps table' second').exact % 2 ^ 22 := by
  show _ ↔ (table.toNat * 2 + second.toNat) % 2 ^ 22 = (table'.toNat * 2 + second'.toNat) % 2 ^ 22
  rw [← UInt32.toNat_inj, toNat_rowAddress_mod, toNat_rowAddress_mod]
  omega

/-- The number of a row tells the table and the half, as long as it is not cut off: the half is its
last bit, and the table is the rest. -/
theorem rowSteps_inj {table table' : UInt64} {second second' : Bool}
    (h : (rowSteps table second).exact = (rowSteps table' second').exact) :
    table = table' ∧ second = second' := by
  have hrow : table.toNat * 2 + second.toNat = table'.toNat * 2 + second'.toNat := h
  have hle := second.toNat_le
  have hle' := second'.toNat_le
  have htable : table.toNat = table'.toNat := by omega
  have hsecond : second.toNat = second'.toNat := by omega
  refine ⟨UInt64.toNat_inj.1 htable, ?_⟩
  revert hsecond
  cases second <;> cases second' <;> decide

/-- Rows whose addresses fit have different ones, so that two payloads never meet in the memory. -/
theorem rowAddress_inj {table table' : UInt64} {second second' : Bool}
    (h : (addressSteps table second).Fits) (h' : (addressSteps table' second').Fits)
    (heq : rowAddress table second = rowAddress table' second') :
    table = table' ∧ second = second' := by
  have hexact : (addressSteps table second).exact = (addressSteps table' second').exact := by
    rw [← Arithmetic.result_of_fits h, ← Arithmetic.result_of_fits h',
      ← toNat_rowAddress_eq_result, ← toNat_rowAddress_eq_result, heq]
  have hrows : 0x62020000 + (rowSteps table second).exact * 1024 =
      0x62020000 + (rowSteps table' second').exact * 1024 := hexact
  exact rowSteps_inj (by omega)

/-- The rows of the tables that there are have addresses that fit. A table beyond them need not. -/
theorem fits_of_lt {table : UInt64} (h : table.toNat < tables) (second : Bool) :
    (addressSteps table second).Fits := by
  have htable : table.toNat < 26 := h
  have hsecond := second.toNat_le
  rw [fits_addressSteps_iff]
  show 0x62020000 + (table.toNat * 2 + second.toNat) * 1024 < 2 ^ 32
  omega

/-- What is written for a table depends on its number only through the addresses of its two rows. So
tables with the same addresses are written alike. -/
theorem tableWrites_congr {table table' : UInt64}
    (h : ∀ second, rowAddress table second = rowAddress table' second) (data : Bytes) :
    tableWrites table data = tableWrites table' data := by
  unfold tableWrites rowWrites
  rw [h false, h true]

end Staging

namespace Session

variable {s : Session} {table table' : UInt64}

/-- A check that is switched off passes whatever it would find. -/
theorem checked_of_off (hoff : s.rangeCheck = false) (check : Except Error Unit) :
    checked check s = .ok () s := by
  have hends : Ends (checked check) s (fun _ t => t = s) (fun _ _ => False) := by
    rw [ends_checked, hoff]
    rfl
  obtain ⟨_, _, hrun, rfl⟩ := hends.exists_ok
  exact hrun

/-- Without the check, tables that agree modulo `2 ^ 21` are staged alike, because the row number is
cut to 32 bits and its address once more. -/
theorem stageTable_congr (hoff : s.rangeCheck = false)
    (h : table.toNat % 2 ^ 21 = table'.toNat % 2 ^ 21) (data : Bytes) :
    stageTable table data s = stageTable table' data s := by
  have haddress (second : Bool) :
      Staging.rowAddress table second = Staging.rowAddress table' second := by
    rw [Staging.rowAddress_eq_iff]
    show (table.toNat * 2 + second.toNat) % 2 ^ 22 = (table'.toNat * 2 + second.toNat) % 2 ^ 22
    omega
  unfold stageTable stage
  simp only [bind, EStateM.bind, checked_of_off hoff, Staging.tableWrites_congr haddress]

/-- With the check, a table that is staged is one of those that there are, so that nothing is cut
off. This is where the two ways to stage a table differ. -/
theorem lt_of_stageTable {data : Bytes} {u : Session} (hon : s.rangeCheck = true)
    (h : stageTable table data s = .ok () u) : table.toNat < Staging.tables := by
  have hcheck := ends_checked_self (Staging.check table data) s
  unfold stageTable at h
  obtain ⟨_, t, hrun, -⟩ := exists_ok_of_bind h
  exact (Staging.check_eq_ok.1 ((hcheck.of_ok hrun).2 hon)).1

end Session

/-! ## All computations -/

/-- Which of the computations of addresses and offsets fit, and what they come to. -/
structure AddressArithmetic : Prop where
  /-- The address of a bank of a table always fits. -/
  tables (c : Channel) (t : Table) (b : Bank) :
    (Table.addressSteps c t b).Fits ∧
      (Table.address c t b).toNat =
        c.block.tables.toNat + t.index.val * Table.bytes + b.index * Table.bankBytes
  /-- So does the offset of a model. -/
  models (c : Channel) :
    (Model.offsetSteps c).Fits ∧ (Model.offset c).toNat = c.index * Model.recordLength
  /-- So does the offset of one of two models. -/
  dualModels (c : Channel) (m : ModelSlot) :
    (Model.dualOffsetSteps c m).Fits ∧
      (Model.dualOffset c m).toNat =
        c.index * (2 * Model.recordLength) + if m = .model1 then Model.recordLength else 0
  /-- So does the offset of the record of a gain monitor. -/
  gainMonitors (c : Channel) :
    (GainMonitor.offsetSteps c).Fits ∧
      (GainMonitor.offset c).toNat = c.index * GainMonitor.recordLength
  /-- The end of an access fits if it is below `2 ^ 64`. Then the check finds what is to be found
  for the end that is meant, and accepts what ends inside the table. -/
  accesses (b : Bank) (length : UInt64) (h : b.index * Table.bankBytes + length.toNat < 2 ^ 64) :
    (Table.endSteps b length).Fits ∧
      Table.checkAccess b length =
        Table.verdict b length (b.index * Table.bankBytes + length.toNat) ∧
      (Table.checkAccess b length = .ok () ↔
        1 ≤ length.toNat ∧ length.toNat ≤ 4096 - 1024 * b.index)
  /-- The address of a staged row fits exactly if it is below `2 ^ 32`. Else it is cut to 32
  bits. -/
  rows (table : UInt64) (second : Bool) :
    ((Staging.addressSteps table second).Fits ↔
        0x62020000 + (table.toNat * 2 + second.toNat) * 1024 < 2 ^ 32) ∧
      (Staging.rowAddress table second).toNat =
        (0x62020000 + (table.toNat * 2 + second.toNat) * 1024) % 2 ^ 32
  /-- Rows whose addresses fit have different ones. -/
  apart (table table' : UInt64) (second second' : Bool)
    (h : (Staging.addressSteps table second).Fits) (h' : (Staging.addressSteps table' second').Fits)
    (heq : Staging.rowAddress table second = Staging.rowAddress table' second') :
    table = table' ∧ second = second'
  /-- Of all rows, those have the same address whose numbers agree modulo `2 ^ 22`. -/
  meet (table table' : UInt64) (second second' : Bool) :
    Staging.rowAddress table second = Staging.rowAddress table' second' ↔
      (table.toNat * 2 + second.toNat) % 2 ^ 22 = (table'.toNat * 2 + second'.toNat) % 2 ^ 22
  /-- Where arguments are checked, the rows of every table that is staged have addresses that
  fit. -/
  checked (s u : Session) (hon : s.rangeCheck = true) (table : UInt64) (data : Bytes)
    (h : Session.stageTable table data s = .ok () u) (second : Bool) :
    (Staging.addressSteps table second).Fits
  /-- Where they are not checked, tables that agree modulo `2 ^ 21` are staged alike. -/
  unchecked (s : Session) (hoff : s.rangeCheck = false) (table table' : UInt64) (data : Bytes)
    (h : table.toNat % 2 ^ 21 = table'.toNat % 2 ^ 21) :
    Session.stageTable table data s = Session.stageTable table' data s

/-- All computations of addresses and offsets, each with the exact condition under which nothing is
cut off and with the number that it then comes to. -/
theorem addressArithmetic : AddressArithmetic := by
  constructor
  case tables =>
    intro c t b
    have hfits := Table.fits_addressSteps c t b
    exact ⟨hfits, (Table.toNat_address_eq_result c t b).trans (Arithmetic.result_of_fits hfits)⟩
  case models =>
    intro c
    have hfits := Model.fits_offsetSteps c
    exact ⟨hfits, (Model.toNat_offset_eq_result c).trans (Arithmetic.result_of_fits hfits)⟩
  case dualModels =>
    intro c m
    have hfits := Model.fits_dualOffsetSteps c m
    exact ⟨hfits, (Model.toNat_dualOffset_eq_result c m).trans (Arithmetic.result_of_fits hfits)⟩
  case gainMonitors =>
    intro c
    have hfits := GainMonitor.fits_offsetSteps c
    exact ⟨hfits, (GainMonitor.toNat_offset_eq_result c).trans (Arithmetic.result_of_fits hfits)⟩
  case accesses =>
    intro b length h
    have hfits := (Table.fits_endSteps_iff b length).2 h
    refine ⟨hfits, ?_, ?_⟩
    · rw [Table.checkAccess_eq_verdict_result, Arithmetic.result_of_fits hfits]
      rfl
    · have hb : b.index ≤ 3 := by cases b <;> decide
      rw [Table.checkAccess_eq_ok_of_end_lt h]
      unfold Table.bankBytes Table.bytes
      omega
  case rows =>
    intro table second
    exact ⟨Staging.fits_addressSteps_iff table second, Staging.toNat_rowAddress_mod table second⟩
  case apart =>
    intro table table' second second' h h' heq
    exact Staging.rowAddress_inj h h' heq
  case meet => exact Staging.rowAddress_eq_iff
  case checked =>
    intro s u hon table data h second
    exact Staging.fits_of_lt (Session.lt_of_stageTable hon h) second
  case unchecked =>
    intro s hoff table table' data h
    exact Session.stageTable_congr hoff h data

/-- A session on a fresh chip that checks arguments. -/
def checkedSession : Session :=
  .start .initial { (default : Settings) with validation := ⟨true, ⟨0x0F⟩⟩ }

/-- The last position of a table is accepted, and so is the last row that is staged. No other row
that fits has its address. -/
theorem addressArithmetic_lastTable :
    Table.checkAccess .bank3 1024 = .ok () ∧
      ∃ u, Session.stageTable 25 [5, 6, 7, 8] checkedSession = .ok () u ∧
        (Staging.addressSteps 25 true).Fits ∧
        ∀ table second, (Staging.addressSteps table second).Fits →
          Staging.rowAddress 25 true = Staging.rowAddress table second →
          25 = table ∧ true = second := by
  have haccess := (addressArithmetic.accesses .bank3 1024 (by decide)).2.2
  obtain ⟨u, hrun⟩ : ∃ u, Session.stageTable 25 [5, 6, 7, 8] checkedSession = .ok () u := ⟨_, rfl⟩
  have hfits := addressArithmetic.checked checkedSession u rfl 25 _ hrun true
  refine ⟨haccess.2 (by decide), u, hrun, hfits, fun table second h => ?_⟩
  exact addressArithmetic.apart 25 table true second hfits h

/-- A session on a fresh chip that does not check arguments. -/
def uncheckedSession : Session :=
  .start .initial { (default : Settings) with validation := ⟨false, ⟨0x0F⟩⟩ }

/-- What is cut off goes unnoticed. The end of the longest access to a bank comes to a position
inside the table, and the access is accepted. Without the check, the address of a row of table `2 ^
31` comes to that of table 0, and the one table is staged to where the other is. -/
theorem steps_cut_off :
    (¬(Table.endSteps .bank1 0xFFFFFFFFFFFFFFFF).Fits ∧
        Table.checkAccess .bank1 0xFFFFFFFFFFFFFFFF = .ok ()) ∧
      ¬(Staging.addressSteps 0x80000000 false).Fits ∧
      Staging.rowAddress 0x80000000 false = Staging.rowAddress 0 false ∧
      Session.stageTable 0x80000000 [5, 6, 7, 8] uncheckedSession =
        Session.stageTable 0 [5, 6, 7, 8] uncheckedSession ∧
      ∃ t, Session.stageTable 0x80000000 [5, 6, 7, 8] uncheckedSession = .ok () t := by
  have hoff : uncheckedSession.rangeCheck = false := rfl
  refine ⟨⟨?_, rfl⟩, ?_, by decide, Session.stageTable_congr hoff (by decide) _, ?_⟩
  · rw [Table.fits_endSteps_iff]
    decide
  · rw [Staging.fits_addressSteps_iff]
    decide
  · exact ⟨_, rfl⟩

end Predistortion
