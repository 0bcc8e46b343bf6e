import Predistortion.Proofs.TableAccess

/-!
# Rows of staged tables

A payload is staged in two rows. A row that the payload fills is written at once; a row that it does
not fill is zeroed first, and what there is of the payload is written over the zeros. Either way the
row ends up holding its part of the payload, padded with zeros (`Bench.putRuns_rowWrites`), whatever
was there before.

The rows do not meet (`Session.StagedTables.pairwise_rows`), so the order in which tables are staged
does not matter: each row is found as it was put (`Bench.putRuns_of_reaches`), and an address that
no row reaches keeps its byte (`Bench.putRuns_of_not_reaches`).

Main statement: all tables are staged, at once or one by one in any order, with the same outcome
(`Session.staged_stageTables`, with `Session.Staged`).
-/

namespace Predistortion

open SessionM

/-! ## Runs that are put one after the other -/

/-- A run of bytes that is put at an address reaches another address. -/
def Reaches (w : UInt32 × Bytes) (a : UInt32) : Prop :=
  w.1.toNat ≤ a.toNat ∧ a.toNat < w.1.toNat + w.2.length

/-- The runs have no address in common. -/
def RunsApart (w w' : UInt32 × Bytes) : Prop := ∀ a, Reaches w a → ¬Reaches w' a

/-- It does not matter which of two runs is named first, so that runs may be put in any order. -/
theorem RunsApart.symm {w w' : UInt32 × Bytes} (h : RunsApart w w') : RunsApart w' w :=
  fun a hw' hw => h a hw hw'

namespace Bench

variable {content : UInt32 → UInt8} {w : UInt32 × Bytes} {l : List (UInt32 × Bytes)} {a : UInt32}

/-- Where a run reaches an address, its byte is found there. -/
theorem putRun_of_reaches (h : Reaches w a) :
    putRun content w.1 w.2 a = w.2.byteAt (a.toNat - w.1.toNat) := if_pos h

/-- Where a run does not reach an address, the byte there is as it was. -/
theorem putRun_of_not_reaches (h : ¬Reaches w a) : putRun content w.1 w.2 a = content a := if_neg h

/-- The content with runs of bytes put, one after the other. -/
def putRuns (content : UInt32 → UInt8) (l : List (UInt32 × Bytes)) : UInt32 → UInt8 :=
  l.foldl (fun content w => putRun content w.1 w.2) content

/-- To put some runs and then some more is to put all of them in turn. -/
theorem putRuns_append (l' : List (UInt32 × Bytes)) :
    putRuns content (l ++ l') = putRuns (putRuns content l) l' := List.foldl_append

/-- What no run reaches is as it was, however many of them are put. -/
theorem putRuns_of_not_reaches (h : ∀ w ∈ l, ¬Reaches w a) : putRuns content l a = content a := by
  induction l generalizing content with
  | nil => rfl
  | cons w rest ih =>
    rw [List.forall_mem_cons] at h
    exact (ih h.2).trans (putRun_of_not_reaches h.1)

/-- Of runs that are apart from each other, each is found where it was put. By induction, since the
later ones do not reach it. -/
theorem putRuns_of_reaches (hl : l.Pairwise RunsApart) (hw : w ∈ l) (h : Reaches w a) :
    putRuns content l a = w.2.byteAt (a.toNat - w.1.toNat) := by
  induction l generalizing content with
  | nil => cases hw
  | cons v rest ih =>
    rw [List.pairwise_cons] at hl
    rcases List.mem_cons.1 hw with rfl | hrest
    · have hlater : ∀ v ∈ rest, ¬Reaches v a := fun v hv => hl.1 v hv a h
      exact (putRuns_of_not_reaches hlater).trans (putRun_of_reaches h)
    · exact ih hl.2 hrest

/-- A run is found as a whole where it was put: all of its bytes, and in their order. It may not run
over the top of the memory. -/
theorem runAt_putRuns (hl : l.Pairwise RunsApart) (hw : w ∈ l)
    (hfits : w.1.toNat + w.2.length ≤ 0x100000000) :
    runAt (putRuns content l) w.1 w.2.length = w.2 := by
  refine Bytes.ext_byteAt length_runAt fun i hi => ?_
  rw [length_runAt] at hi
  have hplace := Memory.toNat_add_ofNat (show w.1.toNat + i < 0x100000000 by omega)
  have hreached : Reaches w (w.1 + UInt32.ofNat i) := by
    unfold Reaches
    omega
  rw [byteAt_runAt hi, putRuns_of_reaches hl hw hreached, hplace, Nat.add_sub_cancel_left]

/-- Zeros, and then fewer bytes over them, are these bytes padded with zeros. A row that is only
filled in part is written in this way. -/
theorem putRun_putRun_zeros {address : UInt32} {data : Bytes} {n : Nat} (h : data.length ≤ n) :
    putRun (putRun content address (Bytes.zeros n)) address data =
      putRun content address (Bytes.padTo n data) := by
  funext a
  unfold putRun
  rw [Bytes.length_zeros, Bytes.length_padTo]
  by_cases hreached : address.toNat ≤ a.toNat ∧ a.toNat < address.toNat + n
  · have hpad := Bytes.byteAt_padTo (show a.toNat - address.toNat < n by omega) data
    rw [if_pos hreached, if_pos hreached, hpad, Bytes.byteAt_zeros]
    split
    · rfl
    · exact (Bytes.byteAt_of_length_le (by omega)).symm
  · rw [if_neg hreached, if_neg hreached, if_neg (by omega)]

end Bench

/-! ## Rows -/

namespace Staging

/-- Where a row starts. -/
def rowStart (row : Nat) : UInt32 := stagingBase + UInt32.ofNat row * stagingStride

/-- The address lies in one of the rows. -/
def InRows (a : UInt32) : Prop :=
  ∃ row < 2 * tables, (rowStart row).toNat ≤ a.toNat ∧ a.toNat < (rowStart row).toNat + rowBytes

/-- The rows of a table, and what is put into each of them. -/
def rows (table : UInt64) (data : Bytes) : List (UInt32 × Bytes) :=
  [(rowAddress table false, Bytes.padTo rowBytes data),
    (rowAddress table true, Bytes.padTo rowBytes (data.drop rowBytes))]

/-- The first row of a table takes the first half of the padded payload. -/
theorem first_mem_rows (table : UInt64) (data : Bytes) :
    (rowAddress table false, Bytes.padTo rowBytes data) ∈ rows table data :=
  List.mem_cons_self

/-- The second row takes what is left of it. -/
theorem second_mem_rows (table : UInt64) (data : Bytes) :
    (rowAddress table true, Bytes.padTo rowBytes (data.drop rowBytes)) ∈ rows table data :=
  List.mem_cons_of_mem _ List.mem_cons_self

/-- The rows stand one after the other, so that no address wraps around. -/
theorem toNat_rowStart {row : Nat} (h : row < 2 * tables) :
    (rowStart row).toNat = 0x62020000 + row * 1024 := by
  have hbase : stagingBase.toNat = 0x62020000 := rfl
  have hstride : stagingStride.toNat = 1024 := rfl
  unfold tables at h
  unfold rowStart
  rw [UInt32.toNat_add, UInt32.toNat_mul, UInt32.toNat_ofNat_of_lt' (show row < 2 ^ 32 by omega),
    hbase, hstride]
  omega

/-- The rows lie above the registers and below the top of the memory, as bulk writes need it. -/
theorem rowStart_bounds {row : Nat} (h : row < 2 * tables) :
    0x60000000 ≤ (rowStart row).toNat ∧ (rowStart row).toNat + rowBytes ≤ 0x100000000 := by
  rw [toNat_rowStart h]
  unfold tables at h
  unfold rowBytes
  omega

/-- The number of a table as the machine has it is not cut off. -/
theorem toNat_table (i : Fin tables) : (UInt64.ofNat i.val).toNat = i.val := by
  have hi := i.isLt
  unfold tables at hi
  exact UInt64.toNat_ofNat_of_lt' (show i.val < 2 ^ 64 by omega)

/-- The rows of a table are an even one and the odd one behind it. -/
theorem rowAddress_eq_rowStart (i : Fin tables) (second : Bool) :
    rowAddress (UInt64.ofNat i.val) second = rowStart (2 * i.val + second.toNat) := by
  have hi := i.isLt
  have hle := second.toNat_le
  have htable := toNat_table i
  apply UInt32.toNat_inj.1
  rw [toNat_rowAddress (by omega), toNat_rowStart (by omega), htable, Nat.mul_comm i.val]

/-- The padded payload is cut into the two rows. The first half is padded if the payload does not
fill it. -/
theorem take_padTo (data : Bytes) :
    (Bytes.padTo maxBytes data).take rowBytes = Bytes.padTo rowBytes data := by
  have hlength : ((Bytes.padTo maxBytes data).take rowBytes).length = rowBytes := by
    rw [List.length_take, Bytes.length_padTo]
    rfl
  refine Bytes.ext_byteAt (hlength.trans (Bytes.length_padTo ..).symm) fun i hi => ?_
  rw [hlength] at hi
  rw [Bytes.byteAt_take hi, Bytes.byteAt_padTo hi, Bytes.byteAt_padTo (by unfold maxBytes; omega)]

/-- The second half is what is left of the payload, padded for itself. -/
theorem drop_padTo (data : Bytes) :
    (Bytes.padTo maxBytes data).drop rowBytes = Bytes.padTo rowBytes (data.drop rowBytes) := by
  have hlength : ((Bytes.padTo maxBytes data).drop rowBytes).length = rowBytes := by
    rw [List.length_drop, Bytes.length_padTo]
    rfl
  refine Bytes.ext_byteAt (hlength.trans (Bytes.length_padTo ..).symm) fun i hi => ?_
  rw [hlength] at hi
  rw [Bytes.byteAt_drop, Bytes.byteAt_padTo hi, Bytes.byteAt_padTo (by unfold maxBytes; omega),
    Bytes.byteAt_drop]

/-- Each row of a table is one of the rows, and is filled. Half of its number is the number of the
table. -/
theorem exists_row_of_mem_rows {i : Fin tables} {data : Bytes} {w : UInt32 × Bytes}
    (h : w ∈ rows (UInt64.ofNat i.val) data) :
    ∃ row < 2 * tables, row / 2 = i.val ∧ w.1 = rowStart row ∧ w.2.length = rowBytes := by
  have hi := i.isLt
  rcases List.mem_cons.1 h with rfl | h
  · exact ⟨2 * i.val, by omega, by omega, rowAddress_eq_rowStart i false, Bytes.length_padTo ..⟩
  · rw [List.mem_singleton.1 h]
    exact ⟨2 * i.val + 1, by omega, by omega, rowAddress_eq_rowStart i true, Bytes.length_padTo ..⟩

/-- Different rows do not meet. They are filled to their length, and this is less than the distance
of their starts. -/
theorem runsApart_of_ne {row row' : Nat} {w w' : UInt32 × Bytes} (hrow : row < 2 * tables)
    (hrow' : row' < 2 * tables) (hne : row ≠ row') (hw : w.1 = rowStart row)
    (hw' : w'.1 = rowStart row') (hlength : w.2.length = rowBytes)
    (hlength' : w'.2.length = rowBytes) :
    RunsApart w w' := by
  rintro a ⟨hle, hlt⟩ ⟨hle', hlt'⟩
  rw [hw, toNat_rowStart hrow] at hle hlt
  rw [hw', toNat_rowStart hrow'] at hle' hlt'
  rw [hlength] at hlt
  rw [hlength'] at hlt'
  unfold rowBytes at hlt hlt'
  omega

end Staging

/-! ## All tables -/

namespace Session.StagedTables

/-- What is staged for a table: nothing if there is no payload. -/
def payload (tables : StagedTables) (i : Fin Staging.tables) : Bytes := (tables.get i).getD []

/-- The rows of all tables, in the order in which the tables are named. -/
def rows (order : List (UInt64 × Bytes)) : List (UInt32 × Bytes) :=
  order.flatMap fun p => Staging.rows p.1 p.2

/-- All tables are named, with an empty payload where none is given. This is why the rows of every
table are cleared. -/
theorem mem_toList {tables : StagedTables} {p : UInt64 × Bytes} :
    p ∈ tables.toList ↔ ∃ i : Fin Staging.tables, p = (UInt64.ofNat i.val, tables.payload i) := by
  have hpayload (i : Fin Staging.tables) : tables.payload i = tables[i].getD [] := rfl
  simp [toList, hpayload, eq_comm]

/-- No two rows meet, neither those of one table nor those of two. The two cases differ in why the
numbers of the rows do. -/
theorem pairwise_rows (tables : StagedTables) : (rows tables.toList).Pairwise RunsApart := by
  unfold rows
  rw [List.pairwise_flatMap]
  constructor
  · -- the two rows of one table
    intro p hp
    obtain ⟨i, rfl⟩ := mem_toList.1 hp
    have hi := i.isLt
    refine List.pairwise_pair.2 ?_
    exact Staging.runsApart_of_ne (show 2 * i.val < 2 * Staging.tables by omega)
      (show 2 * i.val + 1 < 2 * Staging.tables by omega) (by omega)
      (Staging.rowAddress_eq_rowStart i false) (Staging.rowAddress_eq_rowStart i true)
      (Bytes.length_padTo ..) (Bytes.length_padTo ..)
  · -- rows of different tables
    unfold toList
    rw [List.pairwise_map]
    refine (List.nodup_finRange _).imp fun {i j} hne w hw w' hw' => ?_
    obtain ⟨row, hrow, hi, hstart, hlength⟩ := Staging.exists_row_of_mem_rows hw
    obtain ⟨row', hrow', hj, hstart', hlength'⟩ := Staging.exists_row_of_mem_rows hw'
    have hval : i.val ≠ j.val := fun h => hne (Fin.ext h)
    exact Staging.runsApart_of_ne hrow hrow' (by omega) hstart hstart' hlength hlength'

section order

variable {tables : StagedTables} {order : List (UInt64 × Bytes)} (horder : order.Perm tables.toList)
  {content : UInt32 → UInt8}

include horder

/-- The rows are those of all tables, in whatever order the tables are named. This is all that the
lemmas below use of the order. -/
theorem mem_rows {w : UInt32 × Bytes} : w ∈ rows order ↔
    ∃ i : Fin Staging.tables, w ∈ Staging.rows (UInt64.ofNat i.val) (tables.payload i) := by
  unfold rows
  rw [List.mem_flatMap]
  constructor
  · rintro ⟨p, hp, hw⟩
    obtain ⟨i, rfl⟩ := mem_toList.1 (horder.mem_iff.1 hp)
    exact ⟨i, hw⟩
  · rintro ⟨i, hw⟩
    exact ⟨_, horder.mem_iff.2 (mem_toList.2 ⟨i, rfl⟩), hw⟩

/-- In whatever order the rows are put, each is found as it was put, because no other row reaches
it. -/
theorem runAt_putRuns_rows {i : Fin Staging.tables} {address : UInt32} {data : Bytes}
    (h : (address, data) ∈ Staging.rows (UInt64.ofNat i.val) (tables.payload i)) :
    runAt (Bench.putRuns content (rows order)) address Staging.rowBytes = data := by
  have hperm : (rows order).Perm (rows tables.toList) := horder.flatMap_right _
  have hapart : (rows order).Pairwise RunsApart :=
    (hperm.pairwise_iff RunsApart.symm).2 tables.pairwise_rows
  obtain ⟨row, hrow, -, hstart, hlength⟩ := Staging.exists_row_of_mem_rows h
  have hfits := (Staging.rowStart_bounds hrow).2
  rw [← hstart, ← hlength] at hfits
  have hfound : runAt (Bench.putRuns content (rows order)) address data.length = data :=
    Bench.runAt_putRuns hapart ((mem_rows horder).2 ⟨i, h⟩) hfits
  rwa [hlength] at hfound

/-- No byte outside the rows is touched, in whatever order they are put. -/
theorem putRuns_rows_of_not_inRows {a : UInt32} (h : ¬Staging.InRows a) :
    Bench.putRuns content (rows order) a = content a := by
  refine Bench.putRuns_of_not_reaches fun w hw hreached => h ?_
  obtain ⟨i, hw⟩ := (mem_rows horder).1 hw
  obtain ⟨row, hrow, -, hstart, hlength⟩ := Staging.exists_row_of_mem_rows hw
  refine ⟨row, hrow, ?_⟩
  rw [← hstart, ← hlength]
  exact hreached

end order

end Session.StagedTables

namespace Bench

variable {content : UInt32 → UInt8}

/-- A row ends up holding its part of the payload and zeros behind it, however it is written: at
once if the part fills it, and cleared beforehand if not. -/
theorem putRuns_rowWrites (table : UInt64) (second : Bool) (part : Bytes) :
    putRuns content (Staging.rowWrites table second part) =
      putRun content (Staging.rowAddress table second) (Bytes.padTo Staging.rowBytes part) := by
  unfold Staging.rowWrites
  dsimp only
  split
  · next hfull =>
    have hpad : Bytes.padTo Staging.rowBytes part = part.take Staging.rowBytes := by
      unfold Bytes.padTo
      rw [Nat.sub_eq_zero_of_le hfull]
      exact List.append_nil _
    rw [hpad]
    rfl
  · next hshort =>
    split
    · next hempty =>
      rw [List.isEmpty_iff.1 hempty]
      rfl
    · exact putRun_putRun_zeros (Nat.le_of_lt (Nat.not_le.1 hshort))

/-- The writes that stage a table leave its two rows filled, with nothing left of what was there
before. -/
theorem putRuns_tableWrites (table : UInt64) (data : Bytes) :
    putRuns content (Staging.tableWrites table data) =
      putRuns content (Staging.rows table data) := by
  unfold Staging.tableWrites
  rw [putRuns_append, putRuns_rowWrites, putRuns_rowWrites]
  rfl

variable (b : Bench)

/-- The bench after the writes that stage a table. -/
def stage (p : UInt64 × Bytes) : Bench :=
  (Staging.tableWrites p.1 p.2).foldl (fun b w => b.transfer w.1 w.2) b

/-- To stage a table touches no register. -/
theorem words_stage (p : UInt64 × Bytes) : (b.stage p).words = b.words := by
  unfold stage
  induction Staging.tableWrites p.1 p.2 generalizing b with
  | nil => rfl
  | cons w rest ih => exact ih (b.transfer w.1 w.2)

/-- To stage a table puts its two rows, and nothing else beside the registers is changed. In how
many writes this is done does not show. -/
theorem content_stage (p : UInt64 × Bytes) :
    (b.stage p).content = putRuns b.content (Staging.rows p.1 p.2) := by
  have htransfers (l : List (UInt32 × Bytes)) (b : Bench) :
      (l.foldl (fun b w => b.transfer w.1 w.2) b).content = putRuns b.content l := by
    induction l generalizing b with
    | nil => rfl
    | cons w rest ih => exact ih (b.transfer w.1 w.2)
  exact (htransfers _ b).trans (putRuns_tableWrites _ _)

/-- However many tables are staged, no register is touched. -/
theorem words_foldl_stage (order : List (UInt64 × Bytes)) :
    (order.foldl stage b).words = b.words := by
  induction order generalizing b with
  | nil => rfl
  | cons p rest ih => exact (ih (b.stage p)).trans (b.words_stage p)

/-- To stage some tables in turn puts the rows of all of them, in the order in which they are
named. -/
theorem content_foldl_stage (order : List (UInt64 × Bytes)) :
    (order.foldl stage b).content = putRuns b.content (Session.StagedTables.rows order) := by
  induction order generalizing b with
  | nil => rfl
  | cons p rest ih =>
    rw [List.foldl_cons, ih, content_stage, ← putRuns_append]
    rfl

end Bench

/-! ## What is staged -/

namespace Session

variable {s u v : Session} {tables : StagedTables} {order : List (UInt64 × Bytes)}

/-- In `u`, the tables are staged, and no other byte of the memory is touched. -/
structure Staged (s : Session) (tables : StagedTables) (u : Session) : Prop where
  /-- The first row of a table holds the first half of its padded payload. -/
  first (i : Fin Staging.tables) :
    u.chip.memory.readRun (Staging.rowStart (2 * i.val)) Staging.rowBytes =
      (Bytes.padTo Staging.maxBytes (tables.payload i)).take Staging.rowBytes
  /-- The second row holds the second half. -/
  second (i : Fin Staging.tables) :
    u.chip.memory.readRun (Staging.rowStart (2 * i.val + 1)) Staging.rowBytes =
      (Bytes.padTo Staging.maxBytes (tables.payload i)).drop Staging.rowBytes
  /-- Outside the rows nothing is touched. -/
  other (a : UInt32) (h : ¬Staging.InRows a) : u.chip.memory.read a = s.chip.memory.read a

/-- Two sessions in which the same tables are staged have the same memory. The rows are determined,
and so is the rest. -/
theorem Staged.read_eq (hu : s.Staged tables u) (hv : s.Staged tables v) (a : UInt32) :
    u.chip.memory.read a = v.chip.memory.read a := by
  by_cases hrow : Staging.InRows a
  · obtain ⟨row, hlt, hle, hend⟩ := hrow
    have hstart := Staging.toNat_rowStart hlt
    have hplace : a = Staging.rowStart row +
        UInt32.ofNat (a.toNat - (Staging.rowStart row).toNat) := by
      unfold Staging.rowBytes at hend
      unfold Staging.tables at hlt
      apply UInt32.toNat_inj.1
      rw [Memory.toNat_add_ofNat (by omega)]
      omega
    have hindex : a.toNat - (Staging.rowStart row).toNat < Staging.rowBytes := by omega
    have hrun : u.chip.memory.readRun (Staging.rowStart row) Staging.rowBytes =
        v.chip.memory.readRun (Staging.rowStart row) Staging.rowBytes := by
      -- an even row is the first one of a table, an odd row the second one
      obtain ⟨i, rfl | rfl⟩ : ∃ i, row = 2 * i ∨ row = 2 * i + 1 := ⟨row / 2, by omega⟩
      · exact (hu.first ⟨i, by omega⟩).trans (hv.first ⟨i, by omega⟩).symm
      · exact (hu.second ⟨i, by omega⟩).trans (hv.second ⟨i, by omega⟩).symm
    have hbyte := congrArg (Bytes.byteAt · (a.toNat - (Staging.rowStart row).toNat)) hrun
    simp only [← Memory.runAt_read, byteAt_runAt hindex, ← hplace] at hbyte
    exact hbyte
  · rw [hu.other a hrow, hv.other a hrow]

/-- What makes the writes of all tables, in whatever order, does stage the tables. The rows are read
back from what was put, and no other byte is touched. -/
theorem exists_staged {m : SessionM Unit} (horder : order.Perm tables.toList)
    (hacts : Acts m s.rest s.bench () (order.foldl Bench.stage s.bench)) :
    ∃ u, m s = .ok () u ∧ s.Staged tables u := by
  obtain ⟨u, hrun, -, hbench⟩ := hacts s rfl rfl
  have hcontent : u.bench.content = Bench.putRuns s.bench.content (StagedTables.rows order) := by
    rw [hbench, Bench.content_foldl_stage]
  have hread (i : Fin Staging.tables) {address : UInt32} {data : Bytes}
      (hw : (address, data) ∈ Staging.rows (UInt64.ofNat i.val) (tables.payload i)) :
      u.chip.memory.readRun address Staging.rowBytes = data := by
    obtain ⟨row, hrow, -, hstart, -⟩ := Staging.exists_row_of_mem_rows hw
    obtain ⟨hlow, hfits⟩ := Staging.rowStart_bounds hrow
    rw [← hstart] at hlow hfits
    rw [u.readRun_eq_content hlow hfits, hcontent]
    exact StagedTables.runAt_putRuns_rows horder hw
  refine ⟨u, hrun, ?first, ?second, ?other⟩
  case first =>
    intro i
    have hstart : _ = Staging.rowStart (2 * i.val) := Staging.rowAddress_eq_rowStart i false
    rw [Staging.take_padTo, ← hstart]
    exact hread i (Staging.first_mem_rows _ _)
  case second =>
    intro i
    have hstart : _ = Staging.rowStart (2 * i.val + 1) := Staging.rowAddress_eq_rowStart i true
    rw [Staging.drop_padTo, ← hstart]
    exact hread i (Staging.second_mem_rows _ _)
  case other =>
    intro a hnot
    apply read_eq_of_bench
    · intro register _
      rw [hbench, Bench.words_foldl_stage]
    · rw [hcontent, StagedTables.putRuns_rows_of_not_inRows horder hnot]

/-- Where no faults are injected, tables that are accepted are staged, all at once, or one by one in
any order. The memory that this leaves is the same. -/
theorem staged_stageTables (h : s.chip.faults = []) (tables : StagedTables)
    (haccepted : s.rangeCheck = true → ∀ i : Fin Staging.tables,
      Staging.check (UInt64.ofNat i.val) (tables.payload i) = .ok ()) :
    ∃ u, stageTables tables s = .ok () u ∧ s.Staged tables u ∧
      ∀ order : List (UInt64 × Bytes), order.Perm tables.toList →
        ∃ v, (order.forM fun p => stageTable p.1 p.2) s = .ok () v ∧ s.Staged tables v ∧
          ∀ a, v.chip.memory.read a = u.chip.memory.read a := by
  have hcheck : s.rest.rangeCheck = true → ∀ p ∈ tables.toList, Staging.check p.1 p.2 = .ok () := by
    intro hon p hp
    obtain ⟨i, rfl⟩ := StagedTables.mem_toList.1 hp
    exact haccepted hon i
  have hstage (p : UInt64 × Bytes) (hp : p ∈ tables.toList) (b : Bench) :
      Acts (stage p.1 p.2) s.rest b () (b.stage p) := by
    obtain ⟨i, rfl⟩ := StagedTables.mem_toList.1 hp
    refine acts_stage (r := s.rest) h ?_ _
    rw [Staging.toNat_table]
    exact i.isLt
  have hall : Acts (stageTables tables) s.rest s.bench ()
      (tables.toList.foldl Bench.stage s.bench) :=
    .bind (.checked fun hon => forM_eq_ok.2 (hcheck hon)) (.forM hstage)
  obtain ⟨u, hrun, hstaged⟩ := exists_staged (.refl _) hall
  refine ⟨u, hrun, hstaged, fun order horder => ?_⟩
  have heach : Acts (order.forM fun p => stageTable p.1 p.2) s.rest s.bench ()
      (order.foldl Bench.stage s.bench) := by
    refine .forM fun p hp b => ?_
    have hp : p ∈ tables.toList := horder.mem_iff.1 hp
    exact .bind (.checked fun hon => hcheck hon p hp) (hstage p hp b)
  obtain ⟨v, hrun', hstaged'⟩ := exists_staged horder heach
  exact ⟨v, hrun', hstaged', hstaged'.read_eq hstaged⟩

/-- The first row of the fourth table is filled with ones. -/
def onesInRow : Session :=
  let memory := Memory.blank.writeRun (Staging.rowStart 6) (List.replicate 512 1)
  Session.start { Chip.initial with memory } default

/-- A payload that ends in its second row, and one that is much shorter than its first row. -/
def twoPayloads : StagedTables := Vector.ofFn fun i =>
  if i.val = 3 then some [1, 2, 3, 4] else if i.val = 5 then some (List.replicate 600 7) else none

/-- Both payloads are staged, and the ones are gone where the first of them has ended. The same is
left if the tables are staged one by one from the last to the first. -/
theorem staged_twoPayloads :
    ∃ u, stageTables twoPayloads onesInRow = .ok () u ∧ onesInRow.Staged twoPayloads u ∧
      ∃ v, (twoPayloads.toList.reverse.forM fun p => stageTable p.1 p.2) onesInRow = .ok () v ∧
        ∀ a, v.chip.memory.read a = u.chip.memory.read a := by
  have haccepted (i : Fin Staging.tables) :
      Staging.check (UInt64.ofNat i.val) (twoPayloads.payload i) = .ok () := by
    have hpayload : twoPayloads.payload i = Option.getD (if i.val = 3 then some [1, 2, 3, 4]
        else if i.val = 5 then some (List.replicate 600 7) else none) [] :=
      congrArg (Option.getD · []) (Vector.getElem_ofFn i.isLt)
    refine Staging.check_eq_ok.2 ⟨?_, ?_⟩
    · rw [Staging.toNat_table]
      exact i.isLt
    · rw [hpayload]
      split
      · decide
      · split
        · rw [Option.getD_some, List.length_replicate]
          decide
        · decide
  obtain ⟨u, hrun, hstaged, horders⟩ :=
    staged_stageTables (s := onesInRow) rfl twoPayloads fun _ => haccepted
  obtain ⟨v, hrun', -, hsame⟩ := horders twoPayloads.toList.reverse (List.reverse_perm _)
  exact ⟨u, hrun, hstaged, v, hrun', hsame⟩

end Session

end Predistortion
