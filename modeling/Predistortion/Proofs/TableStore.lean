import Predistortion.Proofs.TableAccess

/-!
# Tables as arrays

Seen from its calls, the memory of the tables is a store of 4 times 32 arrays of 4096 bytes that
have nothing to do with one another (`TableStore`). A write puts its data into one of them, at the
start of its bank; a read takes bytes from one of them; no other call reaches them.

Main statement: a sequence of calls is answered by a session as by the store of the tables that its
chip holds (`Session.answers_eq_answers_tables`), refusals included. One call is answered alike and
leaves the tables alike (`TableCall.acts`, `TableCall.run_of_refused`); a sequence follows by
induction, since a call keeps the rest of the session, and with it the settings and the absence of
faults.

That the arrays are independent comes from the map of the memory: a position of a table is reached
by a transfer only if the table and the position are meant (`Bench.tables_transfer`), and staged
rows lie above all tables (`Bench.tables_transfer_above`).
-/

namespace Predistortion

/-! ## The store -/

/-- An array of bytes for each table of each channel. -/
abbrev TableStore := Channel → Table → Bytes

namespace TableStore

/-- The store with data put into one array, from the start of a bank on. -/
def write (m : TableStore) (c : Channel) (t : Table) (bank : Bank) (data : Bytes) : TableStore :=
  fun d u => if d = c ∧ u = t then (m c t).overwrite (bank.index * Table.bankBytes) data else m d u

/-- The bytes of one array from the start of a bank on. -/
def read (m : TableStore) (c : Channel) (t : Table) (bank : Bank) (length : Nat) : Bytes :=
  (m c t).window (bank.index * Table.bankBytes) length

variable (m : TableStore) (c : Channel) (t : Table) (bank : Bank) (data : Bytes)

/-- The array that is written has the data at its place. -/
theorem write_self :
    m.write c t bank data c t = (m c t).overwrite (bank.index * Table.bankBytes) data :=
  if_pos ⟨rfl, rfl⟩

/-- All other arrays are as they were. -/
theorem write_of_ne {d : Channel} {u : Table} (h : ¬(d = c ∧ u = t)) :
    m.write c t bank data d u = m d u := if_neg h

/-- A write that ends inside an array leaves all arrays as long as they were. So the arrays of the
store keep the length of a table. -/
theorem length_write (hm : ∀ d u, (m d u).length = Table.bytes)
    (h : bank.index * Table.bankBytes + data.length ≤ Table.bytes) (d : Channel) (u : Table) :
    (m.write c t bank data d u).length = Table.bytes := by
  unfold write
  split
  · rw [Bytes.length_overwrite, hm]
    exact Nat.max_eq_left h
  · exact hm d u

/-- As many bytes are read as are asked for. -/
@[simp] theorem length_read (n : Nat) : (m.read c t bank n).length = n := Bytes.length_window _ _ _

/-- The bytes that are read stand in the array from the start of the bank on. -/
theorem byteAt_read {n i : Nat} (h : i < n) :
    (m.read c t bank n).byteAt i = (m c t).byteAt (bank.index * Table.bankBytes + i) :=
  Bytes.byteAt_window h _ _

/-- What was written is read back whole, also if it ends beyond the array. -/
theorem read_write_self : (m.write c t bank data).read c t bank data.length = data := by
  unfold read
  rw [write_self]
  exact Bytes.window_overwrite_self _ _ _

end TableStore

/-- The tables that the memory of a chip holds. -/
def Chip.tables (chip : Chip) : TableStore := fun c t =>
  chip.memory.readRun (Table.address c t .bank0) Table.bytes

/-! ## Calls -/

/-- A call that reads or writes a table, or that works beside the tables. -/
inductive TableCall where
  /-- Write a table. -/
  | write (c : Channel) (t : Table) (bank : Bank) (data : Bytes)
  /-- Read a table into a buffer; a buffer has fewer than `2 ^ 63` bytes. -/
  | read (c : Channel) (t : Table) (bank : Bank) (length : Fin 0x8000000000000000)
  /-- Power a table on or off. -/
  | setTablePower (c : Channel) (t : Table) (on : Bool)
  /-- Point memory accesses at a table. -/
  | setRamSelect (c : Channel) (t : Table)
  /-- Choose where the transmit signal is observed. -/
  | setTxTap (c : Channel) (tap : Capture.TxTap)
  /-- Choose where the alternate signal is observed. -/
  | setAltTap (c : Channel) (tap : Capture.AltTap)
  /-- Set the passthru bits of a mask. -/
  | setPassthru (mask : ChannelMask) (on : Bool)
  /-- Stage a table. -/
  | stageTable (table : UInt64) (data : Bytes)
deriving DecidableEq

namespace TableCall

/-- Carries out a call. Only a read has something to answer. -/
def run : TableCall → SessionM Bytes
  | write c t bank data => do
    Session.writeTable c t bank data
    return []
  | read c t bank length => Session.readTable c t bank length
  | setTablePower c t on => do
    Session.setTablePower c t on
    return []
  | setRamSelect c t => do
    Session.setRamSelect c t
    return []
  | setTxTap c tap => do
    Session.setTxTap c tap
    return []
  | setAltTap c tap => do
    Session.setAltTap c tap
    return []
  | setPassthru mask on => do
    Session.setPassthru mask on
    return []
  | stageTable table data => do
    Session.stageTable table data
    return []

/-- Checks the arguments of a call. -/
def check : TableCall → Except Error Unit
  | write _ _ bank data => Table.checkAccess bank data.machineLength
  | read _ _ bank length => Table.checkAccess bank (UInt64.ofNat length)
  | setPassthru mask _ => mask.requireNonempty
  | stageTable table data => Staging.check table data
  | _ => .ok ()

end TableCall

namespace TableStore

/-- What a store answers to a call that it accepts. -/
def answer (m : TableStore) : TableCall → Bytes
  | .read c t bank length => m.read c t bank length
  | _ => []

/-- What a call that is accepted leaves of a store. -/
def after (m : TableStore) : TableCall → TableStore
  | .write c t bank data => m.write c t bank data
  | _ => m

/-- How a store answers a sequence of calls. A call that is refused does nothing. -/
def answers (m : TableStore) : List TableCall → List (Except Error Bytes)
  | [] => []
  | k :: rest =>
    match k.check with
    | .ok () => .ok (m.answer k) :: (m.after k).answers rest
    | .error e => .error e :: m.answers rest

end TableStore

/-- How a session answers a sequence of calls. -/
def Session.answers (s : Session) : List TableCall → List (Except Error Bytes)
  | [] => []
  | k :: rest =>
    match k.run s with
    | .ok data t => .ok data :: t.answers rest
    | .error e t => .error e :: t.answers rest

/-! ## Where positions lie -/

namespace Table

variable {c : Channel} {t : Table}

/-- The positions of a table stand one after the other from its first one on. -/
theorem place_eq_add (c : Channel) (t : Table) (i : Nat) : place c t i = place c t 0 + i := by
  unfold place
  omega

/-- The position that is reached from the start of a bank, as long as it is inside the table. -/
theorem toNat_address_add {bank : Bank} {i : Nat} (h : bank.index * bankBytes + i < bytes) :
    (address c t bank + UInt32.ofNat i).toNat = place c t (bank.index * bankBytes + i) := by
  obtain ⟨-, hfits⟩ := address_bounds c t (show bank.index * bankBytes + (i + 1) ≤ bytes by omega)
  rw [Memory.toNat_add_ofNat (by omega), toNat_address, place_eq_add _ _ (_ + i), place_eq_add]
  omega

/-- The position that is reached from the start of the table, which is the start of its first
bank. -/
theorem toNat_start_add {i : Nat} (h : i < bytes) :
    (address c t .bank0 + UInt32.ofNat i).toNat = place c t i := by
  have hstart : Bank.bank0.index * bankBytes + i = i := Nat.zero_add i
  rw [toNat_address_add (by omega), hstart]

/-- A position that is reached by a run inside a table is one of this table. So no write shows in a
neighbour. -/
theorem eq_of_place_reached {d : Channel} {u : Table} {k n i : Nat} (hi : i < bytes)
    (hfits : k + n ≤ bytes) (hle : place c t k ≤ place d u i)
    (hlt : place d u i < place c t k + n) :
    d = c ∧ u = t := by
  obtain ⟨j, hj⟩ := Nat.exists_eq_add_of_le hle
  rw [place_eq_add c t k, Nat.add_assoc, ← place_eq_add] at hj
  have hinside : k + j < bytes := by
    rw [hj, place_eq_add, place_eq_add c t k] at hlt
    omega
  obtain ⟨hc, ht, -⟩ := place_inj hi hinside hj
  exact ⟨hc, ht⟩

end Table

/-! ## The tables of a bench -/

namespace Bench

/-- The tables of a bench. -/
def tables (b : Bench) : TableStore := fun c t =>
  (List.range Table.bytes).map fun i => b.content (Table.address c t .bank0 + UInt32.ofNat i)

variable (b : Bench) {c : Channel} {t : Table}

/-- Each table of a bench has the length of a table. -/
@[simp] theorem length_tables : (b.tables c t).length = Table.bytes := by
  simp [tables]

/-- A byte of a table is the content at its address. -/
theorem byteAt_tables {i : Nat} (h : i < Table.bytes) :
    (b.tables c t).byteAt i = b.content (Table.address c t .bank0 + UInt32.ofNat i) := by
  simp [tables, Bytes.byteAt, h]

/-- To set bits of a register leaves the tables alone, since the two are kept apart on a bench. -/
@[simp] theorem tables_setBits (register : ActuatorRegister) (mask value : UInt32) :
    (b.setBits register mask value).tables = b.tables := rfl

/-- To switch a clock leaves the tables alone. -/
@[simp] theorem tables_setClock (on : Bool) : (b.setClock c on).tables = b.tables := rfl

/-- A transfer that starts in a table and ends in it is a write to this table. All tables are
compared byte by byte, and only a byte of this one can be reached. -/
theorem tables_transfer {bank : Bank} {data : Bytes}
    (h : bank.index * Table.bankBytes + data.length ≤ Table.bytes) :
    (b.transfer (Table.address c t bank) data).tables = b.tables.write c t bank data := by
  funext d u
  have hlength : (b.tables.write c t bank data d u).length = Table.bytes :=
    TableStore.length_write _ _ _ _ _ (fun _ _ => b.length_tables) h d u
  refine Bytes.ext_byteAt ((length_tables _).trans hlength.symm) fun i hi => ?_
  rw [length_tables] at hi
  rw [byteAt_tables _ hi, content_transfer, putRun, Table.toNat_address, Table.toNat_start_add hi]
  by_cases hmeant : d = c ∧ u = t
  · obtain ⟨rfl, rfl⟩ := hmeant
    rw [TableStore.write_self, Bytes.byteAt_overwrite, byteAt_tables _ hi,
      Table.place_eq_add d u i, Table.place_eq_add d u (_ * _), Nat.add_sub_add_left]
    simp only [Nat.add_assoc, Nat.add_le_add_iff_left, Nat.add_lt_add_iff_left]
  · rw [TableStore.write_of_ne _ _ _ _ _ hmeant, byteAt_tables _ hi, if_neg]
    exact fun hreached => hmeant (Table.eq_of_place_reached hi h hreached.1 hreached.2)

/-- A transfer above the tables does not reach them. The rows of staged tables are there. -/
theorem tables_transfer_above {address : UInt32} (h : 0x61C00000 ≤ address.toNat) (data : Bytes) :
    (b.transfer address data).tables = b.tables := by
  funext d u
  refine Bytes.ext_byteAt (by simp) fun i hi => ?_
  rw [length_tables] at hi
  have hbelow : Table.place d u (i + 1) ≤ 0x61C00000 := Table.place_lt d u hi
  rw [Table.place_eq_add, ← Nat.add_assoc, ← Table.place_eq_add] at hbelow
  rw [byteAt_tables _ hi, byteAt_tables _ hi, content_transfer, putRun,
    Table.toNat_start_add hi, if_neg]
  omega

/-- A write to a table leaves in the tables what it is meant to leave, whatever becomes of the
registers. -/
theorem tables_written {bank : Bank} {data : Bytes} (restorePower swapOn : Bool)
    (h : bank.index * Table.bankBytes + data.length ≤ Table.bytes) :
    (b.written c t bank data restorePower swapOn).tables = b.tables.write c t bank data := by
  unfold written
  dsimp only
  rw [tables_setClock, tables_transfer _ h]
  cases restorePower <;> cases swapOn <;> rfl

/-- The bytes from the start of a bank on are those of the table, also where they go on into the
next bank. -/
theorem read_tables {bank : Bank} {n : Nat} (h : bank.index * Table.bankBytes + n ≤ Table.bytes) :
    b.tables.read c t bank n = runAt b.content (Table.address c t bank) n := by
  refine Bytes.ext_byteAt (by simp) fun i hi => ?_
  rw [TableStore.length_read] at hi
  have hsame : Table.address c t .bank0 + UInt32.ofNat (bank.index * Table.bankBytes + i) =
      Table.address c t bank + UInt32.ofNat i := by
    apply UInt32.toNat_inj.1
    rw [Table.toNat_start_add (by omega), Table.toNat_address_add (by omega)]
  rw [TableStore.byteAt_read _ _ _ _ hi, byteAt_tables _ (by omega), hsame, byteAt_runAt hi]

/-- Steps that leave the tables alone leave them alone together. The calls that go over a list use
this. -/
theorem tables_foldl {α : Type} {f : Bench → α → Bench} {l : List α}
    (h : ∀ a ∈ l, ∀ b : Bench, (f b a).tables = b.tables) : (l.foldl f b).tables = b.tables := by
  induction l generalizing b with
  | nil => rfl
  | cons a rest ih =>
    rw [List.forall_mem_cons] at h
    rw [List.foldl_cons, ih _ h.2, h.1]

end Bench

/-- The bench of a session has the tables that the memory of its chip holds, since they lie above
the registers. -/
theorem Session.tables_bench (s : Session) : s.bench.tables = s.chip.tables := by
  funext c t
  have hinside : Bank.bank0.index * Table.bankBytes + Table.bytes ≤ Table.bytes := by decide
  obtain ⟨hlow, hfits⟩ := Table.address_bounds c t hinside
  exact (s.readRun_eq_content hlow hfits).symm

/-! ## One call -/

namespace TableCall

variable {r : Session} {b : Bench}

/-- A call that is accepted answers as the store does and leaves the store as it should. One case
for each call; only those that write to tables change the store. -/
theorem acts (h : r.Healthy) {k : TableCall} (hk : k.check = .ok ()) :
    ∃ b', Acts k.run r b (b.tables.answer k) b' ∧ b'.tables = b.tables.after k := by
  cases k with
  | write c t bank data =>
    have hinside := (Table.checkAccess_machineLength.1 hk).2
    exact ⟨_, (acts_writeTable h c t bank data hk).bind (.pure _), b.tables_written _ _ hinside⟩
  | read c t bank length =>
    have hinside := Table.inside_of_checkAccess length.isLt hk
    refine ⟨_, (acts_readTable h c t bank hk length.isLt).congr ?_ rfl, b.tables_setClock _⟩
    exact (b.read_tables hinside).symm
  | setTablePower c t on => exact ⟨_, (acts_setTablePower h.faults c t on).bind (.pure _), rfl⟩
  | setRamSelect c t => exact ⟨_, (acts_setRamSelect h.faults c t).bind (.pure _), rfl⟩
  | setTxTap c tap => exact ⟨_, (acts_setTxTap h.faults c tap).bind (.pure _), rfl⟩
  | setAltTap c tap => exact ⟨_, (acts_setAltTap h.faults c tap).bind (.pure _), rfl⟩
  | setPassthru mask on =>
    exact ⟨_, (acts_setPassthru h.faults fun _ => hk).bind (.pure _),
      b.tables_foldl fun _ _ _ => rfl⟩
  | stageTable table data =>
    have htable : table.toNat < Staging.tables := (Staging.check_eq_ok.1 hk).1
    refine ⟨_, ((Acts.checked fun _ => hk).bind (acts_stage h.faults htable data)).bind (.pure _),
      ?_⟩
    refine b.tables_foldl fun w hw b => b.tables_transfer_above ?_ w.2
    obtain ⟨second, haddress, -⟩ := Staging.mem_tableWrites hw
    have hrow := Staging.toNat_rowAddress htable second
    rw [haddress]
    omega

/-- A call that is refused does nothing: its check comes first, before any request. With `acts`,
this is all that a call can come to. -/
theorem run_of_refused {s : Session} (hcheck : s.rangeCheck = true) {k : TableCall} {e : Error}
    (hk : k.check = .error e) : k.run s = .error e s := by
  have hrun : SessionM.checked k.check s = .error e s := by
    unfold SessionM.checked
    rw [hk]
    show (if s.rangeCheck = true then _ else _ : SessionM Unit) s = _
    rw [if_pos hcheck]
    rfl
  have stops {α β : Type} {m : SessionM α} {n : α → SessionM β} (hm : m s = .error e s) :
      (m >>= n) s = .error e s := by
    simp only [bind, EStateM.bind, hm]
  cases k with
  | write | setPassthru | stageTable => exact stops (stops hrun)
  | read => exact stops hrun
  | _ => cases hk

end TableCall

/-! ## Sequences of calls -/

/-- A sequence of calls is answered as by independent arrays that hold what the memory held. By
induction over the calls: one that is accepted acts as on the store, and one that is refused does
nothing. -/
theorem Session.answers_eq_answers_tables {s : Session} (h : s.Healthy)
    (hcheck : s.rangeCheck = true)
    (calls : List TableCall) : s.answers calls = s.chip.tables.answers calls := by
  induction calls generalizing s with
  | nil => rfl
  | cons k rest ih =>
    unfold Session.answers TableStore.answers
    cases hk : k.check with
    | error e =>
      rw [TableCall.run_of_refused hcheck hk]
      exact congrArg _ (ih h hcheck)
    | ok _ =>
      obtain ⟨b', hacts, htables⟩ := TableCall.acts (b := s.bench) (Session.healthy_rest.2 h) hk
      obtain ⟨t, hrun, hrest, hbench⟩ := hacts s rfl rfl
      have hhealthy : t.Healthy := Session.healthy_rest.1 (hrest ▸ Session.healthy_rest.2 h)
      have hon : t.rangeCheck = true := by
        rw [← t.rangeCheck_rest, hrest, s.rangeCheck_rest, hcheck]
      rw [s.tables_bench] at hrun htables
      rw [← hbench, t.tables_bench] at htables
      rw [hrun, ← htables]
      exact congrArg _ (ih hhealthy hon)

/-- A write, a table staged, the passthru bits of all channels, a read of what was written, and a
read that would run past the end. What was written is read back, and the last read is refused. -/
theorem answers_mixedCalls :
    (Session.start Chip.initial default).answers [
        .write .tx2 ⟨3⟩ .bank1 [1, 2, 3, 4],
        .stageTable 5 [9, 9, 9, 9],
        .setPassthru ⟨0x0F⟩ true,
        .read .tx2 ⟨3⟩ .bank1 ⟨4, by decide⟩,
        .read .tx2 ⟨3⟩ .bank3 ⟨1025, by decide⟩] =
      [.ok [], .ok [], .ok [], .ok [1, 2, 3, 4],
        .error (.invalid "lutDataSize" "1025"
          "Bank3 access would end at byte 4097, past the 4096-byte LUT")] := by
  rw [Session.answers_eq_answers_tables ⟨rfl, by decide⟩ rfl]
  have hread (m : TableStore) : (m.write .tx2 ⟨3⟩ .bank1 [1, 2, 3, 4]).read .tx2 ⟨3⟩ .bank1 4 =
      [1, 2, 3, 4] := m.read_write_self .tx2 ⟨3⟩ .bank1 [1, 2, 3, 4]
  simp only [TableStore.answers, TableCall.check, TableStore.after, TableStore.answer, hread]
  rfl

end Predistortion
