import Predistortion.Proofs.TableStore

/-!
# Writes in swap mode

Entries that stand next to each other write to the same table: an entry writes to its own table in
the first pass, and to the table of the next entry in the second. Nothing is lost by this. The
writes of a set are its `Placement`s, in their order, and no two of them meet
(`SwapSet.pairwise_placements`): two of one pass go to different tables, and what the first pass
puts at the active bank ends before the holding bank. So in the end each of them is found where it
was put (`TableStore.read_writeAll`), and every other byte is what it was
(`TableStore.byteAt_writeAll`).

Main statement: what a write of a set that succeeds leaves behind (`Session.landed_writeSwapSet`,
with `SwapSet.Landed`): the payloads at both places, the other bytes of the tables, the transfers
that were made, and the registers and the clock of the channel.
-/

namespace Predistortion

open SessionM

/-! ## Placements -/

/-- Data that is put into a table of a channel, from the start of a bank on. -/
structure Placement where
  /-- The table. -/
  table : Table
  /-- The bank. -/
  bank : Bank
  /-- The data. -/
  data : Bytes
deriving DecidableEq

namespace Placement

/-- The first position. -/
def start (p : Placement) : Nat := p.bank.index * Table.bankBytes

/-- The placement covers a position of a table. -/
def Covers (p : Placement) (t : Table) (i : Nat) : Prop :=
  p.table = t ∧ p.start ≤ i ∧ i < p.start + p.data.length

/-- The placements have no position in common. -/
def Apart (p q : Placement) : Prop :=
  p.table = q.table → p.start + p.data.length ≤ q.start ∨ q.start + q.data.length ≤ p.start

/-- The transfer that puts a placement into the tables of a channel. -/
def transfer (c : Channel) (p : Placement) : UInt32 × Bytes :=
  (Table.address c p.table p.bank, p.data)

end Placement

namespace TableStore

variable {m : TableStore} {c : Channel} {p q : Placement} {l : List Placement}

/-- The store with placements put into the tables of a channel, one after the other. -/
def writeAll (m : TableStore) (c : Channel) (l : List Placement) : TableStore :=
  l.foldl (fun m p => m.write c p.table p.bank p.data) m

/-- Without placements the store is as it was. -/
theorem writeAll_nil : m.writeAll c [] = m := rfl

/-- The first placement is written before the others. -/
theorem writeAll_cons :
    m.writeAll c (p :: l) = (m.write c p.table p.bank p.data).writeAll c l := rfl

/-- To write some placements and then some more is to write all of them in turn. -/
theorem writeAll_append (l' : List Placement) :
    m.writeAll c (l ++ l') = (m.writeAll c l).writeAll c l' := List.foldl_append

/-- To write a placement changes no byte that it does not cover. -/
theorem byteAt_write (m : TableStore) (c : Channel) (p : Placement) {d : Channel} {t : Table}
    {i : Nat}
    (h : ¬(d = c ∧ p.Covers t i)) :
    (m.write c p.table p.bank p.data d t).byteAt i = (m d t).byteAt i := by
  by_cases hmeant : d = c ∧ t = p.table
  · obtain ⟨rfl, rfl⟩ := hmeant
    rw [write_self, Bytes.byteAt_overwrite, if_neg]
    exact fun hreached => h ⟨rfl, rfl, hreached⟩
  · rw [write_of_ne _ _ _ _ _ hmeant]

/-- A byte that no placement covers is what it was, by one step for each placement. -/
theorem byteAt_writeAll {d : Channel} {t : Table} {i : Nat}
    (h : ¬(d = c ∧ ∃ p ∈ l, p.Covers t i)) :
    (m.writeAll c l d t).byteAt i = (m d t).byteAt i := by
  induction l generalizing m with
  | nil => rfl
  | cons p rest ih =>
    have hhead : ¬(d = c ∧ p.Covers t i) := fun hp => h ⟨hp.1, p, List.mem_cons_self .., hp.2⟩
    have hrest : ¬(d = c ∧ ∃ q ∈ rest, q.Covers t i) := by
      rintro ⟨hd, q, hq, hcovers⟩
      exact h ⟨hd, q, List.mem_cons_of_mem _ hq, hcovers⟩
    exact (ih hrest).trans (byteAt_write m c p hhead)

/-- A table that no placement is for is what it was, and not only byte by byte. By induction over
the placements. -/
theorem writeAll_of_ne {d : Channel} {t : Table} (h : ∀ p ∈ l, p.table ≠ t) :
    m.writeAll c l d t = m d t := by
  induction l generalizing m with
  | nil => rfl
  | cons p rest ih =>
    rw [List.forall_mem_cons] at h
    exact (ih h.2).trans (write_of_ne _ _ _ _ _ fun hmeant => h.1 hmeant.2.symm)

/-- What is read at a placement does not see placements apart from it, whichever table they are for.
The reading is compared byte by byte. -/
theorem read_writeAll_of_apart (h : ∀ q ∈ l, p.Apart q) :
    (m.writeAll c l).read c p.table p.bank p.data.length =
      m.read c p.table p.bank p.data.length := by
  refine Bytes.ext_byteAt (by simp) fun i hi => ?_
  rw [length_read] at hi
  rw [byteAt_read _ _ _ _ hi, byteAt_read _ _ _ _ hi]
  apply byteAt_writeAll
  rintro ⟨-, q, hq, htable, hle, hlt⟩
  have hapart := h q hq htable.symm
  unfold Placement.start at hapart hle hlt
  omega

/-- Placements that are apart from each other are all found where they were put. By induction, since
the later ones do not reach the first. -/
theorem read_writeAll (h : l.Pairwise Placement.Apart) (hp : p ∈ l) :
    (m.writeAll c l).read c p.table p.bank p.data.length = p.data := by
  induction l generalizing m with
  | nil => cases hp
  | cons q rest ih =>
    rw [List.pairwise_cons] at h
    rcases List.mem_cons.1 hp with rfl | hrest
    · exact (read_writeAll_of_apart h.1).trans (read_write_self _ _ _ _ _)
    · exact ih h.2 hrest

end TableStore

/-! ## The placements of a set -/

namespace SwapSet

variable {set : SwapSet} {compander : Compander} {bank : Bank}

/-- The placement of a payload in the first pass. -/
def activePlacement (bank : Bank) (p : Fin writtenCount × Bytes) : Placement :=
  ⟨activeTable p.1, bank, p.2⟩

/-- The placement of a payload in the second pass. -/
def heldPlacement (compander : Compander) (p : Fin writtenCount × Bytes) : Placement :=
  ⟨heldTable p.1, compander.holdingBank, p.2⟩

/-- The placements of a set: one pass by descending entry, then the other by descending entry. -/
def placements (set : SwapSet) (compander : Compander) (bank : Bank) : List Placement :=
  set.payloads.map (activePlacement bank) ++ set.payloads.map (heldPlacement compander)

/-- Different entries write to different tables in the first pass. -/
theorem activeTable_inj {n n' : Fin writtenCount} (h : activeTable n = activeTable n') :
    n = n' := by
  have hval := congrArg (fun t => t.index.val) h
  exact Fin.ext hval

/-- Different entries write to different tables in the second pass too. -/
theorem heldTable_inj {n n' : Fin writtenCount} (h : heldTable n = heldTable n') : n = n' := by
  have hval := congrArg (fun t => t.index.val) h
  exact Fin.ext (Nat.succ.inj hval)

/-- A placement of a set is one of the first or of the second pass, and belongs to one of the
payloads. -/
theorem mem_placements {p : Placement} : p ∈ set.placements compander bank ↔
    ∃ x ∈ set.payloads, p = activePlacement bank x ∨ p = heldPlacement compander x := by
  unfold placements
  simp only [List.mem_append, List.mem_map]
  constructor
  · rintro (⟨x, hx, rfl⟩ | ⟨x, hx, rfl⟩)
    · exact ⟨x, hx, .inl rfl⟩
    · exact ⟨x, hx, .inr rfl⟩
  · rintro ⟨x, hx, rfl | rfl⟩
    · exact .inl ⟨x, hx, rfl⟩
    · exact .inr ⟨x, hx, rfl⟩

/-- The last table is left over for parking. The second pass goes one table further than the first
and does not reach it. -/
theorem table_ne_park {p : Placement} (hp : p ∈ set.placements compander bank) :
    p.table ≠ Table.park := by
  obtain ⟨⟨n, data⟩, -, hp⟩ := mem_placements.1 hp
  have hn : n.val < 30 := n.isLt
  intro heq
  have hval := congrArg (fun t => t.index.val) heq
  rcases hp with rfl | rfl
  · have hactive : n.val = 31 := hval
    omega
  · have hheld : n.val + 1 = 31 := hval
    omega

/-- Each placement of a set that is accepted is accepted by itself, at the bank where its pass puts
it. -/
theorem checkAccess_placements (h : set.check compander bank = .ok ()) {p : Placement}
    (hp : p ∈ set.placements compander bank) :
    Table.checkAccess p.bank p.data.machineLength = .ok () := by
  obtain ⟨x, hx, rfl | rfl⟩ := mem_placements.1 hp
  · exact (checkAccess_of_check h hx).1
  · exact (checkAccess_of_check h hx).2

/-- No two placements of a set that is accepted meet. Those of one pass are for different tables,
and the first pass stays below the bank that the second one fills. -/
theorem pairwise_placements (h : set.check compander bank = .ok ()) :
    (set.placements compander bank).Pairwise Placement.Apart := by
  obtain ⟨hactive, -, hlengths⟩ := check_eq_ok.1 h
  have hend := Compander.active_end_le hactive
  unfold placements
  rw [List.pairwise_append, List.pairwise_map, List.pairwise_map]
  refine ⟨set.pairwise_payloads.imp fun hlt heq => ?_,
    set.pairwise_payloads.imp fun hlt heq => ?_, ?_⟩
  · exact absurd (activeTable_inj heq) (Fin.ne_of_gt hlt)
  · exact absurd (heldTable_inj heq) (Fin.ne_of_gt hlt)
  · -- the first pass stays below the holding bank
    intro p hp q hq _
    obtain ⟨x, hx, rfl⟩ := List.mem_map.1 hp
    obtain ⟨y, -, rfl⟩ := List.mem_map.1 hq
    have hlength := hlengths x hx
    left
    unfold Placement.start activePlacement heldPlacement
    dsimp only
    omega

end SwapSet

/-! ## A pass -/

namespace Bench

variable (b : Bench) (c : Channel) (restorePower : Bool) (l : List Placement)

/-- The bench after a placement is written in swap mode. -/
def place (p : Placement) : Bench := b.written c p.table p.bank p.data restorePower true

/-- The bench after a pass in swap mode: the placements are written one after the other, and memory
accesses are parked. -/
def pass : Bench :=
  (l.foldl (fun b p => b.place c restorePower p) b).setBits (.mode c) ramSelectMask
    Table.park.raw.toUInt32

/-- A pass writes its placements into the tables of the channel, and parking touches no table. Each
placement has to be inside its table, which the check of the set ensures. -/
theorem tables_pass (h : ∀ p ∈ l, Table.checkAccess p.bank p.data.machineLength = .ok ()) :
    (b.pass c restorePower l).tables = b.tables.writeAll c l := by
  unfold pass
  rw [tables_setBits]
  induction l generalizing b with
  | nil => rw [List.foldl_nil, TableStore.writeAll_nil]
  | cons p rest ih =>
    rw [List.forall_mem_cons] at h
    have hinside := (Table.checkAccess_machineLength.1 h.1).2
    rw [List.foldl_cons, ih _ h.2, place, b.tables_written _ _ hinside, TableStore.writeAll_cons]

/-- A pass makes one transfer for each placement. The newest stand first, as in the list that they
are added to. -/
theorem transfers_pass :
    (b.pass c restorePower l).transfers =
      (l.map (Placement.transfer c)).reverse ++ b.transfers := by
  unfold pass
  rw [transfers_setBits]
  induction l generalizing b with
  | nil => rfl
  | cons p rest ih =>
    have hplace : (b.place c restorePower p).transfers = p.transfer c :: b.transfers := by
      cases restorePower <;> rfl
    rw [List.foldl_cons, ih, hplace, List.map_cons, List.reverse_cons, List.append_assoc]
    rfl

/-- A pass leaves the configuration of every channel alone. What each write changed of it is put
back, so it is an invariant of the loop. -/
theorem config_pass (d : Channel) :
    (b.pass c restorePower l).words (.config d) = b.words (.config d) := by
  unfold pass
  rw [words_setBits, if_neg (by simp)]
  induction l generalizing b with
  | nil => rfl
  | cons p rest ih =>
    rw [List.foldl_cons, ih]
    cases restorePower <;> simp [place, written, words_setBits]

/-- After a pass memory accesses are parked on the last table, whatever table they pointed at
before. -/
theorem ofMode_pass : Table.ofMode ((b.pass c restorePower l).words (.mode c)) = Table.park := by
  unfold pass
  rw [words_setBits, if_pos rfl, ofMode_withBits]

/-- A pass that writes anything stops the clock, and one that writes nothing leaves it. By induction
over the placements. -/
theorem clock_pass (h : l ≠ [] ∨ b.clock c = false) :
    (b.pass c restorePower l).clock c = false := by
  unfold pass
  rw [clock_setBits]
  induction l generalizing b with
  | nil => exact h.resolve_left fun hne => hne rfl
  | cons p rest ih =>
    refine ih _ (.inr ?_)
    unfold place written
    rw [clock_setClock, Function.update_self]

end Bench

/-! ## Writing a set -/

/-- The model that the firmware keeps for a channel. -/
def Chip.model (chip : Chip) (c : Channel) : Except Error Model :=
  Model.decode ((chip.object Object.model).window (Model.offset c).toNat Model.recordLength)

/-- The check of swap mode is passed exactly if it is on. -/
theorem Session.requireSwapMode_eq_ok {on : Bool} : requireSwapMode on = .ok () ↔ on = true := by
  cases on <;> simp [requireSwapMode]

section acts

variable {r : Session} {b : Bench} (h : r.Healthy) {c : Channel} {bank : Bank} {set : SwapSet}

include h

/-- Payloads are written in swap mode, each at its place. One statement for both passes, which
differ in the place only. -/
theorem acts_forM_writeTable {α : Type} (place : α → Placement) {l : List α}
    (hswap : r.swapOn = true)
    (haccess : ∀ x ∈ l, Table.checkAccess (place x).bank (place x).data.machineLength = .ok ()) :
    Acts (l.forM fun x => Session.writeTable c (place x).table (place x).bank (place x).data) r b ()
      ((l.map place).foldl (fun b p => b.place c r.settings.tables.restorePower p) b) := by
  rw [List.foldl_map]
  refine .forM fun x hx b => ?_
  have hwrite := acts_writeTable h (b := b) c (place x).table _ _ (haccess x hx)
  rw [hswap] at hwrite
  exact hwrite

/-- The model of a channel is read. -/
theorem acts_model {m : Model} (hmodel : r.chip.model c = .ok m) : Acts (Session.model c) r b m b :=
  (acts_objectRead h.faults Object.model (Model.offset c) Model.recordLength).bind
    (.ofExcept hmodel)

/-- A set that passes its checks is written in two passes, whether or not the checks are made. The
first pass goes to the bank that is asked for, and the second one to the holding bank. -/
theorem acts_writeSwapSet {m : Model} (hmodel : r.chip.model c = .ok m) (hswap : r.swapOn = true)
    (hset : set.check m.compander bank = .ok ()) :
    Acts (Session.writeSwapSet c bank set) r b ()
      ((b.pass c r.settings.tables.restorePower
        (set.payloads.map (SwapSet.activePlacement bank))).pass c r.settings.tables.restorePower
        (set.payloads.map (SwapSet.heldPlacement m.compander))) := by
  have hactive := acts_forM_writeTable h (b := b) (c := c) (SwapSet.activePlacement bank) hswap
    fun x hx => (SwapSet.checkAccess_of_check hset hx).1
  have hheld (b : Bench) := acts_forM_writeTable h (b := b) (c := c)
    (SwapSet.heldPlacement m.compander) hswap fun x hx => (SwapSet.checkAccess_of_check hset hx).2
  have hmode := Session.requireSwapMode_eq_ok.2 hswap
  unfold Session.writeSwapSet
  refine (acts_model h hmodel).bind (.get_bind fun s _ _ => ?_)
  have hpasses : Acts (do
      set.payloads.forM fun p => Session.writeTable c (SwapSet.activeTable p.1) bank p.2
      Session.setRamSelect c Table.park
      set.payloads.forM fun p =>
        Session.writeTable c (SwapSet.heldTable p.1) m.compander.holdingBank p.2
      Session.setRamSelect c Table.park) r b () _ :=
    .bind hactive (.bind (acts_setRamSelect h.faults c Table.park)
      (.bind (hheld _) (acts_setRamSelect h.faults c Table.park)))
  split
  · exact (acts_isSwapMode h.faults).bind
      ((Acts.ofExcept hmode).bind ((Acts.ofExcept hset).bind hpasses))
  · exact hpasses

end acts

namespace Session

variable {s t : Session} {c : Channel} {bank : Bank} {set : SwapSet}

/-- A model that was read is the one that the firmware keeps, and reading it left the rest of the
session. -/
theorem eq_ok_of_model {m : Model} (h : s.Healthy) (hrun : Session.model c s = .ok m t) :
    s.chip.model c = .ok m ∧ t.rest = s.rest := by
  obtain ⟨record, u, hread, hdecode⟩ := exists_ok_of_bind hrun
  obtain ⟨hm, rfl⟩ := eq_ok_of_ofExcept hdecode
  obtain ⟨rfl, hrest, -⟩ := (acts_objectRead (healthy_rest.2 h).faults _ _ _).of_run hread
  exact ⟨hm, hrest⟩

/-- A set that was written passed its checks: swap mode is on, and the set fits the compander of the
model. -/
theorem exists_model_of_writeSwapSet (h : s.Healthy) (hcheck : s.rangeCheck = true)
    (hrun : Session.writeSwapSet c bank set s = .ok () t) :
    ∃ m, s.chip.model c = .ok m ∧ s.swapOn = true ∧ set.check m.compander bank = .ok () := by
  obtain ⟨m, u, hmodel, hguarded⟩ := exists_ok_of_bind hrun
  obtain ⟨hm, hrest⟩ := eq_ok_of_model h hmodel
  have hon : u.rangeCheck = true := by rw [← u.rangeCheck_rest, hrest, s.rangeCheck_rest, hcheck]
  have hhealthy : u.rest.Healthy := hrest ▸ healthy_rest.2 h
  obtain ⟨_, _, hget, hchecks⟩ := exists_ok_of_bind hguarded
  cases hget
  rw [if_pos hon] at hchecks
  -- swap mode first, then the set
  obtain ⟨on, v, hmode, hrequired⟩ := exists_ok_of_bind hchecks
  obtain ⟨rfl, -, -⟩ := (acts_isSwapMode hhealthy.faults).of_run hmode
  obtain ⟨_, _, hswap, hchecked⟩ := exists_ok_of_bind hrequired
  obtain ⟨_, _, hset, -⟩ := exists_ok_of_bind hchecked
  refine ⟨m, hm, ?_, (eq_ok_of_ofExcept hset).1⟩
  have hswapped := requireSwapMode_eq_ok.1 (eq_ok_of_ofExcept hswap).1
  rw [hrest] at hswapped
  exact hswapped

end Session

/-- The runs of bytes that were written with ascending addresses, oldest first. -/
def Chip.transfers (chip : Chip) : List (UInt32 × Bytes) :=
  (chip.journal.filterMap Request.transfer?).reverse

/-- What a write of a set in swap mode comes to, from one session to another. -/
structure SwapSet.Landed (set : SwapSet) (c : Channel) (bank : Bank) (compander : Compander)
    (s t : Session) : Prop where
  /-- Each payload lies in the table of its entry, at the active bank. -/
  active : ∀ (n : Fin writtenCount) (data : Bytes), set.get? n.val = some data →
    t.chip.tables.read c (activeTable n) bank data.length = data
  /-- Each payload lies in the table after that of its entry, at the holding bank. -/
  held : ∀ (n : Fin writtenCount) (data : Bytes), set.get? n.val = some data →
    t.chip.tables.read c (heldTable n) compander.holdingBank data.length = data
  /-- No other byte of any table has changed. -/
  elsewhere : ∀ (d : Channel) (u : Table) (i : Nat),
    ¬(d = c ∧ ∃ p ∈ set.placements compander bank, p.Covers u i) →
      (t.chip.tables d u).byteAt i = (s.chip.tables d u).byteAt i
  /-- The last table of each channel is what it was. -/
  lastTable : ∀ d : Channel, t.chip.tables d Table.park = s.chip.tables d Table.park
  /-- The payloads are those of the set, by descending entry. -/
  order : (∀ (n : Fin writtenCount) (data : Bytes),
      (n, data) ∈ set.payloads ↔ set.get? n.val = some data) ∧
    set.payloads.Pairwise fun p q => q.1 < p.1
  /-- The transfers are those of the first pass and then those of the second, each in this order. -/
  transfers : t.chip.transfers = s.chip.transfers ++
    (set.payloads.map (fun p => (Table.address c (activeTable p.1) bank, p.2)) ++
      set.payloads.map fun p => (Table.address c (heldTable p.1) compander.holdingBank, p.2))
  /-- Memory accesses are parked on the last table. -/
  parked : Table.ofMode (t.chip.memory.word c.block.mode) = Table.park
  /-- The configuration of the channel is what it was. -/
  config : t.chip.memory.word c.block.config = s.chip.memory.word c.block.config
  /-- If there was anything to write, the clock of the channel is stopped. -/
  clock : set.payloads ≠ [] → (t.chip.channel c).clock = false

/-- A write of a set in swap mode that succeeds leaves every payload at both of its places, although
the places of neighbours share a table, and changes nothing else of any table. -/
theorem Session.landed_writeSwapSet {s t : Session} {c : Channel} {bank : Bank} {set : SwapSet}
    (h : s.Healthy) (hcheck : s.rangeCheck = true)
    (hrun : Session.writeSwapSet c bank set s = .ok () t) :
    ∃ m, s.chip.model c = .ok m ∧ set.Landed c bank m.compander s t := by
  obtain ⟨m, hmodel, hswap, hset⟩ := Session.exists_model_of_writeSwapSet h hcheck hrun
  have hacts := acts_writeSwapSet (b := s.bench) (Session.healthy_rest.2 h) hmodel hswap hset
  obtain ⟨-, -, hbench⟩ := hacts.of_run hrun
  have haccess (p : Placement) (hp : p ∈ set.placements m.compander bank) :=
    SwapSet.checkAccess_placements hset hp
  have htables : t.chip.tables = s.chip.tables.writeAll c (set.placements m.compander bank) := by
    unfold SwapSet.placements at haccess ⊢
    rw [List.forall_mem_append] at haccess
    rw [← t.tables_bench, ← s.tables_bench, hbench, Bench.tables_pass _ _ _ _ haccess.2,
      Bench.tables_pass _ _ _ _ haccess.1, TableStore.writeAll_append]
  have hplaced (p : Placement) (hp : p ∈ set.placements m.compander bank) :
      t.chip.tables.read c p.table p.bank p.data.length = p.data := by
    rw [htables]
    exact TableStore.read_writeAll (SwapSet.pairwise_placements hset) hp
  refine ⟨m, hmodel, ?_⟩
  constructor
  case active =>
    intro n data hdata
    exact hplaced (SwapSet.activePlacement bank (n, data))
      (SwapSet.mem_placements.2 ⟨_, SwapSet.mem_payloads.2 hdata, .inl rfl⟩)
  case held =>
    intro n data hdata
    exact hplaced (SwapSet.heldPlacement m.compander (n, data))
      (SwapSet.mem_placements.2 ⟨_, SwapSet.mem_payloads.2 hdata, .inr rfl⟩)
  case elsewhere =>
    intro d u i hnot
    rw [htables]
    exact TableStore.byteAt_writeAll hnot
  case lastTable =>
    intro d
    rw [htables]
    exact TableStore.writeAll_of_ne fun p hp => SwapSet.table_ne_park hp
  case order => exact ⟨fun _ _ => SwapSet.mem_payloads, set.pairwise_payloads⟩
  case transfers =>
    have htransfers := congrArg Bench.transfers hbench
    rw [Bench.transfers_pass, Bench.transfers_pass, List.map_map, List.map_map] at htransfers
    have hreversed := congrArg List.reverse htransfers
    simp only [List.reverse_append, List.reverse_reverse, List.append_assoc] at hreversed
    exact hreversed
  case parked =>
    have hmode := congrArg (fun b => Table.ofMode (b.words (.mode c))) hbench
    exact hmode.trans (Bench.ofMode_pass _ _ _ _)
  case config =>
    have hconfig := congrArg (fun b => b.words (.config c)) hbench
    rw [Bench.config_pass, Bench.config_pass] at hconfig
    exact hconfig
  case clock =>
    intro hne
    have hclock := congrArg (fun b => b.clock c) hbench
    exact hclock.trans (Bench.clock_pass _ _ _ _ (.inl (by simpa using hne)))

/-- A session in swap mode. -/
def swapSession : Session := { Session.start Chip.initial default with swapMode := true }

/-- Payloads for two entries that stand next to each other. -/
def neighbours : SwapSet :=
  ⟨((Vector.replicate 31 none).set 4 (some [1, 2, 3, 4])).set 5 (some [5, 6, 7, 8])⟩

/-- The table of the second entry holds both payloads, each at its bank: its own from the first
pass, and that of the entry before from the second. -/
theorem landed_writeSwapSet_neighbours :
    ∃ t, Session.writeSwapSet .tx1 .bank0 neighbours swapSession = .ok () t ∧
      t.chip.tables.read .tx1 ⟨5⟩ .bank0 4 = [5, 6, 7, 8] ∧
      t.chip.tables.read .tx1 ⟨5⟩ .bank3 4 = [1, 2, 3, 4] := by
  have hhealthy : swapSession.Healthy := ⟨rfl, by decide⟩
  have hmodel : swapSession.chip.model .tx1 = .ok Model.blank := by
    have hobject : swapSession.chip.object Object.model = [] := Std.HashMap.getD_empty
    unfold Chip.model
    rw [hobject]
    rfl
  have hset : neighbours.check Model.blank.compander .bank0 = .ok () := by rfl
  obtain ⟨t, hrun, -⟩ := acts_writeSwapSet (Session.healthy_rest.2 hhealthy) hmodel rfl hset
    swapSession rfl rfl
  obtain ⟨m, hm, hlanded⟩ := Session.landed_writeSwapSet hhealthy rfl hrun
  rw [hmodel] at hm
  cases hm
  have hactive := hlanded.active 5 [5, 6, 7, 8] rfl
  have hheld := hlanded.held 4 [1, 2, 3, 4] rfl
  have hsame : SwapSet.activeTable 5 = ⟨5⟩ ∧ SwapSet.heldTable 4 = ⟨5⟩ := by decide
  rw [hsame.1] at hactive
  rw [hsame.2] at hheld
  exact ⟨t, hrun, hactive, hheld⟩

end Predistortion
