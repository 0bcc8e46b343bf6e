import Predistortion.Proofs.Healthy
import Predistortion.Proofs.MemoryMap
import Mathlib.Logic.Function.Basic

/-!
# The bench

Accesses to tables read and write registers, move data and switch clocks. All that they work on is
the `Bench` of a session: a word for each register, a byte for each address that belongs to no
register, the clocks, and the transfers that were made. What they leave alone is the `rest` of the
session.

`Acts m r b a b'` says what a computation does in these terms: in every session with rest `r` and
bench `b` it succeeds with the answer `a`, leaves the bench `b'`, and leaves the rest alone. Such
statements compose along the text of a program (`Acts.bind`). That the parts of a bench do not touch
one another is proved once, here, from the map of the memory: a register is written by
`acts_writeWord`, data is written by `acts_transfer`, and a clock is switched by `acts_setClock`.
-/

namespace Predistortion

open SessionM

variable {α β : Type}

/-! ## The bench of a session -/

/-- What accesses to tables work on. -/
@[ext] structure Bench where
  /-- The word of each register. -/
  words : ActuatorRegister → UInt32
  /-- The byte at each address that belongs to no register. -/
  content : UInt32 → UInt8
  /-- The clock of each channel runs. -/
  clock : Channel → Bool
  /-- The runs of bytes that were written with ascending addresses, newest first. -/
  transfers : List (UInt32 × Bytes)

namespace Bench

/-- The bench with some bits of a register replaced. -/
def setBits (b : Bench) (register : ActuatorRegister) (mask value : UInt32) : Bench :=
  { b with
    words := Function.update b.words register (withBits (b.words register) mask value) }

/-- The bench with a clock switched. -/
def setClock (b : Bench) (c : Channel) (on : Bool) : Bench :=
  { b with clock := Function.update b.clock c on }

/-- The content with a run of bytes put at an address. -/
def putRun (content : UInt32 → UInt8) (address : UInt32) (data : Bytes) (a : UInt32) : UInt8 :=
  if address.toNat ≤ a.toNat ∧ a.toNat < address.toNat + data.length then
    data.byteAt (a.toNat - address.toNat)
  else content a

/-- The bench after a transfer. -/
def transfer (b : Bench) (address : UInt32) (data : Bytes) : Bench :=
  { b with
    content := putRun b.content address data
    transfers := (address, data) :: b.transfers }

section fields

variable (b : Bench) (register : ActuatorRegister) (mask value : UInt32) (c : Channel) (on : Bool)
  (address : UInt32) (data : Bytes)

/-- Bits that are replaced show in their own register and in no other one. -/
theorem words_setBits (q : ActuatorRegister) : (b.setBits register mask value).words q =
    if q = register then withBits (b.words register) mask value else b.words q :=
  Function.update_apply ..

/-- To write a register does not switch a clock. -/
@[simp] theorem clock_setBits : (b.setBits register mask value).clock = b.clock := rfl

/-- To write a register is no transfer. -/
@[simp] theorem transfers_setBits : (b.setBits register mask value).transfers = b.transfers := rfl

/-- To switch a clock leaves the registers. -/
@[simp] theorem words_setClock : (b.setClock c on).words = b.words := rfl

/-- The clock of the channel is as it was switched, and the others are as they were. -/
theorem clock_setClock : (b.setClock c on).clock = Function.update b.clock c on := rfl

/-- A transfer leaves the registers, because what it writes to belongs to none of them. -/
@[simp] theorem words_transfer : (b.transfer address data).words = b.words := rfl

/-- After a transfer the data lie at its address, one byte after the other. -/
theorem content_transfer : (b.transfer address data).content = putRun b.content address data := rfl

end fields

end Bench

/-- What a request writes with ascending addresses. -/
def Request.transfer? : Request → Option (UInt32 × Bytes)
  | .bulkWrite address data true => some (address, data)
  | _ => none

/-- The channels with their clocks left open. -/
def PerChannel.clockless (t : PerChannel ChannelState) : PerChannel ChannelState where
  tx1 := { t.tx1 with clock := false }
  tx2 := { t.tx2 with clock := false }
  tx3 := { t.tx3 with clock := false }
  tx4 := { t.tx4 with clock := false }

namespace Session

/-- The bench of a session. -/
def bench (s : Session) : Bench where
  words r := s.chip.memory.word r.address
  content a := if ActuatorRegister.Covers a then 0 else s.chip.memory.read a
  clock c := (s.chip.channel c).clock
  transfers := s.chip.journal.filterMap Request.transfer?

/-- The session without what accesses to tables work on: its bench, the serial registers that gate
the clocks, and the lists of calls and of transactions. -/
def rest (s : Session) : Session :=
  { s with chip := { s.chip with
      memory := .blank
      registers := ∅
      channels := s.chip.channels.clockless
      calls := []
      journal := [] } }

/-- No fault is injected, and the clocks are looked at. -/
structure Healthy (s : Session) : Prop where
  /-- There are no faults. -/
  faults : s.chip.faults = []
  /-- A clock is looked at once at least. -/
  attempts : s.settings.clock.attempts ≠ 0

/-! The settings, the memory of swap mode and the faults are part of the rest. -/

/-- The settings are no part of the bench. -/
@[simp] theorem settings_rest (s : Session) : s.rest.settings = s.settings := rfl

/-- Whether arguments are checked is no part of the bench. -/
@[simp] theorem rangeCheck_rest (s : Session) : s.rest.rangeCheck = s.rangeCheck := rfl

/-- The mode that the session remembers is no part of the bench. -/
@[simp] theorem swapMode_rest (s : Session) : s.rest.swapMode = s.swapMode := rfl

/-- The faults are no part of the bench. -/
@[simp] theorem faults_rest (s : Session) : s.rest.chip.faults = s.chip.faults := rfl

/-- What leaves the rest alone injects no fault and clears none. -/
theorem faults_of_rest {s t : Session} (h : t.rest = s.rest) : t.chip.faults = s.chip.faults := by
  rw [← t.faults_rest, h, s.faults_rest]

/-- A session is healthy exactly if its rest is, so what leaves the rest alone keeps a session
healthy. -/
theorem healthy_rest {s : Session} : s.rest.Healthy ↔ s.Healthy :=
  ⟨fun h => ⟨h.faults, h.attempts⟩, fun h => ⟨h.faults, h.attempts⟩⟩

/-- What lies above the registers is content. So a run of bytes that starts there is read from the
content alone. -/
theorem readRun_eq_content (s : Session) {address : UInt32} {length : Nat}
    (hlow : 0x60000000 ≤ address.toNat) (hfits : address.toNat + length ≤ 0x100000000) :
    s.chip.memory.readRun address length = runAt s.bench.content address length := by
  rw [← Memory.runAt_read]
  apply runAt_congr
  intro i hi
  have hplace := Memory.toNat_add_ofNat (show address.toNat + i < 0x100000000 by omega)
  exact (if_neg (ActuatorRegister.not_covers_of_le (by omega))).symm

end Session

/-! ## Computations on a bench -/

/-- In every session with this rest and bench, the computation succeeds with the answer, leaves the
new bench, and leaves the rest alone. -/
def Acts (m : SessionM α) (r : Session) (b : Bench) (a : α) (b' : Bench) : Prop :=
  ∀ s : Session, s.rest = r → s.bench = b → ∃ t, m s = .ok a t ∧ t.rest = r ∧ t.bench = b'

namespace Acts

variable {r : Session} {b b' b'' : Bench} {a : α} {a' : β}

/-- To answer leaves bench and rest. -/
theorem pure (a : α) : Acts (pure a) r b a b := fun s hr hb => ⟨s, rfl, hr, hb⟩

/-- Two computations in turn lead from the first bench to the last. The rest stays the same
throughout, which is why it is written once. -/
theorem bind {m : SessionM α} {k : α → SessionM β} (hm : Acts m r b a b')
    (hk : Acts (k a) r b' a' b'') : Acts (m >>= k) r b a' b'' := by
  intro s hr hb
  obtain ⟨t, hrun, hrt, hbt⟩ := hm s hr hb
  obtain ⟨u, hrun', hru, hbu⟩ := hk t hrt hbt
  refine ⟨u, ?_, hru, hbu⟩
  simp only [Bind.bind, EStateM.bind, hrun, hrun']

/-- An answer and a bench in another form. The rules give them as the program text builds them up,
and a statement has them as they are meant. -/
theorem congr {m : SessionM α} {a a' : α} (hm : Acts m r b a b') (ha : a = a') (hb : b' = b'') :
    Acts m r b a' b'' := by
  rw [← ha, ← hb]
  exact hm

/-- What is done with the session itself has to be known for every session of this rest and
bench. -/
theorem get_bind {k : Session → SessionM α}
    (hk : ∀ s : Session, s.rest = r → s.bench = b → Acts (k s) r b a b') :
    Acts (get >>= k) r b a b' := fun s hr hb => hk s hr hb s hr hb

/-- What was found beforehand is answered, and nothing is done to the bench. -/
theorem ofExcept {x : Except Error α} (h : x = .ok a) : Acts (ofExcept x) r b a b := by
  rw [h]
  exact pure a

/-- A check that passes wherever arguments are checked does nothing to bench and rest. Where they
are not checked it does nothing anyway. -/
theorem checked {check : Except Error Unit} (h : r.rangeCheck = true → check = .ok ()) :
    Acts (checked check) r b () b := by
  refine get_bind fun s hr _ => ?_
  have hcheck : s.rangeCheck = r.rangeCheck := by rw [← hr, s.rangeCheck_rest]
  split
  · next hon => exact ofExcept (h (hcheck.symm.trans hon))
  · exact pure ()

/-- A run over a list moves the bench by one step after the other, so that a loop becomes a fold. -/
theorem forM {f : α → SessionM Unit} {l : List α} {step : Bench → α → Bench}
    (h : ∀ x ∈ l, ∀ b, Acts (f x) r b () (step b x)) :
    Acts (l.forM f) r b () (l.foldl step b) := by
  induction l generalizing b with
  | nil => exact pure ()
  | cons x rest ih =>
    rw [List.forall_mem_cons] at h
    exact bind (h.1 b) (ih h.2)

/-- A success is what the computation acts like: the answer, the rest of the session and the bench
are determined. -/
theorem of_run {m : SessionM α} {s t : Session} {x : α} (h : Acts m s.rest s.bench a b')
    (hrun : m s = .ok x t) : x = a ∧ t.rest = s.rest ∧ t.bench = b' := by
  obtain ⟨u, hacts, hr, hb⟩ := h s rfl rfl
  rw [hrun] at hacts
  cases hacts
  exact ⟨rfl, hr, hb⟩

end Acts

/-! ## Requests -/

/-- A session without faults serves its requests. This is where the absence of faults enters
everything below. -/
theorem perform_of_no_faults {q : Request} {s : Session} (h : s.chip.faults = []) :
    perform q s = .ok (s.chip.serve q).1 { s with chip := s.chip.served q } := by
  unfold perform onChip
  rw [Chip.perform_of_not_refusal (Chip.refusal?_of_no_faults h q)]
  rfl

/-- A write to memory leaves the rest alone. -/
theorem Session.rest_bulkWrite (s : Session) (address : UInt32) (data : Bytes) (increment : Bool) :
    { s with chip := s.chip.served (.bulkWrite address data increment) }.rest = s.rest := rfl

/-- A write with ascending addresses is a transfer on the bench; any other one only writes its
bytes. The two differ in the list of transfers alone. -/
theorem Session.bench_bulkWrite (s : Session) (address : UInt32) (data : Bytes)
    (increment : Bool) :
    { s with chip := s.chip.served (.bulkWrite address data increment) }.bench = {
      words r := (s.chip.memory.writeRun address data).word r.address
      content a := if ActuatorRegister.Covers a then 0
        else (s.chip.memory.writeRun address data).read a
      clock := s.bench.clock
      transfers := if increment then (address, data) :: s.bench.transfers
        else s.bench.transfers } := by
  cases increment <;> rfl

/-- To start a stream is entered as a call, and all else that it does is what the stream does. -/
theorem Chip.served_streamStart (chip : Chip) (stream : UInt8) :
    chip.served (.streamStart stream) = { chip.runStream stream with
      calls := ⟨.streamStart stream, .ok ()⟩ :: (chip.runStream stream).calls
      journal := .streamStart stream :: (chip.runStream stream).journal } := rfl

/-- To write a serial register leaves all but the registers and the lists alone. -/
theorem Chip.exists_served_registerWrite (chip : Chip) (address : UInt16) (value : UInt8) :
    ∃ registers calls, chip.served (.registerWrite address value) = { chip with
      registers
      calls
      journal := .registerWrite address value :: chip.journal } :=
  ⟨chip.registers.insert address value, _, rfl⟩

/-- To switch a clock comes down to a change of a channel, up to the serial registers and to the
lists of calls and of transactions. -/
theorem Chip.exists_clocked_eq (chip : Chip) (c : Channel) (on : Bool)
    (hstuck : Fault.clockStuck ∉ chip.faults) :
    ∃ registers calls, chip.clocked c on = { chip with
      registers
      calls
      channels := chip.channels.set c { chip.channel c with clock := on }
      journal := .streamStart clockStream ::
        .registerWrite clockActionRegister (if on then clockEnable else clockDisable) ::
        .registerWrite clockChannelRegister c.bit :: chip.journal } := by
  have hrun := chip.runStream_clockNamed c on hstuck
  obtain ⟨registers, calls, hnamed⟩ :=
    chip.exists_served_registerWrite clockChannelRegister c.bit
  unfold Chip.clocked
  rw [Chip.served_of_isRead _ rfl, Chip.served_streamStart, hrun]
  unfold Chip.clockNamed
  rw [hnamed]
  obtain ⟨registers', calls', hready⟩ := Chip.exists_served_registerWrite
    { chip with
      registers
      calls
      journal := .registerWrite clockChannelRegister c.bit :: chip.journal }
    clockActionRegister (if on then clockEnable else clockDisable)
  rw [hready]
  exact ⟨_, _, rfl⟩

section clocked

variable (s : Session) (c : Channel) (on : Bool) (hstuck : Fault.clockStuck ∉ s.chip.faults)

include hstuck

/-- The registers that gate the clocks are left out of the rest, so to switch a clock leaves the
rest. The state of the clock itself is on the bench. -/
theorem Session.rest_clocked : { s with chip := s.chip.clocked c on }.rest = s.rest := by
  obtain ⟨registers, calls, hclocked⟩ := s.chip.exists_clocked_eq c on hstuck
  have hclockless : (s.chip.channels.set c { s.chip.channel c with clock := on }).clockless =
      s.chip.channels.clockless := by
    cases c <;> rfl
  rw [hclocked]
  unfold Session.rest
  dsimp only
  rw [hclockless]

/-- To switch a clock shows at this clock alone. Words and content are those of the memory, which is
not touched. -/
theorem Session.bench_clocked : { s with chip := s.chip.clocked c on }.bench =
    { s.bench with clock := Function.update s.bench.clock c on } := by
  obtain ⟨registers, calls, hclocked⟩ := s.chip.exists_clocked_eq c on hstuck
  rw [hclocked]
  refine Bench.ext rfl rfl ?_ rfl
  funext d
  by_cases hd : d = c
  · dsimp only [Session.bench, Chip.channel]
    rw [hd, Function.update_self, PerChannel.get_set_self]
  · dsimp only [Session.bench, Chip.channel]
    rw [Function.update_of_ne hd, PerChannel.get_set_of_ne _ hd]

end clocked

section requests

variable {r : Session} {b : Bench} (h : r.chip.faults = [])

include h

/-- A request is served. What comes of it has to be known in every session of this rest and
bench. -/
theorem acts_perform {q : Request} {a : q.Reply} {b' : Bench}
    (hserved : ∀ s : Session, s.rest = r → s.bench = b → (s.chip.serve q).1 = a ∧
      { s with chip := s.chip.served q }.rest = r ∧
      { s with chip := s.chip.served q }.bench = b') : Acts (perform q) r b a b' := by
  intro s hr hb
  have hs : s.chip.faults = [] := by rw [← s.faults_rest, hr, h]
  obtain ⟨ha, hrest, hbench⟩ := hserved s hr hb
  refine ⟨{ s with chip := s.chip.served q }, ?_, hrest, hbench⟩
  rw [perform_of_no_faults hs, ha]

/-- A question changes neither the bench nor the rest of the session, and it is answered from both.
The call that it makes is entered in lists that neither of the two contains. -/
theorem acts_ask {q : Request} {a : q.Reply} (hread : q.isRead = true)
    (hanswer : ∀ s : Session, s.rest = r → s.bench = b → (s.chip.serve q).1 = a) :
    Acts (perform q) r b a b := by
  refine acts_perform h fun s hr hb => ⟨hanswer s hr hb, ?_, ?_⟩
  · rw [Chip.served_of_isRead _ hread]
    exact hr
  · have hnone : q.transfer? = none := by cases q <;> first | rfl | cases hread
    rw [Chip.served_of_isRead _ hread, ← hb]
    refine Bench.ext rfl rfl rfl ?_
    dsimp only [Session.bench]
    split
    · rw [List.filterMap_cons_none hnone]
    · rfl

/-- An object is read, which answers a window of its content. Objects belong to the rest of the
session, so the bench does not show in the answer. -/
theorem acts_objectRead (o : UInt8) (offset : UInt16) (length : Nat) :
    Acts (perform (.objectRead o offset length)) r b
      ((r.chip.object o).window offset.toNat length) b :=
  acts_ask h rfl fun s hr _ => by rw [← hr]; rfl

/-- The bytes of a register are those of its word, so the word is what is read. It takes one request
for its four bytes. -/
theorem acts_readRegister (register : ActuatorRegister) :
    Acts (readRegister register.address) r b (b.words register) b := by
  have hread : Acts (perform (.bulkRead register.address 4 false)) r b
      (LittleEndian.ofUInt32 (b.words register)) b := by
    refine acts_ask h rfl fun s _ hb => ?_
    rw [← hb]
    exact (Memory.ofUInt32_word s.chip.memory register.address).symm
  have hword : LittleEndian.uint32At (LittleEndian.ofUInt32 (b.words register)) 0 =
      b.words register := LittleEndian.uint32At_ofUInt32 _
  rw [← hword]
  exact hread.bind (.pure _)

/-- A write to a register changes the word of this register. The words of the others and the content
lie elsewhere in the memory. -/
theorem acts_writeWord (register : ActuatorRegister) (value : UInt32) :
    Acts (writeRegister register.address value) r b ()
      { b with words := Function.update b.words register value } := by
  have hend := register.end_le
  have hfits : register.address.toNat + (LittleEndian.ofUInt32 value).length ≤ 0x100000000 := by
    rw [LittleEndian.length_ofUInt32]
    omega
  unfold writeRegister
  refine acts_perform h fun s hr hb => ⟨rfl, (s.rest_bulkWrite ..).trans hr, ?_⟩
  rw [s.bench_bulkWrite, ← hb]
  apply Bench.ext
  · funext q
    by_cases hq : q = register
    · rw [hq]
      dsimp only
      rw [Function.update_self, Memory.word_writeRun_self]
    · have hend' := q.end_le
      dsimp only
      rw [Function.update_of_ne hq]
      exact Memory.word_writeRun_of_disjoint hfits (by omega) (ActuatorRegister.disjoint hq)
  · funext a
    dsimp only [Session.bench]
    split
    · rfl
    · next hnot =>
      rw [Memory.read_writeRun_eq hfits, if_neg]
      exact fun hcovered => hnot ⟨register, register.mem_all, hcovered⟩
  · rfl
  · rfl

/-- A register is read, some of its bits are replaced, and it is written again. On the bench this is
one step. -/
theorem acts_updateRegister (register : ActuatorRegister) (mask value : UInt32) :
    Acts (updateRegister register.address mask value) r b ()
      (b.setBits register mask value) :=
  (acts_readRegister h register).bind (acts_writeWord h register _)

/-! ### Data -/

/-- Data that is written above the registers changes the content, and is noted as a transfer. It
touches no word. -/
theorem acts_transfer {address : UInt32} {data : Bytes} (hlow : 0x60000000 ≤ address.toNat)
    (hfits : address.toNat + data.length ≤ 0x100000000) :
    Acts (perform (.bulkWrite address data true)) r b () (b.transfer address data) := by
  refine acts_perform h fun s hr hb => ⟨rfl, (s.rest_bulkWrite ..).trans hr, ?_⟩
  rw [s.bench_bulkWrite, ← hb]
  apply Bench.ext
  · funext q
    have hend := q.end_le
    exact Memory.word_writeRun_of_disjoint hfits (by omega) (.inl (by omega))
  · funext a
    dsimp only [Session.bench, Bench.content_transfer, Bench.putRun]
    rw [Memory.read_writeRun_eq hfits]
    by_cases hreached : address.toNat ≤ a.toNat ∧ a.toNat < address.toNat + data.length
    · rw [if_neg (ActuatorRegister.not_covers_of_le (Nat.le_trans hlow hreached.1)),
        if_pos hreached, if_pos hreached]
    · rw [if_neg hreached, if_neg hreached]
  · rfl
  · rfl

/-- Data that is read above the registers is the content at its addresses. It may not run over the
top of the memory. -/
theorem acts_fetch {address : UInt32} {length : Nat} (hlow : 0x60000000 ≤ address.toNat)
    (hfits : address.toNat + length ≤ 0x100000000) :
    Acts (perform (.bulkRead address length true)) r b (runAt b.content address length) b := by
  refine acts_ask h rfl fun s _ hb => ?_
  rw [← hb]
  exact s.readRun_eq_content hlow hfits

end requests

/-! ### Clocks -/

/-- The clock of a channel is switched, and nothing else that matters is touched. This is the one
place where the number of looks that the settings allow has to be positive. -/
theorem acts_setClock {r : Session} {b : Bench} (h : r.Healthy) (c : Channel) (on : Bool) :
    Acts (Session.setClock c on) r b () (b.setClock c on) := by
  intro s hr hb
  have hs : s.Healthy := Session.healthy_rest.1 (hr ▸ h)
  have hstuck : Fault.clockStuck ∉ s.chip.faults := by simp [hs.faults]
  obtain ⟨_, t, hrun, rfl⟩ := (ends_setClock_of_healthy c on hs.faults hs.attempts).exists_ok
  refine ⟨_, hrun, ?_, ?_⟩
  · rw [← hr]
    exact s.rest_clocked c on hstuck
  · rw [← hb]
    exact s.bench_clocked c on hstuck

/-! ## What a bench tells of its session -/

/-- The address is one of the four bytes of the register. -/
def ActuatorRegister.Spans (register : ActuatorRegister) (a : UInt32) : Prop :=
  register.address.toNat ≤ a.toNat ∧ a.toNat < register.address.toNat + 4

instance (register : ActuatorRegister) : DecidablePred register.Spans :=
  fun _ => inferInstanceAs (Decidable (_ ∧ _))

/-- Channels that differ in nothing but their clocks, and not in these, are the same. So the clocks
and the rest together say all that is kept for channels. -/
theorem PerChannel.eq_of_clockless {t u : PerChannel ChannelState} (h : t.clockless = u.clockless)
    (hclock : ∀ c, (t.get c).clock = (u.get c).clock) : t = u := by
  have hchannel (c : Channel) : t.get c = u.get c := by
    have hrest : { t.get c with clock := false } = { u.get c with clock := false } := by
      have hget := congrArg (·.get c) h
      cases c <;> exact hget
    calc t.get c = { ({ t.get c with clock := false } : ChannelState) with
          clock := (t.get c).clock } := rfl
      _ = { ({ u.get c with clock := false } : ChannelState) with
          clock := (u.get c).clock } := by rw [hrest, hclock]
      _ = u.get c := rfl
  obtain ⟨_, _, _, _⟩ := t
  obtain ⟨_, _, _, _⟩ := u
  rw [PerChannel.mk.injEq]
  exact ⟨hchannel .tx1, hchannel .tx2, hchannel .tx3, hchannel .tx4⟩

namespace Session

/-- The bytes of a register are those of its word. With the content, this gives every byte of the
memory from the bench. -/
theorem read_of_spans (s : Session) {register : ActuatorRegister} {a : UInt32}
    (h : register.Spans a) : s.chip.memory.read a =
      (LittleEndian.ofUInt32 (s.bench.words register)).byteAt
        (a.toNat - register.address.toNat) := by
  obtain ⟨hle, hlt⟩ := h
  have hend := register.end_le
  have hplace : a = register.address + UInt32.ofNat (a.toNat - register.address.toNat) := by
    apply UInt32.toNat_inj.1
    rw [Memory.toNat_add_ofNat (by omega)]
    omega
  have hbytes : LittleEndian.ofUInt32 (s.bench.words register) =
      s.chip.memory.readRun register.address 4 := Memory.ofUInt32_word _ _
  have hindex : a.toNat - register.address.toNat < 4 := by omega
  rw [hbytes, ← Memory.runAt_read, byteAt_runAt hindex, ← hplace]

/-- A byte of the memory is known from the word of the register that it belongs to, if it belongs to
one, and else from the content. -/
theorem read_eq_of_bench {s t : Session} {a : UInt32}
    (hwords : ∀ register : ActuatorRegister, register.Spans a →
      t.bench.words register = s.bench.words register)
    (hcontent : t.bench.content a = s.bench.content a) :
    t.chip.memory.read a = s.chip.memory.read a := by
  by_cases hcovered : ActuatorRegister.Covers a
  · obtain ⟨register, -, hspans⟩ := hcovered
    rw [t.read_of_spans hspans, s.read_of_spans hspans, hwords register hspans]
  · dsimp only [bench] at hcontent
    rwa [if_neg hcovered, if_neg hcovered] at hcontent

/-- Sessions of one rest differ in their memory, their clocks, and in what is kept of requests. The
bench says what became of the first two of these. -/
theorem exists_eq_of_rest {s t : Session} (h : t.rest = s.rest) :
    ∃ registers calls journal, t = { s with chip := { s.chip with
      memory := t.chip.memory
      channels := t.chip.channels
      registers
      calls
      journal } } := by
  refine ⟨t.chip.registers, t.chip.calls, t.chip.journal, ?_⟩
  obtain ⟨chip, _, _, _, _⟩ := s
  obtain ⟨chip', _, _, _, _⟩ := t
  cases chip
  cases chip'
  simp only [rest, Session.mk.injEq, Chip.mk.injEq] at h ⊢
  grind

/-- Where a clock was switched, all else of the channels is as it was, because it belongs to the
rest of the session. -/
theorem channels_of_rest {s t : Session} (h : t.rest = s.rest) {c : Channel} {on : Bool}
    (hclock : t.bench.clock = Function.update s.bench.clock c on) :
    t.chip.channels = s.chip.channels.set c { s.chip.channel c with clock := on } := by
  have hclockless : t.chip.channels.clockless = s.chip.channels.clockless :=
    congrArg (·.chip.channels) h
  apply PerChannel.eq_of_clockless
  · rw [hclockless]
    cases c <;> rfl
  · intro d
    have hd := congrFun hclock d
    by_cases heq : d = c
    · rw [heq, Function.update_self] at hd
      rw [heq, PerChannel.get_set_self]
      exact hd
    · rw [Function.update_of_ne heq] at hd
      rw [PerChannel.get_set_of_ne _ heq]
      exact hd

end Session

end Predistortion
