import EwsnCrypto.Base.SharedStore

/-!
# Memory that can be sealed

Cells can be written until the memory is sealed, and never again. What is in a
cell after any number of jobs is what the last job wrote there that was not too
late.
-/

open SharedStore

namespace SealedMemory

variable {A V : Type}

structure Memory (A V : Type) where
  cell : A → V
  isSealed : Bool

/-- What a job writes, and whether it seals the memory behind its writes. -/
structure Job (A V : Type) where
  write : A → Option V
  isLast : Bool

def Job.run (j : Job A V) (m : Memory A V) : Memory A V :=
  if m.isSealed then m else ⟨fun a => (j.write a).getD (m.cell a), j.isLast⟩

section After
variable {m : Memory A V}

end After

end SealedMemory
