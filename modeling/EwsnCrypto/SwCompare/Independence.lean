import EwsnCrypto.SwCompare.Aes
import EwsnCrypto.SwCompare.Sha256

/-!
# Whether the verdict of a library depends on its neighbours

A library that fails is judged by what its predecessors have left in the buffers.
-/

open InputProgram

namespace SwCompare

/-- In both applications and every build, the verdicts are independent of the
neighbours iff nothing right is left for a library that fails. -/
theorem verdicts_independent_iff (b : Build) :
    (∀ (r : Sha256.Replies) (hash : Sha256.Digest),
      (Sha256.application r).Independent (Sha256.Delivers r) b hash ↔
        Sha256.NothingLeft r b hash) ∧
    ∀ (r : Aes.Replies) (buffers : Aes.Buffers),
      (Aes.application r).Independent (Aes.Delivers r) b buffers ↔ Aes.NothingLeft r b :=
  ⟨fun _ => Sha256.independent_iff_nothingLeft b, fun _ => Aes.independent_iff_nothingLeft b⟩

section Counterexample

def allEnabled : Build := ⟨false, false, false, false, fun _ => true, rfl⟩

def timerBuild : Build := ⟨true, false, false, false, fun _ => true, rfl⟩

/-- Only the calls of the first library do not fail. -/
def onlyRiotDigests : Sha256.Replies :=
  ⟨fun l _ => if l = .riot then some Sha256.expectedResultSha256 else none⟩

def onlyRiotEncrypts : Aes.Replies where
  encrypt l _ inp := if l = .riot then some inp else none
  decrypt l _ data := if l = .riot then some data else none

/-- The second library fails and is not reported behind the first one, but alone. -/
theorem failing_library_unreported :
    ¬ (Sha256.application onlyRiotDigests).Independent (Sha256.Delivers onlyRiotDigests) allEnabled
        (Vector.replicate 32 0) ∧
    ¬ (Aes.application onlyRiotEncrypts).Independent (Aes.Delivers onlyRiotEncrypts) allEnabled
        (Aes.zeros, Aes.zeros) := by
  constructor
  · intro hindependent
    obtain ⟨hsame, _⟩ := hindependent .relic rfl [] [] ⟨0, 0, Vector.replicate 32 0⟩
      ⟨0, 0, Vector.replicate 32 0⟩ rfl rfl (by decide +kernel) (by decide +kernel)
    exact absurd (hsame.mpr (by decide +kernel)) (by decide +kernel)
  · intro hindependent
    obtain ⟨hsame, _⟩ := hindependent .relic rfl [] [] ⟨0, 0, (Aes.zeros, Aes.zeros)⟩
      ⟨0, 0, (Aes.zeros, Aes.zeros)⟩ rfl rfl (by decide +kernel) (by decide +kernel)
    exact absurd (hsame.mpr (by decide +kernel)) (by decide +kernel)

end Counterexample

end SwCompare
