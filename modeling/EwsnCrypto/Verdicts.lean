import EwsnCrypto.Ecdh.Freshness
import EwsnCrypto.Ecdsa.Freshness

/-!
# The verdicts of whole runs

Every iteration of every run of the eight applications, in both measured
variants. The memory in which an iteration starts carries the keys that all iterations
before it have left there; digest, signature and local secrets are its own.
-/

open InputProgram Trigger

namespace Verdicts

variable {Priv Pub Secret Sig : Type}

/-- The rounds of an ECDH run, and of an ECDSA run, by their number. -/
def ecdhRound [DecidableEq Secret] (lib : Ecdh.Library) (energy : Bool)
    (replies : Nat → Ecdh.Replies Priv Pub Secret) (i : Nat) : Ecdh.EcdhApp Priv Pub Secret Unit :=
  lib.application.iteration (.measured energy) (replies i)

def ecdsaRound (lib : Ecdsa.Library) (energy : Bool) (msg : Ecdsa.Message)
    (replies : Nat → Ecdsa.Replies Priv Pub Sig) (i : Nat) : Ecdsa.EcdsaApp Priv Pub Sig Unit :=
  lib.application.iteration (.measured energy) (replies i) msg

/-- What is equivalent in any round, wherever it starts, is equivalent in all rounds of a run. -/
theorem started_rounds_iff {C σ : Type} {round : Nat → App C σ Unit} {n : Nat} {ins : List Bool}
    {m : σ} {P Q : Nat → List Bool → σ → Prop} (h : ∀ i ins' m', P i ins' m' ↔ Q i ins' m') :
    (∀ i < n, ∀ ins' m', RoundStarts round ins m i ins' m' → P i ins' m') ↔
      ∀ i < n, ∀ ins' m', RoundStarts round ins m i ins' m' → Q i ins' m' :=
  forall₂_congr fun i _ => forall₃_congr fun ins' m' _ => h i ins' m'

/-- All iterations of a run are sound iff each that finishes accepts only what was
renewed, in the ECDH and in the ECDSA applications. -/
theorem sound_rounds_iff [DecidableEq Secret] (energy : Bool) (n : Nat) (ins : List Bool) :
    (∀ (lib : Ecdh.Library) (replies : Nat → Ecdh.Replies Priv Pub Secret)
      (m : Ecdh.Memory Priv Pub Secret),
      (∀ i < n, ∀ ins' m', RoundStarts (ecdhRound lib energy replies) ins m i ins' m' →
        Ecdh.Sound ((ecdhRound lib energy replies i).exec ins' m').trace) ↔
      ∀ i < n, ∀ ins' m', RoundStarts (ecdhRound lib energy replies) ins m i ins' m' →
        ((ecdhRound lib energy replies i).exec ins' m').value = some () →
        Ecdh.Renewed lib (replies i) m') ∧
    ∀ (lib : Ecdsa.Library) (msg : Ecdsa.Message) (replies : Nat → Ecdsa.Replies Priv Pub Sig)
      (m : Ecdsa.Memory Priv Pub Sig),
      (∀ i < n, ∀ ins' m', RoundStarts (ecdsaRound lib energy msg replies) ins m i ins' m' →
        Ecdsa.Sound ((ecdsaRound lib energy msg replies i).exec ins' m').trace) ↔
      ∀ i < n, ∀ ins' m', RoundStarts (ecdsaRound lib energy msg replies) ins m i ins' m' →
        ((ecdsaRound lib energy msg replies i).exec ins' m').value = some () →
        Ecdsa.Renewed lib (replies i) msg m' := by
  constructor
  · intro lib replies m
    exact started_rounds_iff fun i ins' m' => Ecdh.sound_iteration_iff lib ins'
  · intro lib msg replies m
    exact started_rounds_iff fun i ins' m' => Ecdsa.sound_iteration_iff ins'

section Counterexample

/-- A library that fails to generate the first key pair in the second iteration. -/
def failsOnce (i : Nat) : Ecdh.Replies Unit Unit Unit where
  gen1 := if i = 1 then .error 0 else .ok ((), ())
  gen2 := .ok ((), ())
  derive1 _ _ := .ok ()
  derive2 _ _ := .ok ()
  blankA := ((), ())
  blankB := ((), ())
  locals _ := ()

def blankMemory : Ecdh.Memory Unit Unit Unit := ⟨fun _ => (), fun _ => (), fun _ => ()⟩

/-- The second iteration of the micro-ecc application prints SUCCESS after a
failed key generation. -/
theorem stale_keys_succeed : ¬ ∀ i < 2, ∀ ins' m',
    RoundStarts (ecdhRound .microEcc false failsOnce) [] blankMemory i ins' m' →
    Ecdh.Sound ((ecdhRound .microEcc false failsOnce i).exec ins' m').trace := by
  intro hsound
  obtain ⟨hall, _⟩ := hsound 1 (by decide) [] blankMemory ⟨rfl, rfl, rfl⟩ (by decide)
  exact Bool.false_ne_true (hall (.genKeyPair .userPrivKey1 .userPubKey1) false (by decide) rfl)

end Counterexample

end Verdicts
