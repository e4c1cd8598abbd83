import EwsnCrypto.Discipline
import EwsnCrypto.Energy.Handshake

/-!
# The handshake in the eight applications

Some calls of an iteration are measured and others are not, and a failing call
ends a function early. The windows of a run of `main` nevertheless answer the
transitions of the sync pin one by one.
-/

open InputProgram Trigger EccSteps Windows Discipline EnergyHandshake

namespace EnergyApplications

/-- Behind `_init_trigger` the trace keeps the handshake, and before it no pin is
touched. -/
def KeepsHandshake {C : Type} (tr : List (Event C)) : Prop :=
  ∃ before behind, tr = before ++ triggerEvents ++ behind ∧ (∀ e ∈ before, visible e = true) ∧
    Handshake (before ++ triggerEvents) behind

variable {b : Build}

/-- A `main` around windowed rounds and a windowed end. -/
theorem keepsHandshake_main {C σ : Type} {role : C → CellRole} (henergy : b.testEnergy = true)
    {setup rounds epilogue : App C σ Unit} {banner : String} (hsetup : Quiet setup)
    (hrounds : Windowed b true role rounds) (hepilogue : Windowed b true role epilogue)
    (ins : List Bool) (m : σ) :
    KeepsHandshake ((do
      (do setup; puts banner)
      initTrigger b
      (do rounds; epilogue; emit (.leave .main)) : App C σ Unit).exec ins m).trace := by
  refine handshake_behind_initTrigger henergy (.bind hsetup fun _ => .emit rfl)
    (fun init => ?_) ins m
  refine follows_bind (follows_windowed henergy hrounds) fun _ =>
    follows_bind (follows_windowed henergy hepilogue) fun _ => ?_
  exact quiet_follows (.emit rfl) fun _ _ => Between.append

theorem ecdhMain_handshake {Priv Pub Secret : Type} [DecidableEq Secret] (lib : Ecdh.Library)
    (hmeasured : b.isMeasured = true) (henergy : b.testEnergy = true) (n : Nat)
    (replies : Nat → Ecdh.Replies Priv Pub Secret) (ins : List Bool)
    (m : Ecdh.Memory Priv Pub Secret) :
    KeepsHandshake ((lib.application.main b n replies).exec ins m).trace := by
  have hmain : lib.application.main b n replies = (do
      (do lib.application.setup.forM plainCall
          puts lib.application.banner)
      initTrigger b
      (do lib.application.rounds b n replies
          (do onlyIf b.testStack (lib.application.sizes.forM diag)
              lib.application.teardown.forM plainCall
              puts "DONE")
          emit (.leave .main))) := by
    simp [Ecdh.Application.main, Ecdh.Application.experiment, func, hmeasured]
  have hrounds : Windowed b b.isMeasured (ecdhRoleOf lib.application)
      (lib.application.rounds b n replies) := .forRange fun i => windowed_ecdhIteration
  rw [hmeasured] at hrounds
  rw [hmain]
  exact keepsHandshake_main henergy (steady_ecdhSetup true lib).quiet hrounds
    (windowed_ecdhEpilogue lib true) ins m

theorem ecdsaMain_handshake {Priv Pub Sig : Type} (lib : Ecdsa.Library)
    (hmeasured : lib.application.isMeasured b = true) (henergy : b.testEnergy = true) (n : Nat)
    (replies : Nat → Ecdsa.Replies Priv Pub Sig) (msg : Ecdsa.Message) (ins : List Bool)
    (m : Ecdsa.Memory Priv Pub Sig) :
    KeepsHandshake ((lib.application.main b n replies msg).exec ins m).trace := by
  have hmain : lib.application.main b n replies msg = (do
      (do (lib.application.setup b).forM emit
          puts lib.application.banner)
      initTrigger b
      (do lib.application.rounds b n replies msg
          (do onlyIf b.testStack (lib.application.sizes.forM diag)
              lib.application.teardown.forM emit
              puts "DONE")
          emit (.leave .main))) := by
    simp [Ecdsa.Application.main, Ecdsa.Application.experiment, func, hmeasured]
  have hrounds : Windowed b (lib.application.isMeasured b) (ecdsaRoleOf lib.application)
      (lib.application.rounds b n replies msg) := .forRange fun i => windowed_ecdsaIteration
  rw [hmeasured] at hrounds
  rw [hmain]
  exact keepsHandshake_main henergy (steady_ecdsaSetup true lib).quiet hrounds
    (windowed_ecdsaEpilogue lib true) ins m

end EnergyApplications
