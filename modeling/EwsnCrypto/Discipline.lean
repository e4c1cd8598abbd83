import EwsnCrypto.Ecc.Windows
import EwsnCrypto.Ecdh.Model
import EwsnCrypto.Ecdsa.Model

/-!
# Window and CryptoCell discipline of the eight applications

Both resources are opened and closed around single calls, the second key pair and
the second secret are not measured, and almost every call is followed by an early
return. In every build and every run windows and the CryptoCell are nevertheless
opened and closed in turn, and closed at every return.
-/

open InputProgram Trigger EccSteps Windows

namespace Discipline

section Ecdh

/-- `CRYS_ECPKI_GenKeyPair` and `CRYS_ECDH_SVDP_DH` need the CryptoCell. -/
def ecdhRole : Ecdh.Call → CellRole
  | .cryptocellEnable => .enable
  | .cryptocellDisable => .disable
  | .genKeyPair _ _ | .sharedSecret _ _ _ => .use
  | _ => .other

/-- Without a CryptoCell no call has to do with it. -/
def ecdhRoleOf (A : Ecdh.Application) : Ecdh.Call → CellRole :=
  if A.usesCell then ecdhRole else fun _ => .other

variable {Priv Pub Secret ρ : Type} {A : Ecdh.Application} {b : Build} {energy : Bool}
variable {r : Ecdh.Replies Priv Pub Secret}

theorem steady_ecdhCall {c : Ecdh.Call}
    {reply : Ecdh.Memory Priv Pub Secret → Except Nat ρ}
    {store : ρ → Ecdh.Memory Priv Pub Secret → Ecdh.Memory Priv Pub Secret}
    (hc : ecdhRole c = .use) :
    Steady energy (ecdhRoleOf A) (A.call (libCall (fun _ => c) reply store)) := by
  cases hcell : A.usesCell with
  | false =>
    simp only [Ecdh.Application.call, ecdhRoleOf, hcell, Bool.false_eq_true, if_false]
    exact steady_libCall fun _ => rfl
  | true =>
    simp only [Ecdh.Application.call, ecdhRoleOf, hcell, if_true]
    exact steady_enclosed rfl rfl quiet_libCall fun _ _ => follows_use fun _ => hc

theorem windowed_ecdhGenKeypair :
    Windowed b b.isMeasured (ecdhRoleOf A) (A.genKeypair b r) := by
  apply Windowed.func
  cases b.isMeasured with
  | false => exact .bind (.steady (steady_ecdhCall rfl)) fun _ => .pure ()
  | true =>
    exact .checkedPair rfl (steady_ecdhCall rfl) (steady_print _) (steady_ecdhCall rfl)
      (steady_print _) (steady_pure ())

theorem windowed_deriveSharedSecret [DecidableEq Secret] :
    Windowed b b.isMeasured (ecdhRoleOf A) (A.deriveSharedSecret b r) := by
  have hcompare : Steady b.testEnergy (ecdhRoleOf A)
      (Ecdh.Application.compareSecrets : Ecdh.EcdhApp Priv Pub Secret Unit) :=
    steady_act fun _ e he => by rw [List.mem_singleton.mp he]; exact ⟨trivial, rfl⟩
  refine Windowed.func (.bind (.steady (steady_silent fun _ => rfl)) fun _ => ?_)
  cases b.isMeasured with
  | false => exact .bind (.steady (steady_ecdhCall rfl)) fun _ => .pure ()
  | true =>
    exact .checkedPair rfl (steady_ecdhCall rfl) (steady_print _) (steady_ecdhCall rfl)
      (steady_print _) hcompare

theorem windowed_ecdhPrologue (lib : Ecdh.Library) :
    Windowed b b.isMeasured (ecdhRoleOf lib.application) (lib.application.prologue b r) := by
  have hinit (priv : PrivKey) (pub : PubKey) (blank : Priv × Pub) :
      Steady b.testEnergy (ecdhRoleOf Ecdh.Library.relic.application)
        (Ecdh.initMem priv pub blank : Ecdh.EcdhApp Priv Pub Secret Unit) :=
    steady_act fun _ e he => by rw [List.mem_singleton.mp he]; exact ⟨rfl, rfl⟩
  cases lib with
  | microEcc =>
    apply Windowed.func
    cases b.isMeasured with
    | false => exact .steady (steady_plainCall rfl)
    | true => exact .measured rfl (steady_plainCall rfl)
  | cryptocell =>
    simp only [Ecdh.Library.application, Ecdh.Cryptocell.application]
    cases b.isMeasured with
    | false => exact .steady (steady_plainCall rfl)
    | true => exact .measured rfl (steady_plainCall rfl)
  | atecc608a =>
    simp only [Ecdh.Library.application, Ecdh.Atecc608a.application]
    cases b.isMeasured with
    | false => exact .pure ()
    | true => exact .measured rfl (steady_pure ())
  | relic =>
    have hinitA : Steady b.testEnergy (ecdhRoleOf Ecdh.Library.relic.application)
        (plainCall .epParamSet >>= fun _ => Ecdh.initMem .keyA .keyA r.blankA) :=
      (steady_plainCall rfl).bind fun _ => hinit _ _ _
    simp only [Ecdh.Library.application, Ecdh.Relic.application]
    cases b.isMeasured with
    | false => exact .steady hinitA
    | true => exact .bind (.measured rfl hinitA) fun _ => .steady (hinit _ _ _)

/-- What `main` does behind the experiment. -/
theorem windowed_ecdhEpilogue (lib : Ecdh.Library) (triggered : Bool) :
    Windowed b triggered (ecdhRoleOf lib.application) (do
      onlyIf b.testStack (lib.application.sizes.forM diag)
      lib.application.teardown.forM plainCall
      puts "DONE" : Ecdh.EcdhApp Priv Pub Secret Unit) := by
  have hneutral : ∀ c ∈ lib.application.teardown, ecdhRoleOf lib.application c = .other := by
    cases lib <;> decide
  exact .bind (.onlyIf (.forM fun _ _ => .steady (steady_diag _))) fun _ =>
    .bind (.forM fun c hc => .steady (steady_plainCall (hneutral c hc))) fun _ =>
    .steady (steady_puts _)

theorem steady_ecdhSetup (energy : Bool) (lib : Ecdh.Library) :
    Steady energy (ecdhRoleOf lib.application)
      (lib.application.setup.forM plainCall : Ecdh.EcdhApp Priv Pub Secret Unit) := by
  have hneutral : ∀ c ∈ lib.application.setup, ecdhRoleOf lib.application c = .other := by
    cases lib <;> decide
  exact steady_forM fun c hc => steady_plainCall (hneutral c hc)

variable [DecidableEq Secret] {lib : Ecdh.Library}

theorem windowed_ecdhIteration :
    Windowed b b.isMeasured (ecdhRoleOf lib.application) (lib.application.iteration b r) :=
  .bind (windowed_ecdhPrologue lib) fun _ => .bind windowed_ecdhGenKeypair fun _ =>
    windowed_deriveSharedSecret

theorem follows_ecdhExperiment (lib : Ecdh.Library) (n : Nat)
    (replies : Nat → Ecdh.Replies Priv Pub Secret) :
    Follows (monitor b.testEnergy (ecdhRoleOf lib.application)) (Rest false b.testEnergy)
      (lib.application.experiment b n replies) (Rest b.isMeasured b.testEnergy) := by
  have hround (i : Nat) : Windowed b b.isMeasured (ecdhRoleOf lib.application)
      (lib.application.iteration b (replies i)) := windowed_ecdhIteration
  simp only [Ecdh.Application.experiment]
  cases hb : b.isMeasured with
  | false =>
    rw [hb] at hround
    exact (hround 0).follows
  | true =>
    rw [hb] at hround
    exact follows_bind ((steady_puts _).follows _ _) fun _ =>
      follows_bind follows_initTrigger fun _ => (Windowed.forRange hround).follows

theorem follows_ecdhMain (lib : Ecdh.Library) (n : Nat)
    (replies : Nat → Ecdh.Replies Priv Pub Secret) :
    Follows (monitor b.testEnergy (ecdhRoleOf lib.application)) (Rest false b.testEnergy)
      (lib.application.main b n replies) (Rest b.isMeasured b.testEnergy) := by
  apply follows_func
  exact follows_bind ((steady_ecdhSetup _ lib).follows _ _) fun _ =>
    follows_bind (follows_ecdhExperiment lib n replies) fun _ =>
    (windowed_ecdhEpilogue lib _).follows

end Ecdh

section Ecdsa

/-- `CRYS_ECPKI_GenKeyPair`, `CRYS_ECDSA_Sign` and `CRYS_ECDSA_Verify` need the
CryptoCell. -/
def ecdsaRole {Priv Pub Sig : Type} : Ecdsa.Call Priv Pub Sig → CellRole
  | .cryptocellEnable => .enable
  | .cryptocellDisable => .disable
  | .genKeyPair _ _ | .crysEcdsaSign _ _ _ _ _ _ | .crysEcdsaVerify _ _ _ _ _ _ _ => .use
  | _ => .other

def ecdsaRoleOf {Priv Pub Sig : Type} (A : Ecdsa.Application) :
    Ecdsa.Call Priv Pub Sig → CellRole :=
  if A.usesCell then ecdsaRole else fun _ => .other

variable {Priv Pub Sig ρ α : Type} {A : Ecdsa.Application} {b : Build} {energy : Bool}
variable {r : Ecdsa.Replies Priv Pub Sig} {msg : Ecdsa.Message} {lib : Ecdsa.Library}

theorem steady_withCell {c : Ecdsa.Memory Priv Pub Sig → Ecdsa.Call Priv Pub Sig}
    {reply : Ecdsa.Memory Priv Pub Sig → Except Nat ρ}
    {store : ρ → Ecdsa.Memory Priv Pub Sig → Ecdsa.Memory Priv Pub Sig}
    (hc : ∀ m, ecdsaRole (c m) = .use) :
    Steady energy ecdsaRole (Ecdsa.withCell (libCall c reply store)) :=
  steady_enclosed rfl rfl quiet_libCall fun _ _ => follows_use hc

theorem steady_ecdsaGen {priv : PrivKey} {pub : PubKey} {reply : Except Nat (Priv × Pub)} :
    Steady energy (ecdsaRoleOf A)
      (A.call (Ecdsa.genKeyPair priv pub reply : Ecdsa.EcdsaApp Priv Pub Sig _)) := by
  cases hcell : A.usesCell with
  | false =>
    simp only [Ecdsa.Application.call, ecdsaRoleOf, hcell, Bool.false_eq_true, if_false]
    exact steady_libCall fun _ => rfl
  | true =>
    simp only [Ecdsa.Application.call, ecdsaRoleOf, hcell, if_true]
    exact steady_withCell fun _ => rfl

theorem windowed_ecdsaGenKeypair :
    Windowed b (A.isMeasured b) (ecdsaRoleOf A) (A.genKeypair b r) := by
  apply Windowed.func
  cases A.isMeasured b with
  | false => exact .bind (.steady steady_ecdsaGen) fun _ => .pure ()
  | true =>
    refine .bind (.measured rfl steady_ecdsaGen) fun r => ?_
    cases r with
    | error code => exact .steady (steady_print _ _)
    | ok _ => exact .pure ()

theorem windowed_ecdsaPrologue (lib : Ecdsa.Library) :
    Windowed b (lib.application.isMeasured b) (ecdsaRoleOf lib.application)
      (lib.application.prologue b r) := by
  cases lib with
  | microEcc =>
    apply Windowed.func
    simp only [Ecdsa.Library.application, Ecdsa.MicroEcc.application]
    cases b.isMeasured with
    | false => exact .steady (steady_plainCall rfl)
    | true => exact .measured rfl (steady_plainCall rfl)
  | cryptocell =>
    simp only [Ecdsa.Library.application, Ecdsa.Cryptocell.application]
    cases Ecdsa.Cryptocell.isMeasured b with
    | false => exact .steady (steady_plainCall rfl)
    | true => exact .measured rfl (steady_plainCall rfl)
  | atecc608a =>
    simp only [Ecdsa.Library.application, Ecdsa.Atecc608a.application]
    cases b.isMeasured with
    | false => exact .pure ()
    | true => exact .measured rfl (steady_pure ())
  | relic =>
    have hinit : Steady b.testEnergy (ecdsaRoleOf Ecdsa.Relic.application)
        (Ecdsa.Relic.initMem r.blank : Ecdsa.EcdsaApp Priv Pub Sig Unit) :=
      (steady_plainCall rfl).bind fun _ =>
        steady_act fun _ e he => by rw [List.mem_singleton.mp he]; exact ⟨rfl, rfl⟩
    simp only [Ecdsa.Library.application, Ecdsa.Relic.application]
    cases b.isMeasured with
    | false => exact .steady hinit
    | true => exact .measured rfl hinit

theorem windowed_declareLocals {triggered : Bool} {role : Ecdsa.Call Priv Pub Sig → CellRole} :
    Windowed b triggered role (Ecdsa.declareLocals r) := .steady (steady_silent fun _ => rfl)

theorem windowed_microEccSignVerify :
    Windowed b b.isMeasured (ecdsaRoleOf Ecdsa.MicroEcc.application)
      (Ecdsa.MicroEcc.signVerify b r msg) := by
  simp only [Ecdsa.MicroEcc.signVerify]
  refine .bind windowed_declareLocals fun _ => ?_
  cases b.isMeasured with
  | false =>
    exact .bind (.steady (steady_libCall fun _ => rfl)) fun _ =>
      .bind (.steady (steady_libCall fun _ => rfl)) fun _ =>
      .bind (.steady (steady_libCall fun _ => rfl)) fun _ => .pure ()
  | true =>
    refine .bind (.measured rfl (steady_libCall fun _ => rfl)) fun _ => ?_
    refine .bind (.measured rfl (steady_libCall fun _ => rfl)) fun r => ?_
    cases r with
    | error code => exact .steady (steady_puts _)
    | ok _ =>
      refine .bind (.measured rfl (steady_libCall fun _ => rfl)) fun r => ?_
      cases r with
      | error code => exact .steady (steady_puts _)
      | ok _ => exact .steady (steady_puts _)

theorem windowed_cryptocellSignVerify :
    Windowed b (Ecdsa.Cryptocell.isMeasured b) (ecdsaRoleOf Ecdsa.Cryptocell.application)
      (Ecdsa.Cryptocell.signVerify b r msg) := by
  simp only [Ecdsa.Cryptocell.signVerify]
  refine .bind windowed_declareLocals fun _ => ?_
  cases Ecdsa.Cryptocell.isMeasured b with
  | false =>
    exact .bind (.steady (steady_withCell fun _ => rfl)) fun _ =>
      .bind (.steady (steady_withCell fun _ => rfl)) fun _ => .pure ()
  | true =>
    refine .bind (.measured rfl (steady_withCell fun _ => rfl)) fun r => ?_
    cases r with
    | error code => exact .steady (steady_printf _ _)
    | ok _ =>
      refine .bind (.measured rfl (steady_withCell fun _ => rfl)) fun r => ?_
      cases r with
      | error code => exact .steady (steady_printf _ _)
      | ok _ => exact .steady (steady_puts _)

theorem windowed_atecc608aSignVerify :
    Windowed b b.isMeasured (ecdsaRoleOf Ecdsa.Atecc608a.application)
      (Ecdsa.Atecc608a.signVerify b r msg) := by
  simp only [Ecdsa.Atecc608a.signVerify]
  refine .bind windowed_declareLocals fun _ => ?_
  cases b.isMeasured with
  | false =>
    exact .bind (.steady (steady_libCall fun _ => rfl)) fun _ =>
      .bind (.steady (steady_libCall fun _ => rfl)) fun _ =>
      .bind (.steady (steady_libCall fun _ => rfl)) fun _ => .pure ()
  | true =>
    refine .bind (.measured rfl (steady_libCall fun _ => rfl)) fun _ => ?_
    refine .bind (.measured rfl (steady_libCall fun _ => rfl)) fun r => ?_
    cases r with
    | error code => exact .steady (steady_printf _ _)
    | ok _ =>
      refine .bind (.measured rfl (steady_libCall fun _ => rfl)) fun r => ?_
      cases r with
      | error code => exact .steady (steady_printf _ _)
      | ok isVerified => exact .steady (steady_puts _)

theorem windowed_relicSignVerify :
    Windowed b b.isMeasured (ecdsaRoleOf Ecdsa.Relic.application)
      (Ecdsa.Relic.signVerify b r msg) := by
  simp only [Ecdsa.Relic.signVerify]
  refine .bind windowed_declareLocals fun _ => ?_
  refine .bind (.steady (steady_plainCall rfl)) fun _ => ?_
  refine .bind (.steady (steady_plainCall rfl)) fun _ => ?_
  cases b.isMeasured with
  | false =>
    exact .bind (.steady (steady_libCall fun _ => rfl)) fun _ =>
      .bind (.steady (steady_libCall fun _ => rfl)) fun _ =>
      .bind (.steady (steady_libCall fun _ => rfl)) fun _ => .pure ()
  | true =>
    refine .bind (.measured rfl (steady_libCall fun _ => rfl)) fun _ => ?_
    refine .bind (.measured rfl (steady_libCall fun _ => rfl)) fun _ => ?_
    refine .bind (.measured rfl (steady_libCall fun _ => rfl)) fun r => ?_
    cases r with
    | error code => exact .steady (steady_puts _)
    | ok _ => exact .steady (steady_puts _)

theorem windowed_ecdsaIteration :
    Windowed b (lib.application.isMeasured b) (ecdsaRoleOf lib.application)
      (lib.application.iteration b r msg) := by
  refine .bind (windowed_ecdsaPrologue lib) fun _ =>
    .bind windowed_ecdsaGenKeypair fun _ => .func ?_
  cases lib with
  | microEcc => exact windowed_microEccSignVerify
  | cryptocell => exact windowed_cryptocellSignVerify
  | atecc608a => exact windowed_atecc608aSignVerify
  | relic => exact windowed_relicSignVerify

theorem follows_ecdsaExperiment (lib : Ecdsa.Library) (n : Nat)
    (replies : Nat → Ecdsa.Replies Priv Pub Sig) :
    Follows (monitor b.testEnergy (ecdsaRoleOf lib.application)) (Rest false b.testEnergy)
      (lib.application.experiment b n replies msg)
      (Rest (lib.application.isMeasured b) b.testEnergy) := by
  have hround (i : Nat) : Windowed b (lib.application.isMeasured b) (ecdsaRoleOf lib.application)
      (lib.application.iteration b (replies i) msg) := windowed_ecdsaIteration
  simp only [Ecdsa.Application.experiment]
  cases hb : lib.application.isMeasured b with
  | false =>
    rw [hb] at hround
    exact (hround 0).follows
  | true =>
    rw [hb] at hround
    exact follows_bind ((steady_puts _).follows _ _) fun _ =>
      follows_bind follows_initTrigger fun _ => (Windowed.forRange hround).follows

theorem steady_ecdsaSetup (energy : Bool) (lib : Ecdsa.Library) :
    Steady energy (ecdsaRoleOf lib.application)
      ((lib.application.setup b).forM emit : Ecdsa.EcdsaApp Priv Pub Sig Unit) := by
  have hneutral : ∀ e ∈ (lib.application.setup b : List (Event (Ecdsa.Call Priv Pub Sig))),
      Neutral (ecdsaRoleOf lib.application) e ∧ visible e = true := by
    cases lib with
    | relic =>
      simp only [Ecdsa.Library.application, Ecdsa.Relic.application, Ecdsa.Relic.setup]
      split <;> simp [Neutral, ecdsaRoleOf]
    | _ => simp [Ecdsa.Library.application, Ecdsa.MicroEcc.application,
        Ecdsa.Cryptocell.application, Ecdsa.Atecc608a.application]
  exact steady_forM fun e he => steady_emit (hneutral e he).1 (hneutral e he).2

/-- What `main` does behind the experiment. -/
theorem windowed_ecdsaEpilogue (lib : Ecdsa.Library) (triggered : Bool) :
    Windowed b triggered (ecdsaRoleOf lib.application) (do
      onlyIf b.testStack (lib.application.sizes.forM diag)
      lib.application.teardown.forM emit
      puts "DONE" : Ecdsa.EcdsaApp Priv Pub Sig Unit) := by
  have hneutral : ∀ e ∈ (lib.application.teardown : List (Event (Ecdsa.Call Priv Pub Sig))),
      Neutral (ecdsaRoleOf lib.application) e ∧ visible e = true := by
    cases lib <;> simp [Ecdsa.Library.application, Ecdsa.MicroEcc.application,
      Ecdsa.Cryptocell.application, Ecdsa.Atecc608a.application, Ecdsa.Relic.application, Neutral,
      ecdsaRoleOf]
  exact .bind (.onlyIf (.forM fun _ _ => .steady (steady_diag _))) fun _ =>
    .bind (.forM fun e he => .steady (steady_emit (hneutral e he).1 (hneutral e he).2)) fun _ =>
    .steady (steady_puts _)

theorem follows_ecdsaMain (lib : Ecdsa.Library) (n : Nat)
    (replies : Nat → Ecdsa.Replies Priv Pub Sig) :
    Follows (monitor b.testEnergy (ecdsaRoleOf lib.application)) (Rest false b.testEnergy)
      (lib.application.main b n replies msg)
      (Rest (lib.application.isMeasured b) b.testEnergy) := by
  apply follows_func
  exact follows_bind ((steady_ecdsaSetup _ lib).follows _ _) fun _ =>
    follows_bind (follows_ecdsaExperiment lib n replies) fun _ =>
    (windowed_ecdsaEpilogue lib _).follows

end Ecdsa

/-- The levels before anything is written are those of a build without triggers. -/
theorem rest_start (energy : Bool) : Rest false energy ⟨none, none, none⟩ :=
  ⟨rfl, rfl, by simp⟩

theorem pinsIdle_of_rest {C : Type} {energy : Bool} {role : C → CellRole} {tr : List (Event C)}
    (h : Rest true energy ((monitor energy role).after ⟨none, none, none⟩ tr)) :
    PinsIdle energy tr := by
  rw [after_levels] at h
  obtain ⟨hactive, haesKey, _⟩ := h
  refine ⟨hactive, fun henergy => ?_⟩
  rw [henergy] at haesKey
  exact haesKey

/-- In every build and run of the eight applications windows open and close in turn
and none is open at a return; the trigger pins are idle at the end of every
iteration `i`, which is where the experiment with `i` iterations ends; and the two
CryptoCell applications use the CryptoCell between enabling and disabling it. -/
theorem windows_and_cell {Priv Pub Secret Sig : Type} [DecidableEq Secret] (b : Build) (n : Nat)
    (ins : List Bool) :
    (∀ (lib : Ecdh.Library) (replies : Nat → Ecdh.Replies Priv Pub Secret)
      (m : Ecdh.Memory Priv Pub Secret),
      WindowsAlternate b.testEnergy ((lib.application.main b n replies).exec ins m).trace ∧
      (b.isMeasured = true → ∀ i,
        ((lib.application.experiment b i replies).exec ins m).value = some () →
        PinsIdle b.testEnergy ((lib.application.experiment b i replies).exec ins m).trace) ∧
      (lib = .cryptocell →
        CellGuarded ecdhRole ((lib.application.main b n replies).exec ins m).trace)) ∧
    ∀ (lib : Ecdsa.Library) (msg : Ecdsa.Message) (replies : Nat → Ecdsa.Replies Priv Pub Sig)
      (m : Ecdsa.Memory Priv Pub Sig),
      WindowsAlternate b.testEnergy ((lib.application.main b n replies msg).exec ins m).trace ∧
      (lib.application.isMeasured b = true → ∀ i,
        ((lib.application.experiment b i replies msg).exec ins m).value = some () →
        PinsIdle b.testEnergy ((lib.application.experiment b i replies msg).exec ins m).trace) ∧
      (lib = .cryptocell →
        CellGuarded ecdsaRole ((lib.application.main b n replies msg).exec ins m).trace) := by
  constructor
  · intro lib replies m
    have hmain : Follows _ _ (lib.application.main b n replies) _ :=
      follows_ecdhMain lib n replies
    obtain ⟨haccepts, _⟩ := hmain _ (rest_start b.testEnergy) ins m
    refine ⟨windowsAlternate_of_accepts haccepts, fun hb i hvalue => ?_, ?_⟩
    · have h := (follows_ecdhExperiment lib i replies).finished (rest_start b.testEnergy) hvalue
      rw [hb] at h
      exact pinsIdle_of_rest h
    · rintro rfl
      exact cellGuarded_of_accepts haccepts
  · intro lib msg replies m
    have hmain : Follows _ _ (lib.application.main b n replies msg) _ :=
      follows_ecdsaMain lib n replies
    obtain ⟨haccepts, _⟩ := hmain _ (rest_start b.testEnergy) ins m
    refine ⟨windowsAlternate_of_accepts haccepts, fun hb i hvalue => ?_, ?_⟩
    · have h := (follows_ecdsaExperiment lib i replies).finished (rest_start b.testEnergy) hvalue
      rw [hb] at h
      exact pinsIdle_of_rest h
    · rintro rfl
      exact cellGuarded_of_accepts haccepts

end Discipline
