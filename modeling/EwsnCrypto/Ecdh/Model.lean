import EwsnCrypto.Ecc.Steps
import Mathlib.Logic.Function.Basic

/-!
# The four ECDH applications

Each application generates two key pairs, derives a secret on both sides and
compares them, in every iteration. They share one text up to the names of the
objects, the order in which the keys are crossed, the lines they report, what
they do before the key generation, and the CryptoCell around each call.
-/

open InputProgram Trigger EccSteps

namespace Ecdh

inductive SecretBuf where
  | sharedSecret1
  | sharedSecret2
deriving DecidableEq

inductive Call where
  | genKeyPair (priv : PrivKey) (pub : PubKey)
  | sharedSecret (secret : SecretBuf) (priv : PrivKey) (pub : PubKey)
  | uECCSecp256r1
  | cryptocellEnable
  | cryptocellDisable
  | getEcDomain
  | coreInit
  | coreClean
  | epParamSet
  | initMem (priv : PrivKey) (pub : PubKey)
deriving DecidableEq

section Memory
variable (Priv Pub Secret : Type)

/-- Key material and secrets. The keys survive from one iteration to the next, and so do the
secrets where they are global. -/
structure Memory where
  priv : PrivKey → Priv
  pub : PubKey → Pub
  secret : SecretBuf → Secret

/-- What the library answers in one iteration. A derivation sees the keys it is
given. `blankA` and `blankB` are what RELIC's `bn_new` and `ec_new` leave, `locals` is what
the secret buffers hold at first that `_derive_shared_secret` declares. -/
structure Replies where
  gen1 : Except Nat (Priv × Pub)
  gen2 : Except Nat (Priv × Pub)
  derive1 : Priv → Pub → Except Nat Secret
  derive2 : Priv → Pub → Except Nat Secret
  blankA : Priv × Pub
  blankB : Priv × Pub
  locals : SecretBuf → Secret

end Memory

/-- A library all of whose calls fail. -/
def failingReplies : Replies Unit Unit Unit where
  gen1 := .error 1
  gen2 := .error 1
  derive1 _ _ := .error 1
  derive2 _ _ := .error 1
  blankA := ((), ())
  blankB := ((), ())
  locals _ := ()

variable {Priv Pub Secret : Type}

abbrev EcdhApp (Priv Pub Secret α : Type) : Type := App Call (Memory Priv Pub Secret) α

def Memory.setPair (m : Memory Priv Pub Secret) (priv : PrivKey) (pub : PubKey)
    (pair : Priv × Pub) : Memory Priv Pub Secret :=
  { m with priv := Function.update m.priv priv pair.1, pub := Function.update m.pub pub pair.2 }

def Memory.setSecret (m : Memory Priv Pub Secret) (secret : SecretBuf) (z : Secret) :
    Memory Priv Pub Secret :=
  { m with secret := Function.update m.secret secret z }

/-- `uECC_make_key`, `CRYS_ECPKI_GenKeyPair`, `atcab_genkey`, `cp_ecdh_gen`. -/
def genKeyPair (priv : PrivKey) (pub : PubKey) (reply : Except Nat (Priv × Pub)) :
    EcdhApp Priv Pub Secret (Except Nat (Priv × Pub)) :=
  libCall (fun _ => .genKeyPair priv pub) (fun _ => reply) fun pair m => m.setPair priv pub pair

/-- `uECC_shared_secret`, `CRYS_ECDH_SVDP_DH`, `atcab_ecdh`, `cp_ecdh_key`. -/
def sharedSecret (secret : SecretBuf) (priv : PrivKey) (pub : PubKey)
    (reply : Priv → Pub → Except Nat Secret) : EcdhApp Priv Pub Secret (Except Nat Secret) :=
  libCall (fun _ => .sharedSecret secret priv pub) (fun m => reply (m.priv priv) (m.pub pub))
    fun z m => m.setSecret secret z

/-- `bn_null`, `ec_null`, `bn_new` and `ec_new` on a RELIC key structure. -/
def initMem (priv : PrivKey) (pub : PubKey) (blank : Priv × Pub) : EcdhApp Priv Pub Secret Unit :=
  act fun m => ((), m.setPair priv pub blank, [.call (.initMem priv pub) true])

/-- What distinguishes an application: its objects, its lines, and what it does
before the key generation. The derivations cross the two pairs. -/
structure Application where
  banner : String
  setup : List Call
  teardown : List Call
  sizes : List String
  prologue {Priv Pub Secret : Type} (b : Build) (r : Replies Priv Pub Secret) :
    EcdhApp Priv Pub Secret Unit
  usesCell : Bool
  /-- Whether the secret buffers are declared in `_derive_shared_secret`. -/
  localSecrets : Bool
  priv1 : PrivKey
  pub1 : PubKey
  priv2 : PrivKey
  pub2 : PubKey
  genFailed1 : Report
  genFailed2 : Report
  /-- The keys of the first and of the second derivation. -/
  derive1 : PrivKey × PubKey
  derive2 : PrivKey × PubKey
  deriveFailed1 : Report
  deriveFailed2 : Report
  priv_ne : priv1 ≠ priv2
  pub_ne : pub1 ≠ pub2
  crossed : derive1 = (priv1, pub2) ∧ derive2 = (priv2, pub1) ∨
    derive1 = (priv2, pub1) ∧ derive2 = (priv1, pub2)

namespace Application
variable (A : Application)

/-- A key-generation or derivation call, between enabling and disabling the
CryptoCell where there is one. -/
def call {α : Type} (p : EcdhApp Priv Pub Secret α) : EcdhApp Priv Pub Secret α :=
  if A.usesCell then enclosed .cryptocellEnable .cryptocellDisable p else p

/-- `_gen_keypair`. -/
def genKeypair (b : Build) (r : Replies Priv Pub Secret) : EcdhApp Priv Pub Secret Unit :=
  func .genKeypair <|
    if b.isMeasured then
      checkedPair b (A.call (genKeyPair A.priv1 A.pub1 r.gen1)) A.genFailed1.print
        (A.call (genKeyPair A.priv2 A.pub2 r.gen2)) A.genFailed2.print (pure ())
    else do
      let _ ← A.call (genKeyPair A.priv1 A.pub1 r.gen1)

/-- The memory behind the declarations of `_derive_shared_secret`. -/
def declared (r : Replies Priv Pub Secret) (m : Memory Priv Pub Secret) :
    Memory Priv Pub Secret :=
  if A.localSecrets then { m with secret := r.locals } else m

def declareSecrets (r : Replies Priv Pub Secret) : EcdhApp Priv Pub Secret Unit :=
  act fun m => ((), A.declared r m, [])

variable [DecidableEq Secret]

/-- `if (memcmp(secret1, secret2, size)) { puts("ERROR"); } else { puts("SUCCESS"); }` -/
def compareSecrets : EcdhApp Priv Pub Secret Unit :=
  act fun m => ((), m, [.puts
    (if m.secret .sharedSecret1 ≠ m.secret .sharedSecret2 then "ERROR" else "SUCCESS")])

/-- `_derive_shared_secret`. -/
def deriveSharedSecret (b : Build) (r : Replies Priv Pub Secret) :
    EcdhApp Priv Pub Secret Unit :=
  func .deriveSharedSecret <| do
    A.declareSecrets r
    if b.isMeasured then
      checkedPair b (A.call (sharedSecret .sharedSecret1 A.derive1.1 A.derive1.2 r.derive1))
        A.deriveFailed1.print
        (A.call (sharedSecret .sharedSecret2 A.derive2.1 A.derive2.2 r.derive2))
        A.deriveFailed2.print compareSecrets
    else do
      let _ ← A.call (sharedSecret .sharedSecret1 A.priv1 A.pub1 r.derive1)

/-- One round of the loop in `main`. -/
def iteration (b : Build) (r : Replies Priv Pub Secret) : EcdhApp Priv Pub Secret Unit := do
  A.prologue b r
  A.genKeypair b r
  A.deriveSharedSecret b r

def rounds (b : Build) (n : Nat) (replies : Nat → Replies Priv Pub Secret) :
    EcdhApp Priv Pub Secret Unit :=
  forRange n fun i => A.iteration b (replies i)

/-- The loop of `main` with what precedes it; the unmeasured builds run one round. -/
def experiment (b : Build) (n : Nat) (replies : Nat → Replies Priv Pub Secret) :
    EcdhApp Priv Pub Secret Unit :=
  if b.isMeasured then do
    puts A.banner
    initTrigger b
    A.rounds b n replies
  else A.iteration b (replies 0)

/-- `main` with ITERATIONS `n`. -/
def main (b : Build) (n : Nat) (replies : Nat → Replies Priv Pub Secret) :
    EcdhApp Priv Pub Secret Unit :=
  func .main do
    A.setup.forM plainCall
    A.experiment b n replies
    onlyIf b.testStack (A.sizes.forM diag)
    A.teardown.forM plainCall
    puts "DONE"

end Application

namespace MicroEcc

/-- `_init_curve`. -/
def initCurve (b : Build) : EcdhApp Priv Pub Secret Unit :=
  func .initCurve <|
    if b.isMeasured then measured b (plainCall .uECCSecp256r1) else plainCall .uECCSecp256r1

def application : Application where
  banner := "'crypto-ewsn2020_ecdh uECC'"
  setup := []
  teardown := []
  sizes := ["ps()", "sizeof(userPrivKey1): %i\n", "sizeof(userPubKey1): %i\n"]
  prologue b _ := initCurve b
  usesCell := false
  localSecrets := false
  priv1 := .userPrivKey1
  pub1 := .userPubKey1
  priv2 := .userPrivKey2
  pub2 := .userPubKey2
  genFailed1 := .uECCKey1
  genFailed2 := ⟨"ERROR generating Key 2", false, by decide⟩
  derive1 := (.userPrivKey2, .userPubKey1)
  derive2 := (.userPrivKey1, .userPubKey2)
  deriveFailed1 := ⟨"ERROR generating shared secret 1", false, by decide⟩
  deriveFailed2 := ⟨"ERROR generating shared secret 2", false, by decide⟩
  priv_ne := by decide
  pub_ne := by decide
  crossed := .inr ⟨rfl, rfl⟩

end MicroEcc

namespace Cryptocell

/-- `_init_vars`. -/
def initVars : EcdhApp Priv Pub Secret Unit := plainCall .getEcDomain

def application : Application where
  banner := "'crypto-ewsn2020_ecdh_cryptocell'"
  setup := []
  teardown := []
  sizes := ["ps()", "sizeof(UserPrivKey1): %i\n", "sizeof(UserPubKey1): %i\n",
    "CRYS_ECDH_TempData_t: %i\n", "CRYS_ECPKI_KG_TempData_t: %i\n",
    "CRYS_ECPKI_KG_FipsContext_t: %i\n"]
  prologue b _ := if b.isMeasured then measured b initVars else initVars
  usesCell := true
  localSecrets := false
  priv1 := .userPrivKey1
  pub1 := .userPubKey1
  priv2 := .userPrivKey2
  pub2 := .userPubKey2
  genFailed1 := .genKeyPair1
  genFailed2 := ⟨"CRYS_ECPKI_GenKeyPair for key pair 2 failed with 0x%x \n", true, by decide⟩
  derive1 := (.userPrivKey1, .userPubKey2)
  derive2 := (.userPrivKey2, .userPubKey1)
  deriveFailed1 := ⟨" CRYS_ECDH_SVDP_DH for secret 1 failed with 0x%x \n", true, by decide⟩
  deriveFailed2 := ⟨" CRYS_ECDH_SVDP_DH for secret 2 failed with 0x%x \n", true, by decide⟩
  priv_ne := by decide
  pub_ne := by decide
  crossed := .inl ⟨rfl, rfl⟩

end Cryptocell

namespace Atecc608a

def keyId1 : Nat := 2

def keyId2 : Nat := 1

def application : Application where
  banner := "'crypto-ewsn2020_cryptocell_ecdh'"
  setup := []
  teardown := []
  sizes := ["ps()", "sizeof(UserPubKey1): %i\n"]
  prologue b _ := if b.isMeasured then measured b (pure ()) else pure ()
  usesCell := false
  localSecrets := true
  priv1 := .slot keyId1
  pub1 := .userPubKey1
  priv2 := .slot keyId2
  pub2 := .userPubKey2
  genFailed1 := .genkeyPubKey1
  genFailed2 := ⟨" atcab_genkey for PubKey2 failed with 0x%x \n", true, by decide⟩
  derive1 := (.slot keyId1, .userPubKey2)
  derive2 := (.slot keyId2, .userPubKey1)
  deriveFailed1 := ⟨" atcab_ecdh for secret 2 failed with 0x%x \n", true, by decide⟩
  deriveFailed2 := ⟨" atcab_ecdh for secret 2 failed with 0x%x \n", true, by decide⟩
  priv_ne := by decide
  pub_ne := by decide
  crossed := .inl ⟨rfl, rfl⟩

end Atecc608a

namespace Relic

def application : Application where
  banner := "'crypto-ewsn2020_ecdh'"
  setup := [.coreInit]
  teardown := [.coreClean]
  sizes := ["ps()", "sizeof(keyA): %i\n"]
  prologue b r := do
    let initA := do
      plainCall .epParamSet
      initMem .keyA .keyA r.blankA
    if b.isMeasured then do
      measured b initA
      initMem .keyB .keyB r.blankB
    else initA
  usesCell := false
  localSecrets := true
  priv1 := .keyA
  pub1 := .keyA
  priv2 := .keyB
  pub2 := .keyB
  genFailed1 := .relicKeyPair
  genFailed2 := .relicKeyPair
  derive1 := (.keyA, .keyB)
  derive2 := (.keyB, .keyA)
  deriveFailed1 := ⟨"ECDH secret A creation failed. Not good :( \n", false, by decide⟩
  deriveFailed2 := ⟨"ECDH secret B creation failed. Not good :( \n", false, by decide⟩
  priv_ne := by decide
  pub_ne := by decide
  crossed := .inl ⟨rfl, rfl⟩

end Relic

/-- The four key-agreement applications. -/
inductive Library where
  | microEcc
  | cryptocell
  | atecc608a
  | relic
deriving DecidableEq

def Library.application : Library → Application
  | .microEcc => MicroEcc.application
  | .cryptocell => Cryptocell.application
  | .atecc608a => Atecc608a.application
  | .relic => Relic.application

end Ecdh
