import EwsnCrypto.Ecc.Steps

/-!
# The four ECDSA applications

Each application generates a key pair, hashes a message of 127 bytes where its
library does not, signs, and verifies. A call is recorded with the values of
its arguments: the bytes that reach the primitive, the lengths and the flags.
The message is a parameter; the applications fill it with `ecdsaMessage`.
-/

open InputProgram Trigger EccSteps

namespace Ecdsa

abbrev messageSize : Nat := 127

abbrev digestSize : Nat := 32

abbrev Message : Type := Vector UInt8 messageSize

abbrev Digest : Type := Vector UInt8 digestSize

/-- `uint8_t msg[ECDSA_MESSAGE_SIZE] = { 0x0b };` -/
def ecdsaMessage : Message := (Vector.replicate messageSize 0).set 0 0x0b

/-- `CRYS_ECPKI_HASH_SHA256_mode`. -/
inductive HashMode where
  | sha256
deriving DecidableEq

/-- Library calls with their arguments. A key is named and given by value. -/
inductive Call (Priv Pub Sig : Type) where
  | genKeyPair (priv : PrivKey) (pub : PubKey)
  | sha256 (data : List UInt8) (len : Nat)
  | atcabHwSha2 (data : List UInt8) (len : Nat)
  | mdMapSh256 (data : List UInt8) (len : Nat)
  | uECCSign (priv : PrivKey) (key : Priv) (hash : List UInt8) (hashSize : Nat)
  | uECCVerify (pub : PubKey) (key : Pub) (hash : List UInt8) (hashSize : Nat) (signature : Sig)
  | atcabSign (priv : PrivKey) (key : Priv) (msg : List UInt8)
  | atcabVerifyExtern (msg : List UInt8) (signature : Sig) (pub : PubKey) (key : Pub)
  | cpEcdsaSig (msg : List UInt8) (len : Nat) (hash : Nat) (priv : PrivKey) (key : Priv)
  | cpEcdsaVer (signature : Sig) (msg : List UInt8) (len : Nat) (hash : Nat) (pub : PubKey)
      (key : Pub)
  | crysEcdsaSign (priv : PrivKey) (key : Priv) (mode : HashMode) (msg : List UInt8) (len : Nat)
      (size : Nat)
  | crysEcdsaVerify (pub : PubKey) (key : Pub) (mode : HashMode) (signature : Sig) (size : Nat)
      (msg : List UInt8) (len : Nat)
  | uECCSecp256r1
  | cryptocellEnable
  | cryptocellDisable
  | getEcDomain
  | coreInit
  | coreClean
  | epParamSet
  | initMem (priv : PrivKey) (pub : PubKey)
  | bnNew
deriving DecidableEq

section Memory
variable (Priv Pub Sig : Type)

/-- The key pair, the hash buffer, the signature and `ecdsa_sig_size`. The key pair and the
size are global; the other two are declared by `_sign_verify`. -/
structure Memory where
  priv : Priv
  pub : Pub
  hash : Digest
  signature : Sig
  sigSize : Nat

/-- What the library answers in one iteration, by the call it is asked.
`isVerified` is the flag that a successful `atcab_verify_extern` stores, `blank`
what RELIC's `bn_new` and `ec_new` leave in the keys, and `locals` what the buffers
of `_sign_verify` hold before anything is written to them. -/
structure Replies where
  gen : Except Nat (Priv × Pub)
  hash : Call Priv Pub Sig → Except Nat Digest
  sign : Call Priv Pub Sig → Except Nat (Sig × Nat)
  verify : Call Priv Pub Sig → Except Nat Unit
  isVerified : Call Priv Pub Sig → Bool
  blank : Priv × Pub
  locals : Digest × Sig

end Memory

/-- A library all of whose calls fail. -/
def failingReplies : Replies Unit Unit Unit where
  gen := .error 1
  hash _ := .error 1
  sign _ := .error 1
  verify _ := .error 1
  isVerified _ := false
  blank := ((), ())
  locals := (Vector.replicate digestSize 0, ())

variable {Priv Pub Sig : Type}

abbrev EcdsaApp (Priv Pub Sig α : Type) : Type :=
  App (Call Priv Pub Sig) (Memory Priv Pub Sig) α

def Memory.setPair (m : Memory Priv Pub Sig) (pair : Priv × Pub) : Memory Priv Pub Sig :=
  { m with priv := pair.1, pub := pair.2 }

def Memory.setLocals (m : Memory Priv Pub Sig) (locals : Digest × Sig) : Memory Priv Pub Sig :=
  { m with hash := locals.1, signature := locals.2 }

/-- The declarations of `hash` and of the signature at the head of `_sign_verify`: each call
of the function starts from contents of their own. -/
def declareLocals (r : Replies Priv Pub Sig) : EcdsaApp Priv Pub Sig Unit :=
  act fun m => ((), m.setLocals r.locals, [])

/-- `uECC_make_key`, `CRYS_ECPKI_GenKeyPair`, `atcab_genkey`, `cp_ecdsa_gen`. -/
def genKeyPair (priv : PrivKey) (pub : PubKey) (reply : Except Nat (Priv × Pub)) :
    EcdsaApp Priv Pub Sig (Except Nat (Priv × Pub)) :=
  libCall (fun _ => .genKeyPair priv pub) (fun _ => reply) fun pair m => m.setPair pair

/-- A hash call writes the hash buffer. -/
def hashCall (r : Replies Priv Pub Sig) (c : Call Priv Pub Sig) :
    EcdsaApp Priv Pub Sig (Except Nat Digest) :=
  libCall (fun _ => c) (fun _ => r.hash c) fun digest m => { m with hash := digest }

/-- A signing call writes the signature. -/
def signCall (r : Replies Priv Pub Sig) (c : Memory Priv Pub Sig → Call Priv Pub Sig) :
    EcdsaApp Priv Pub Sig (Except Nat (Sig × Nat)) :=
  libCall c (fun m => r.sign (c m)) fun sig m => { m with signature := sig.1 }

def verifyCall (r : Replies Priv Pub Sig) (c : Memory Priv Pub Sig → Call Priv Pub Sig) :
    EcdsaApp Priv Pub Sig (Except Nat Unit) :=
  libCall c (fun m => r.verify (c m)) fun _ m => m

/-- What distinguishes an application besides its `_sign_verify`. -/
structure Application where
  banner : String
  setup {Priv Pub Sig : Type} : Build → List (Event (Call Priv Pub Sig))
  teardown {Priv Pub Sig : Type} : List (Event (Call Priv Pub Sig))
  sizes : List String
  isMeasured : Build → Bool
  prologue {Priv Pub Sig : Type} (b : Build) (r : Replies Priv Pub Sig) :
    EcdsaApp Priv Pub Sig Unit
  usesCell : Bool
  priv : PrivKey
  pub : PubKey
  genFailed : Report
  signVerify {Priv Pub Sig : Type} (b : Build) (r : Replies Priv Pub Sig) (msg : Message) :
    EcdsaApp Priv Pub Sig Unit

/-- Between `cryptocell_enable()` and `cryptocell_disable()`. -/
def withCell {α : Type} (p : EcdsaApp Priv Pub Sig α) : EcdsaApp Priv Pub Sig α :=
  enclosed .cryptocellEnable .cryptocellDisable p

namespace Application
variable (A : Application)

def call {α : Type} (p : EcdsaApp Priv Pub Sig α) : EcdsaApp Priv Pub Sig α :=
  if A.usesCell then withCell p else p

/-- `_gen_keypair`. -/
def genKeypair (b : Build) (r : Replies Priv Pub Sig) : EcdsaApp Priv Pub Sig Unit :=
  func .genKeypair <|
    if A.isMeasured b then do
      match ← measured b (A.call (genKeyPair A.priv A.pub r.gen)) with
      | .error code => A.genFailed.print code
      | .ok _ => pure ()
    else do
      let _ ← A.call (genKeyPair A.priv A.pub r.gen)

/-- One round of the loop in `main`. -/
def iteration (b : Build) (r : Replies Priv Pub Sig) (msg : Message) :
    EcdsaApp Priv Pub Sig Unit := do
  A.prologue b r
  A.genKeypair b r
  func .signVerify (A.signVerify b r msg)

def rounds (b : Build) (n : Nat) (replies : Nat → Replies Priv Pub Sig) (msg : Message) :
    EcdsaApp Priv Pub Sig Unit :=
  forRange n fun i => A.iteration b (replies i) msg

/-- The loop of `main` with what precedes it; the unmeasured builds run one round. -/
def experiment (b : Build) (n : Nat) (replies : Nat → Replies Priv Pub Sig) (msg : Message) :
    EcdsaApp Priv Pub Sig Unit :=
  if A.isMeasured b then do
    puts A.banner
    initTrigger b
    A.rounds b n replies msg
  else A.iteration b (replies 0) msg

/-- `main` with ITERATIONS `n`. -/
def main (b : Build) (n : Nat) (replies : Nat → Replies Priv Pub Sig) (msg : Message) :
    EcdsaApp Priv Pub Sig Unit :=
  func .main do
    (A.setup b).forM emit
    A.experiment b n replies msg
    onlyIf b.testStack (A.sizes.forM diag)
    A.teardown.forM emit
    puts "DONE"

end Application

namespace MicroEcc

/-- `_init_curve`. -/
def initCurve (b : Build) : EcdsaApp Priv Pub Sig Unit :=
  func .initCurve <|
    if b.isMeasured then measured b (plainCall .uECCSecp256r1) else plainCall .uECCSecp256r1

section Calls
variable (r : Replies Priv Pub Sig)

def sha256 (msg : Message) : EcdsaApp Priv Pub Sig (Except Nat Digest) :=
  hashCall r (.sha256 msg.toList messageSize)

def sign : EcdsaApp Priv Pub Sig (Except Nat (Sig × Nat)) :=
  signCall r fun m => .uECCSign .userPrivKey1 m.priv m.hash.toList digestSize

def verify : EcdsaApp Priv Pub Sig (Except Nat Unit) :=
  verifyCall r fun m => .uECCVerify .userPubKey1 m.pub m.hash.toList digestSize m.signature

end Calls

/-- `_sign_verify`. -/
def signVerify (b : Build) (r : Replies Priv Pub Sig) (msg : Message) :
    EcdsaApp Priv Pub Sig Unit := do
  declareLocals r
  if b.isMeasured then do
    let _ ← measured b (sha256 r msg)
    match ← measured b (sign r) with
    | .error _ => puts "ERROR generating shared secret 1"
    | .ok _ =>
      match ← measured b (verify r) with
      | .error _ => puts "INVALID"
      | .ok _ => puts "VALID"
  else do
    let _ ← sha256 r msg
    let _ ← sign r
    let _ ← verify r

def application : Application where
  banner := "'crypto-ewsn2020_ecdsa uECC'"
  setup _ := []
  teardown := []
  sizes := ["ps()", "sizeof(userPrivKey1): %i\n", "sizeof(userPubKey1): %i\n"]
  isMeasured := Build.isMeasured
  prologue b _ := initCurve b
  usesCell := false
  priv := .userPrivKey1
  pub := .userPubKey1
  genFailed := .uECCKey1
  signVerify := signVerify

end MicroEcc

namespace Cryptocell

/-- This application tests COSY_TEST where the others test TEST_MEM. -/
def isMeasured (b : Build) : Bool := !b.cosyTest && !b.testStack

/-- `_init_vars`. -/
def initVars : EcdsaApp Priv Pub Sig Unit := plainCall .getEcDomain

section Calls
variable (r : Replies Priv Pub Sig)

/-- `CRYS_ECDSA_Sign` reads `ecdsa_sig_size` and stores the size of the signature there. -/
def sign (msg : Message) : EcdsaApp Priv Pub Sig (Except Nat (Sig × Nat)) :=
  let c := fun m : Memory Priv Pub Sig =>
    Call.crysEcdsaSign .userPrivKey m.priv .sha256 msg.toList messageSize m.sigSize
  libCall c (fun m => r.sign (c m)) fun sig m => { m with signature := sig.1, sigSize := sig.2 }

def verify (msg : Message) : EcdsaApp Priv Pub Sig (Except Nat Unit) :=
  verifyCall r fun m =>
    .crysEcdsaVerify .userPubKey m.pub .sha256 m.signature m.sigSize msg.toList messageSize

end Calls

/-- `_sign_verify`; the library hashes the message. -/
def signVerify (b : Build) (r : Replies Priv Pub Sig) (msg : Message) :
    EcdsaApp Priv Pub Sig Unit := do
  declareLocals r
  if isMeasured b then do
    match ← measured b (withCell (sign r msg)) with
    | .error code => printf "CRYS_ECDSA_Sign failed with 0x%x \n" code
    | .ok _ =>
      match ← measured b (withCell (verify r msg)) with
      | .error code => printf "CRYS_ECDSA_Verify failed with 0x%x \n" code
      | .ok _ => puts "VALID"
  else do
    let _ ← withCell (sign r msg)
    let _ ← withCell (verify r msg)

def application : Application where
  banner := "'crypto-ewsn2020_ecdsa cryptocell'"
  setup _ := []
  teardown := []
  sizes := ["ps()", "sizeof(UserPrivKey): %i\n", "sizeof(UserPubKey): %i\n",
    "sizeof(UserPrivKey.PrivKeyDbBuff): %i\n", "sizeof(UserPrivKey.PrivKeyDbBuff.valid_tag): %i\n",
    "sizeof(CRYS_ECPKI_Domain_t): %i\n", "sizeof(CRYS_ECPKI_ScaProtection_t): %i\n",
    "sizeof(UserPubKey.PublKeyDbBuff): %i\n", "sizeof(CRYS_ECDSA_SignUserContext_t): %i\n",
    "sizeof(CRYS_ECDSA_VerifyUserContext_t): %i\n", "", "UserPrivKey: %i\n",
    "UserPublKey: %i\n", "signOutBuff: %i\n", "SignUserContext: %i\n",
    "VerifyUserContext: %i\n", "TempECCKGBuff: %i\n", "FipsBuff: %i\n",
    "rndGenerateVectFunc: %i\n"]
  isMeasured := isMeasured
  prologue b _ := if isMeasured b then measured b initVars else initVars
  usesCell := true
  priv := .userPrivKey
  pub := .userPubKey
  genFailed := .genKeyPair1
  signVerify := signVerify

end Cryptocell

namespace Atecc608a

def keyId : Nat := 1

section Calls
variable (r : Replies Priv Pub Sig)

def hwSha2 (msg : Message) : EcdsaApp Priv Pub Sig (Except Nat Digest) :=
  hashCall r (.atcabHwSha2 msg.toList messageSize)

def sign (msg : Message) : EcdsaApp Priv Pub Sig (Except Nat (Sig × Nat)) :=
  signCall r fun m => .atcabSign (.slot keyId) m.priv msg.toList

/-- `atcab_verify_extern(msg, signature, UserPubKey, &is_verified)`; the result
is the flag, which stays false when the call fails. -/
def verifyExtern (msg : Message) : EcdsaApp Priv Pub Sig (Except Nat Bool) := do
  let c := fun m : Memory Priv Pub Sig =>
    Call.atcabVerifyExtern msg.toList m.signature .userPubKey m.pub
  libCall c (fun m => (r.verify (c m)).map fun _ => r.isVerified (c m)) fun _ m => m

end Calls

/-- `_sign_verify`; the digest is computed but `msg` is signed. -/
def signVerify (b : Build) (r : Replies Priv Pub Sig) (msg : Message) :
    EcdsaApp Priv Pub Sig Unit := do
  declareLocals r
  if b.isMeasured then do
    let _ ← measured b (hwSha2 r msg)
    match ← measured b (sign r msg) with
    | .error code => printf " Signing failed with 0x%x \n" code
    | .ok _ =>
      match ← measured b (verifyExtern r msg) with
      | .error code => printf " Verifying failed with 0x%x \n" code
      | .ok isVerified => puts (if isVerified then "VALID" else "INVALID")
  else do
    let _ ← hwSha2 r msg
    let _ ← sign r msg
    let _ ← verifyExtern r msg

def application : Application where
  banner := "'crypto-ewsn2020_ecdsa'"
  setup _ := []
  teardown := []
  sizes := ["ps()", "sizeof(UserPubKey): %i\n"]
  isMeasured := Build.isMeasured
  prologue b _ := if b.isMeasured then measured b (pure ()) else pure ()
  usesCell := false
  priv := .slot keyId
  pub := .userPubKey
  genFailed := .genkeyPubKey1
  signVerify := signVerify

end Atecc608a

namespace Relic

/-- `_init_mem`. -/
def initMem (blank : Priv × Pub) : EcdsaApp Priv Pub Sig Unit := do
  plainCall .epParamSet
  act fun m => ((), m.setPair blank, [.call (.initMem .keyA .keyA) true])

section Calls
variable (r : Replies Priv Pub Sig)

def mdMapSh256 (msg : Message) : EcdsaApp Priv Pub Sig (Except Nat Digest) :=
  hashCall r (.mdMapSh256 msg.toList messageSize)

def sig (hash : Nat) : EcdsaApp Priv Pub Sig (Except Nat (Sig × Nat)) :=
  signCall r fun m => .cpEcdsaSig m.hash.toList digestSize hash .keyA m.priv

def ver (hash : Nat) : EcdsaApp Priv Pub Sig (Except Nat Unit) :=
  verifyCall r fun m => .cpEcdsaVer m.signature m.hash.toList digestSize hash .keyA m.pub

end Calls

/-- `_sign_verify`; the signature is the pair `r`, `s` that `bn_new` makes anew. The
unmeasured builds pass another hash flag. -/
def signVerify (b : Build) (r : Replies Priv Pub Sig) (msg : Message) :
    EcdsaApp Priv Pub Sig Unit := do
  declareLocals r
  plainCall .bnNew
  plainCall .bnNew
  if b.isMeasured then do
    let _ ← measured b (mdMapSh256 r msg)
    let _ ← measured b (sig r 1)
    match ← measured b (ver r 1) with
    | .error _ => puts "INVALID"
    | .ok _ => puts "VALID"
  else do
    let _ ← mdMapSh256 r msg
    let _ ← sig r 0
    let _ ← ver r 0

/-- The lines about the RELIC build; the curve options print further lines. -/
def setup (b : Build) : List (Event (Call Priv Pub Sig)) :=
  .call .coreInit true ::
    if b.testStack then []
    else [.diag "sizeof(first_ctx.ep_pre):%i\n", .diag "EP_SIM: %d\n", .diag "EP_*",
      .diag "EP_DEPTH: %d\n", .diag "EP_WIDTH: %d\n", .diag "EP_METHD: %s\n",
      .diag "RELIC_EP_TABLE: %i\n"]

def application : Application where
  banner := "'crypto-ewsn2020_ecdsa'"
  setup := setup
  teardown := [.call .coreClean true]
  sizes := ["ps()", "sizeof(keyA.pub): %i\n", "sizeof(keyA.priv): %i\n"]
  isMeasured := Build.isMeasured
  prologue b r := if b.isMeasured then measured b (initMem r.blank) else initMem r.blank
  usesCell := false
  priv := .keyA
  pub := .keyA
  genFailed := .relicKeyPair
  signVerify := signVerify

end Relic

/-- The four signature applications. -/
inductive Library where
  | microEcc
  | cryptocell
  | atecc608a
  | relic
deriving DecidableEq

def Library.application : Library → Application
  | .microEcc => MicroEcc.application
  | .cryptocell => Cryptocell.application
  | .atecc608a => Atecc608a.application
  | .relic => Relic.application

section Events
variable {lib : Library} {b : Build} {e : Event (Call Priv Pub Sig)}

theorem mem_setup (he : e ∈ lib.application.setup b) :
    e = .call .coreInit true ∨ ∃ format, e = .diag format := by
  cases lib with
  | relic =>
    rcases List.mem_cons.mp he with rfl | hdiag
    · exact .inl rfl
    · split at hdiag
      · exact absurd hdiag List.not_mem_nil
      · simp only [List.mem_cons, List.not_mem_nil, or_false] at hdiag
        rcases hdiag with rfl | rfl | rfl | rfl | rfl | rfl | rfl <;> exact .inr ⟨_, rfl⟩
  | _ => exact absurd he List.not_mem_nil

theorem mem_teardown (he : e ∈ lib.application.teardown) : e = .call .coreClean true := by
  cases lib with
  | relic => exact List.mem_singleton.mp he
  | _ => exact absurd he List.not_mem_nil

end Events

end Ecdsa
