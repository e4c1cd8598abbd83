import EwsnCrypto.Aes.Backend
import EwsnCrypto.Trigger

/-!
# The energy measurements of section 5

`exp_frame` measures one AES operation in every round, and `sha256_test_energy` is
the same loop around a hash. The output buffer of `exp_frame` belongs to its caller
and lives through all rounds; a round ends by comparing it with the expected bytes.
-/

open InputProgram Trigger

namespace Section5

/-- The build macros. With MODULE_CRYPTOAUTHLIB the key stays on the chip, and with
USE_XTIMER the sync pin is not used. -/
structure EnergyBuild where
  useXtimer : Bool
  cryptoauthlib : Bool
  testStack : Bool
  testMem : Bool
deriving DecidableEq

def EnergyBuild.isMeasured (b : EnergyBuild) : Bool := !b.testStack && !b.testMem

/-- The builds that measure. -/
def EnergyBuild.measured (useXtimer cryptoauthlib : Bool) : EnergyBuild :=
  ⟨useXtimer, cryptoauthlib, false, false⟩

/-- The build that measures in step with the sync pin. -/
def EnergyBuild.synchronised (cryptoauthlib : Bool) : EnergyBuild := .measured false cryptoauthlib

section Frame
variable {C σ : Type}

/-- What precedes the loop: the start pin is high. -/
def prepare (b : EnergyBuild) (sleep : C) : App C σ Unit := do
  gpioSet .active
  if b.useXtimer then emit (.call sleep true) else gpioInit .sync .input

/-- One round of the loop around the operation and its check. -/
def frameRound (b : EnergyBuild) (op check : App C σ Unit) : App C σ Unit := do
  onlyIf (!b.useXtimer) do
    whileSyncHigh
    whileSyncLow
  gpioClear .active
  op
  gpioSet .aesKey
  gpioSet .active
  gpioClear .aesKey
  check

/-- The first lines of `main`. -/
def initPins : App C σ Unit := do
  gpioInit .active .output
  gpioClear .active
  gpioInit .aesKey .output
  gpioClear .aesKey

/-- `ps(); printf("sizeof(ctx): %i\n", sizeof(ctx));` and the last line. -/
def finish (b : EnergyBuild) : App C σ Unit := do
  onlyIf b.testStack do
    diag "ps()"
    diag "sizeof(ctx): %i\n"
  puts "DONE"

end Frame

section Aes
open Aes

/-- TEST_ENERGY_AES_CBC_ENC and its three siblings. -/
inductive CipherTest where
  | cbcEnc
  | cbcDec
  | ecbEnc
  | ecbDec
deriving DecidableEq

variable {len : Nat}

abbrev AesApp (len : Nat) (α : Type) : Type := App Call (Buffer len) α

def aesInit (v : TestVectors len) (r : Replies len) : AesApp len Unit :=
  emit (.call (.aesInit v.key.toList) (decide (1 ≤ r.init)))

/-- A cipher call writes to `data`; its return code is dropped. -/
def cipherCall (c : Call) (answer : Answer len) : AesApp len Unit :=
  act fun data => ((), patch answer.writes data, [.call c (decide (0 ≤ answer.code))])

def aesEncryptCbc (v : TestVectors len) (r : Replies len) : AesApp len Unit :=
  cipherCall (.aesEncryptCbc v.cbcIv.toList v.cbcPlain.toList) r.encrypt

def aesDecryptCbc (v : TestVectors len) (r : Replies len) : AesApp len Unit :=
  cipherCall (.aesDecryptCbc v.cbcIv.toList v.cbcCipher.toList) r.decrypt

def aesEncryptEcb (v : TestVectors len) (r : Replies len) : AesApp len Unit :=
  cipherCall (.aesEncryptEcb v.ecbPlain.toList) r.encrypt

def aesDecryptEcb (v : TestVectors len) (r : Replies len) : AesApp len Unit :=
  cipherCall (.aesDecryptEcb v.ecbCipher.toList) r.decrypt

/-- The measured call. -/
def CipherTest.call (t : CipherTest) (v : TestVectors len) (r : Replies len) : AesApp len Unit :=
  match t with
  | .cbcEnc => aesEncryptCbc v r
  | .cbcDec => aesDecryptCbc v r
  | .ecbEnc => aesEncryptEcb v r
  | .ecbDec => aesDecryptEcb v r

/-- The answer to the measured call. -/
def CipherTest.answer (t : CipherTest) (r : Replies len) : Answer len :=
  match t with
  | .cbcEnc | .ecbEnc => r.encrypt
  | .cbcDec | .ecbDec => r.decrypt

/-- `data_exp`. -/
def CipherTest.expected (t : CipherTest) (v : TestVectors len) : Buffer len :=
  match t with
  | .cbcEnc => v.cbcCipher
  | .cbcDec => v.cbcPlain
  | .ecbEnc => v.ecbCipher
  | .ecbDec => v.ecbPlain

/-- The calls of the unmeasured builds. -/
def CipherTest.unmeasured (t : CipherTest) (v : TestVectors len) (r : Replies len) :
    AesApp len Unit := do
  aesInit v r
  match t with
  | .cbcEnc | .cbcDec =>
    aesEncryptCbc v r
    aesDecryptCbc v r
  | .ecbEnc | .ecbDec =>
    aesEncryptEcb v r
    aesDecryptEcb v r

/-- `if (memcmp(data, data_exp, len_exp)) { LED0_ON; }` -/
def checkData (dataExp : Buffer len) : AesApp len Unit :=
  act fun data => ((), data, if data ≠ dataExp then [.led0On] else [])

/-- What runs inside the window of round `i`. -/
def operation (b : EnergyBuild) (v : TestVectors len) (t : CipherTest) (r : Replies len) :
    AesApp len Unit := do
  onlyIf (!b.cryptoauthlib) (aesInit v r)
  t.call v r

def expRound (b : EnergyBuild) (v : TestVectors len) (t : CipherTest) (r : Replies len) :
    AesApp len Unit :=
  frameRound b (operation b v t r) (checkData (t.expected v))

/-- The loop of `exp_frame` with TEST_ENERGY_ITER `n`. -/
def expRounds (b : EnergyBuild) (v : TestVectors len) (t : CipherTest) (n : Nat)
    (replies : Nat → Replies len) : AesApp len Unit :=
  forRange n fun i => expRound b v t (replies i)

def expFrame (b : EnergyBuild) (v : TestVectors len) (t : CipherTest) (n : Nat)
    (replies : Nat → Replies len) : AesApp len Unit := do
  if b.isMeasured then
    onlyIf b.cryptoauthlib (aesInit v (replies 0))
    prepare b (.xtimerSleep 5)
    expRounds b v t n replies
  else t.unmeasured v (replies 0)
  finish b

def aesCbcEncTestEnergy (b : EnergyBuild) (v : TestVectors len) (n : Nat)
    (replies : Nat → Replies len) : AesApp len Unit := expFrame b v .cbcEnc n replies

def aesCbcDecTestEnergy (b : EnergyBuild) (v : TestVectors len) (n : Nat)
    (replies : Nat → Replies len) : AesApp len Unit := expFrame b v .cbcDec n replies

def aesEcbEncTestEnergy (b : EnergyBuild) (v : TestVectors len) (n : Nat)
    (replies : Nat → Replies len) : AesApp len Unit := expFrame b v .ecbEnc n replies

def aesEcbDecTestEnergy (b : EnergyBuild) (v : TestVectors len) (n : Nat)
    (replies : Nat → Replies len) : AesApp len Unit := expFrame b v .ecbDec n replies

/-- `main` of a build for one of the AES energy tests. -/
def aesMain (b : EnergyBuild) (v : TestVectors len) (t : CipherTest) (n : Nat)
    (replies : Nat → Replies len) : AesApp len Unit := do
  initPins
  match t with
  | .cbcEnc => aesCbcEncTestEnergy b v n replies
  | .cbcDec => aesCbcDecTestEnergy b v n replies
  | .ecbEnc => aesEcbEncTestEnergy b v n replies
  | .ecbDec => aesEcbDecTestEnergy b v n replies

/-- What a measured build does before its loop. -/
def aesStart (b : EnergyBuild) (v : TestVectors len) (r : Replies len) : AesApp len Unit := do
  initPins
  onlyIf b.cryptoauthlib (aesInit v r)
  prepare b (.xtimerSleep 5)

theorem aesMain_measured (useXtimer cryptoauthlib : Bool) (v : TestVectors len) (t : CipherTest)
    (n : Nat) (replies : Nat → Replies len) :
    aesMain (.measured useXtimer cryptoauthlib) v t n replies = (do
      aesStart (.measured useXtimer cryptoauthlib) v (replies 0)
      expRounds (.measured useXtimer cryptoauthlib) v t n replies
      finish (.measured useXtimer cryptoauthlib)) := by
  cases t <;> simp [aesMain, aesCbcEncTestEnergy, aesCbcDecTestEnergy, aesEcbEncTestEnergy,
    aesEcbDecTestEnergy, expFrame, aesStart, EnergyBuild.measured, EnergyBuild.isMeasured]

end Aes

section Sha256

abbrev Digest : Type := Vector UInt8 32

inductive HashCall where
  | sha256Init
  | sha256Update (data : String) (size : Nat)
  | sha256Final
  | xtimerSleep (seconds : Nat)
deriving DecidableEq

abbrev HashApp (α : Type) : Type := App HashCall Digest α

/-- `"Lorem ipsum ..."`, the input of the INPUT_512 builds. -/
def loremIpsum : String :=
  "Lorem ipsum dolor sit amet, consetetur sadipscing elitr, sed diam nonumy eirmod tempor " ++
  "invidunt ut labore et dolore magna aliquyam erat, sed diam voluptua. At vero eos et accusam " ++
  "et justo duo dolores et ea rebum. Stet clita kasd gubergren, no sea takimata sanctus est " ++
  "Lorem ipsum dolor sit amet. Lorem ipsum dolor sit amet, consetetur sadipscing elitr, sed " ++
  "diam nonumy eirmod tempor invidunt ut labore et dolore magna aliquyam erat, sed diam " ++
  "voluptua. At vero eos et accusam et justo duo dolores et ea rebum. Ste"

/-- `EXPECTED_RESULT_SHA256` of the default build. -/
def expectedResultSha256 : Digest :=
  #v[0x65, 0x0C, 0x3A, 0xC7, 0xF9, 0x33, 0x17, 0xD3,
    0x96, 0x31, 0xD3, 0xF5, 0xC5, 0x5B, 0x0A, 0x1E,
    0x96, 0x68, 0x04, 0xE2, 0x73, 0xC3, 0x8F, 0x93,
    0x9C, 0xB1, 0x45, 0x4D, 0xC2, 0x69, 0x7D, 0x20]

/-- `SHA_TESTSTRING`, `SHA_TESTSTR_SIZE` and `EXPECTED_RESULT_SHA256`. -/
structure ShaVectors where
  input : String
  size : Nat
  expected : Digest

/-- The input and its digest, by the macro INPUT_512. -/
def shaVectors (input512 : Bool) : ShaVectors :=
  if input512 then
    ⟨loremIpsum, 512,
      #v[0xB5, 0xB7, 0x56, 0xD2, 0x6F, 0x8C, 0xDF, 0x6B,
        0xA3, 0xCC, 0xB8, 0x12, 0x5C, 0xE4, 0x4D, 0x0F,
        0xDD, 0x1C, 0x4C, 0xF1, 0x6E, 0x41, 0x9F, 0xED,
        0x52, 0x79, 0x2E, 0x1A, 0x9C, 0x47, 0xDF, 0x2B]⟩
  else ⟨"This is a teststring fore sha256", 32, expectedResultSha256⟩

/-- Hashing of the test string into `sha256_result`. -/
def sha256 (v : ShaVectors) (result : Digest) : HashApp Unit := do
  emit (.call .sha256Init true)
  emit (.call (.sha256Update v.input v.size) true)
  act fun _ => ((), result, [.call .sha256Final true])

def checkDigest (expected : Digest) : HashApp Unit :=
  act fun result => ((), result, if result ≠ expected then [.led0On] else [])

/-- The loop of `sha256_test_energy`, by the digests that the library computes. -/
def sha256Rounds (b : EnergyBuild) (v : ShaVectors) (n : Nat) (results : Nat → Digest) :
    HashApp Unit :=
  forRange n fun i => frameRound b (sha256 v (results i)) (checkDigest v.expected)

def sha256TestEnergy (b : EnergyBuild) (v : ShaVectors) (n : Nat) (results : Nat → Digest) :
    HashApp Unit := do
  if b.isMeasured then
    prepare b (.xtimerSleep 5)
    sha256Rounds b v n results
  else sha256 v (results 0)
  finish b

/-- `main` of a build for the SHA-256 energy test. -/
def sha256Main (b : EnergyBuild) (v : ShaVectors) (n : Nat) (results : Nat → Digest) :
    HashApp Unit := do
  initPins
  sha256TestEnergy b v n results

end Sha256

end Section5
