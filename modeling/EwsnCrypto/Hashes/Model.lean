import EwsnCrypto.Energy.Section5

/-!
# The hash tests of section 5

`hmac_sha256_test_energy` measures a keyed hash in every round, like its sibling for
SHA-256. The runtime tests raise the trace pin around each of the three library calls
instead, and print a verdict. Their result buffer stands outside the loop and is never
cleared.
-/

open InputProgram Trigger Section5

namespace Hashes

def bytes (text : String) : List UInt8 := text.toList.map fun c => UInt8.ofNat c.toNat

/-- `HMAC_KEY`, `KEY_SIZE`, `HMAC_INPUT`, `HMAC_INPUT_SIZE` and `EXPECTED_RESULT`. -/
structure HmacVectors where
  key : List UInt8
  keySize : Nat
  input : List UInt8
  size : Nat
  expected : Digest

def hmacKey : List UInt8 := List.replicate 64 0x0b

/-- `HMAC_INPUT` of the default build. -/
def hmacInput : List UInt8 :=
  [0x54, 0x68, 0x69, 0x73, 0x20, 0x69, 0x73, 0x20,
    0x61, 0x20, 0x74, 0x65, 0x73, 0x74, 0x73, 0x74,
    0x72, 0x69, 0x6e, 0x67, 0x20, 0x66, 0x6f, 0x72,
    0x20, 0x68, 0x6d, 0x61, 0x63, 0x32, 0x35, 0x36]

/-- `EXPECTED_RESULT` by the macros HMAC_64 and INPUT_512. -/
def expectedResult (hmac64 input512 : Bool) : Digest :=
  if input512 then
    if hmac64 then
      #v[0xa1, 0x7f, 0x58, 0x90, 0xf8, 0x76, 0xd1, 0xb5,
        0xb4, 0xaa, 0x5e, 0xf2, 0x8f, 0xad, 0xd4, 0x55,
        0x24, 0xb0, 0x69, 0xe2, 0x42, 0x07, 0x6a, 0x91,
        0x1b, 0x73, 0x57, 0xe5, 0x6e, 0xff, 0x20, 0x51]
    else
      #v[0x61, 0xdc, 0x98, 0xc4, 0xaa, 0xa5, 0xab, 0xa6,
        0x3a, 0x54, 0xc7, 0xaa, 0xe8, 0x56, 0xbc, 0xd3,
        0x9d, 0x3e, 0xc4, 0x5e, 0x7c, 0x71, 0xe2, 0x9f,
        0x5f, 0x51, 0x18, 0x6f, 0x39, 0x5b, 0xac, 0xef]
  else if hmac64 then
    #v[0x39, 0x38, 0x66, 0x75, 0xdc, 0xc9, 0xe1, 0x86,
      0x58, 0xac, 0xfe, 0x34, 0x05, 0x79, 0xe5, 0x1b,
      0x20, 0x02, 0x8d, 0xc6, 0x3c, 0x70, 0xaf, 0x80,
      0xe5, 0x2d, 0xe4, 0x22, 0x7a, 0x41, 0x0c, 0x70]
  else
    #v[0xae, 0xd3, 0x6c, 0x93, 0x74, 0xe0, 0xac, 0x31,
      0xd8, 0x69, 0x55, 0x1e, 0xf9, 0x41, 0xad, 0x17,
      0xcc, 0xe9, 0xea, 0xd0, 0x0b, 0xd2, 0x6b, 0xf4,
      0xbc, 0x21, 0x03, 0xba, 0xaa, 0xaa, 0x0a, 0xb6]

/-- The energy test has the key size 64 in every build. -/
def hmacVectors (hmac64 input512 : Bool) : HmacVectors where
  key := hmacKey
  keySize := if hmac64 then 64 else 32
  input := if input512 then bytes loremIpsum else hmacInput
  size := if input512 then 512 else 32
  expected := expectedResult hmac64 input512

theorem length_of_append {s t : String} {m n : Nat} (hs : s.length = m) (ht : t.length = n) :
    (s ++ t).length = m + n := by
  rw [String.length_append, hs, ht]

theorem loremIpsum_length : loremIpsum.length = 512 := by
  refine length_of_append (m := 442) (n := 70) ?_ (by decide +kernel)
  refine length_of_append (m := 357) (n := 85) ?_ (by decide +kernel)
  refine length_of_append (m := 268) (n := 89) ?_ (by decide +kernel)
  refine length_of_append (m := 179) (n := 89) ?_ (by decide +kernel)
  exact length_of_append (m := 87) (n := 92) (by decide +kernel) (by decide +kernel)

/-- The sizes are written down beside the data. No hash reads behind its input or its key. -/
theorem sizes_fit (hmac64 input512 : Bool) :
    (shaVectors input512).size = (shaVectors input512).input.length ∧
      (hmacVectors hmac64 input512).size = (hmacVectors hmac64 input512).input.length ∧
      (hmacVectors hmac64 input512).keySize ≤ (hmacVectors hmac64 input512).key.length := by
  have hbytes : (bytes loremIpsum).length = 512 := by
    rw [bytes, List.length_map, String.length_toList, loremIpsum_length]
  have hshort : "This is a teststring fore sha256".length = 32 := rfl
  cases input512 <;> cases hmac64 <;>
    simp [shaVectors, hmacVectors, loremIpsum_length, hbytes, hshort, hmacInput, hmacKey]

inductive HmacCall where
  | hmacSha256Init (key : List UInt8) (keySize : Nat)
  | hmacSha256Update (data : List UInt8) (size : Nat)
  | hmacSha256Final
  | xtimerSleep (seconds : Nat)
deriving DecidableEq

section Energy

abbrev HmacApp (α : Type) : Type := App HmacCall Digest α

/-- Hashing of the input into `hmac_result`. -/
def hmacSha256 (v : HmacVectors) (result : Digest) : HmacApp Unit := do
  emit (.call (.hmacSha256Init v.key v.keySize) true)
  emit (.call (.hmacSha256Update v.input v.size) true)
  act fun _ => ((), result, [.call .hmacSha256Final true])

def checkHmac (expected : Digest) : HmacApp Unit :=
  act fun result => ((), result, if result ≠ expected then [.led0On] else [])

/-- The loop of `hmac_sha256_test_energy`, by the results that the library computes. -/
def hmacSha256Rounds (b : EnergyBuild) (v : HmacVectors) (n : Nat) (results : Nat → Digest) :
    HmacApp Unit :=
  forRange n fun i => frameRound b (hmacSha256 v (results i)) (checkHmac v.expected)

def hmacSha256TestEnergy (b : EnergyBuild) (v : HmacVectors) (n : Nat) (results : Nat → Digest) :
    HmacApp Unit := do
  if b.isMeasured then
    prepare b (.xtimerSleep 5)
    hmacSha256Rounds b v n results
  else hmacSha256 v (results 0)
  finish b

/-- `main` of a build for the HMAC energy test. -/
def hmacSha256Main (b : EnergyBuild) (v : HmacVectors) (n : Nat) (results : Nat → Digest) :
    HmacApp Unit := do
  initPins
  hmacSha256TestEnergy b v n results

end Energy

section Runtime

/-- What a runtime test shows: the trace pin, the calls, and lines. -/
inductive TestEvent (C : Type) where
  | gpioWrite (high : Bool)
  | call (c : C)
  | printf (format : String) (args : List Nat)
deriving DecidableEq

/-- A program on the result buffer; nothing is read. -/
abbrev TestApp (C α : Type) : Type := Prog Empty (TestEvent C) Digest α

variable {C : Type}

/-- `gpio_set(active_gpio); call; gpio_clear(active_gpio);` -/
def inWindow (p : TestApp C Unit) : TestApp C Unit := do
  emit (.gpioWrite true)
  p
  emit (.gpioWrite false)

section Text
variable (sleep init update final : C) (failure success : String) (expected : Digest) (n : Nat)
variable (writes : Nat → Aes.Writes 32)

/-- One iteration of both tests. The last call writes to the result. -/
def hashIteration (i : Nat) : TestApp C Unit := do
  emit (.printf "Iteration %i/%i\n" [i, n])
  inWindow (emit (.call init))
  inWindow (emit (.call update))
  inWindow (act fun result => ((), Aes.patch (writes i) result, [.call final]))
  act fun result => ((), result, [.printf (if result ≠ expected then failure else success) []])

def hashTest : TestApp C Unit := do
  emit (.call sleep)
  forRange n (hashIteration init update final failure success expected n writes)

end Text

/-- `sha256_test` with TEST_ENERGY_ITER `n`. -/
def sha256Test (v : ShaVectors) (n : Nat) (writes : Nat → Aes.Writes 32) :
    TestApp HashCall Unit :=
  hashTest (.xtimerSleep 1) .sha256Init (.sha256Update v.input v.size) .sha256Final
    "SHA-256 Failure\n" "SHA-256 Success\n" v.expected n writes

/-- `hmac_sha256_test` with TEST_ENERGY_ITER `n`. -/
def hmacSha256Test (v : HmacVectors) (n : Nat) (writes : Nat → Aes.Writes 32) :
    TestApp HmacCall Unit :=
  hashTest (.xtimerSleep 1) (.hmacSha256Init v.key v.keySize) (.hmacSha256Update v.input v.size)
    .hmacSha256Final "HMAC SHA-256 Failure\n" "HMAC SHA-256 Success\n" v.expected n writes

end Runtime

end Hashes
