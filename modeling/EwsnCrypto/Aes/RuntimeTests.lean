import EwsnCrypto.Aes.Backend
import EwsnCrypto.Base.InputProgram

/-!
# The AES runtime tests of section 5

`aes_cbc_test` and `aes_ecb_test` encrypt and decrypt the reference texts in every
iteration and print a verdict. They keep one output buffer, cleared once, and they
differ in what they do about a failed `aes_init` and about a wrong ciphertext.
-/

open InputProgram Aes

namespace RuntimeTests

variable {len : Nat}

/-- What a test shows: the trace pin, the calls with their return codes, and lines. -/
inductive Event where
  | gpioWrite (high : Bool)
  | call (c : Call) (code : Int)
  | printf (format : String) (args : List Int)
  | puts (line : String)
deriving DecidableEq

/-- A program on the buffer `data`; nothing is read. -/
abbrev TestApp (len : Nat) (α : Type) : Type := Prog Empty Event (Buffer len) α

def gpioSet : TestApp len Unit := emit (.gpioWrite true)

def gpioClear : TestApp len Unit := emit (.gpioWrite false)

def printf (format : String) (args : List Int) : TestApp len Unit := emit (.printf format args)

def puts (line : String) : TestApp len Unit := emit (.puts line)

def aesInit (v : TestVectors len) (r : Replies len) : TestApp len Int :=
  act fun data => (r.init, data, [.call (.aesInit v.key.toList) r.init])

def cipherCall (c : Call) (answer : Answer len) : TestApp len Int :=
  act fun data => (answer.code, patch answer.writes data, [.call c answer.code])

/-- `memcmp(data, ref, ref_len)`. -/
def memcmp (ref : Buffer len) : TestApp len Bool :=
  act fun data => (decide (data ≠ ref), data, [])

/-- One iteration of `aes_cbc_test`. -/
def cbcIteration (v : TestVectors len) (n i : Nat) (r : Replies len) : TestApp len Flow := do
  printf "Iteration %i/%i\n" [i, n]
  gpioSet
  let ret ← aesInit v r
  gpioClear
  if ret < 1 then
    printf "AES CBC Enc Init failed: %d\n" [ret]
    return .ret
  gpioSet
  let ret ← cipherCall (.aesEncryptCbc v.cbcIv.toList v.cbcPlain.toList) r.encrypt
  gpioClear
  if ret < 0 then
    printf "AES CBC Encrypt failed: %d\n" [ret]
    return .ret
  let differs ← memcmp v.cbcCipher
  onlyIf differs (printf "AES CBC encryption wrong cipher\n" [])
  gpioSet
  let ret ← cipherCall (.aesDecryptCbc v.cbcIv.toList v.cbcCipher.toList) r.decrypt
  gpioClear
  if ret < 0 then
    printf "AES CBC Decrypt failed: %d\n" [ret]
    return .ret
  let differs ← memcmp v.cbcPlain
  if differs then
    printf "AES CBC decryption wrong plain text\n" []
    return .ret
  else
    puts "SUCCESS"
    return .next

/-- One iteration of `aes_ecb_test`. -/
def ecbIteration (v : TestVectors len) (n i : Nat) (r : Replies len) : TestApp len Flow := do
  printf "Iteration %i/%i\n" [i, n]
  gpioSet
  let ret ← aesInit v r
  gpioClear
  onlyIf (ret < 1) (printf "AES Init failed: %d\n" [ret])
  gpioSet
  let ret ← cipherCall (.aesEncryptEcb v.ecbPlain.toList) r.encrypt
  gpioClear
  if ret < 0 then
    printf "AES ECB Enryption failed: %d\n" [ret]
    return .ret
  gpioSet
  let ret ← cipherCall (.aesDecryptEcb v.ecbCipher.toList) r.decrypt
  gpioClear
  if ret < 0 then
    printf "AES ECB Deryption failed: %d\n" [ret]
    return .ret
  let differs ← memcmp v.ecbPlain
  if differs then
    printf "AES ECB decryption wrong plain\n" []
    return .ret
  else
    puts "success"
    return .next

/-- The two tests. -/
inductive RuntimeTest where
  | cbc
  | ecb
deriving DecidableEq

namespace RuntimeTest

def iteration (t : RuntimeTest) (v : TestVectors len) (n i : Nat) (r : Replies len) :
    TestApp len Flow :=
  match t with
  | .cbc => cbcIteration v n i r
  | .ecb => ecbIteration v n i r

/-- The verdict of an iteration. -/
def successLine : RuntimeTest → String
  | .cbc => "SUCCESS"
  | .ecb => "success"

/-- The line behind the last iteration. -/
def doneLine : RuntimeTest → String
  | .cbc => "AES CBC encrypt/decrypt done\n"
  | .ecb => "AES ECB encrypt/decrypt done\n"

def plain (t : RuntimeTest) (v : TestVectors len) : Buffer len :=
  match t with
  | .cbc => v.cbcPlain
  | .ecb => v.ecbPlain

def cipher (t : RuntimeTest) (v : TestVectors len) : Buffer len :=
  match t with
  | .cbc => v.cbcCipher
  | .ecb => v.ecbCipher

end RuntimeTest

/-- `memset(data, 0, len)`. -/
def zeros : Buffer len := Vector.replicate len 0

/-- `aes_cbc_test` with TEST_ENERGY_ITER `n`. -/
def aesCbcTest (v : TestVectors len) (n : Nat) (replies : Nat → Replies len) :
    TestApp len Unit := do
  act fun _ => ((), zeros, [])
  emit (.call (.xtimerSleep 1) 0)
  match ← forReturn n fun i => cbcIteration v n i (replies i) with
  | .ret => pure ()
  | .next => printf "AES CBC encrypt/decrypt done\n" []

/-- `aes_ecb_test` with TEST_ENERGY_ITER `n`. -/
def aesEcbTest (v : TestVectors len) (n : Nat) (replies : Nat → Replies len) :
    TestApp len Unit := do
  act fun _ => ((), zeros, [])
  emit (.call (.xtimerSleep 1) 0)
  match ← forReturn n fun i => ecbIteration v n i (replies i) with
  | .ret => pure ()
  | .next => printf "AES ECB encrypt/decrypt done\n" []

def RuntimeTest.test (t : RuntimeTest) (v : TestVectors len) (n : Nat)
    (replies : Nat → Replies len) : TestApp len Unit :=
  match t with
  | .cbc => aesCbcTest v n replies
  | .ecb => aesEcbTest v n replies

/-- What the code checks of an iteration that starts on `data`. -/
structure Passes (t : RuntimeTest) (v : TestVectors len) (r : Replies len) (data : Buffer len) :
    Prop where
  init : t = .cbc → 1 ≤ r.init
  encrypt : 0 ≤ r.encrypt.code
  decrypt : 0 ≤ r.decrypt.code
  plain : patch r.decrypt.writes (patch r.encrypt.writes data) = t.plain v

/-- What a success is to mean: all three calls succeed, and the cipher calls write
the reference texts themselves. -/
structure Correct (t : RuntimeTest) (v : TestVectors len) (r : Replies len) : Prop where
  init : 1 ≤ r.init
  encrypt : 0 ≤ r.encrypt.code
  cipher : Produces r.encrypt.writes (t.cipher v)
  decrypt : 0 ≤ r.decrypt.code
  plain : Produces r.decrypt.writes (t.plain v)

/-- Every iteration that is entered prints its verdict exactly when it is correct. -/
def Accurate (t : RuntimeTest) (v : TestVectors len) (n : Nat) (replies : Nat → Replies len) :
    Prop :=
  ∀ i < n, ∀ data, Entered (fun i => t.iteration v n i (replies i)) [] zeros i [] data →
    (.puts t.successLine ∈ ((t.iteration v n i (replies i)).exec [] data).trace ↔
      Correct t v (replies i))

/-- A backend whose encryption reports success but writes nothing. -/
def silentEncryption : Replies 32 where
  init := 1
  encrypt := ⟨32, Vector.replicate 32 none⟩
  decrypt := ⟨32, testVectors.cbcPlain.map some⟩

/-- A backend whose key setup fails although the cipher calls work. -/
def failedInit : Replies 32 where
  init := -1
  encrypt := ⟨32, testVectors.ecbCipher.map some⟩
  decrypt := ⟨32, testVectors.ecbPlain.map some⟩

/-- The key setup fails in the second iteration. -/
def secondKeyFails (i : Nat) : Replies 32 := if i = 1 then failedInit else silentEncryption

section Iterations
variable {v : TestVectors len} {n i : Nat} {r : Replies len} {data : Buffer len}

/-- The iteration falls through with the plaintext in the buffer, after a success. -/
def FallsThrough (t : RuntimeTest) (v : TestVectors len) (n i : Nat) (r : Replies len)
    (data : Buffer len) : Prop :=
  ((t.iteration v n i r).exec [] data).value = some .next ∧
    ((t.iteration v n i r).exec [] data).state = t.plain v ∧
    ((t.iteration v n i r).exec [] data).trace.count (.puts t.successLine) = 1

/-- The iteration ends the test without a success. -/
def Returns (t : RuntimeTest) (v : TestVectors len) (n i : Nat) (r : Replies len)
    (data : Buffer len) : Prop :=
  ((t.iteration v n i r).exec [] data).value = some .ret ∧
    .puts t.successLine ∉ ((t.iteration v n i r).exec [] data).trace

attribute [simp] gpioSet gpioClear printf puts aesInit cipherCall memcmp

theorem cbc_fallsThrough (h : Passes .cbc v r data) : FallsThrough .cbc v n i r data := by
  obtain ⟨hinit, hencrypt, hdecrypt, hplain⟩ := h
  have hinit' : ¬ r.init < 1 := Int.not_lt.mpr (hinit rfl)
  have hplain' : patch r.decrypt.writes (patch r.encrypt.writes data) = v.cbcPlain := hplain
  simp only [FallsThrough, RuntimeTest.iteration, cbcIteration]
  by_cases hcipher : patch r.encrypt.writes data = v.cbcCipher
  · rw [hcipher] at hplain'
    simp [hinit', Int.not_lt.mpr hencrypt, Int.not_lt.mpr hdecrypt, hcipher, hplain',
      RuntimeTest.plain, RuntimeTest.successLine]
  · simp [hinit', Int.not_lt.mpr hencrypt, Int.not_lt.mpr hdecrypt, hcipher, hplain',
      RuntimeTest.plain, RuntimeTest.successLine]

theorem cbc_returns (h : ¬ Passes .cbc v r data) : Returns .cbc v n i r data := by
  simp only [Returns, RuntimeTest.iteration, RuntimeTest.successLine, cbcIteration]
  by_cases hinit : r.init < 1
  · simp [hinit]
  by_cases hencrypt : r.encrypt.code < 0
  · simp [hinit, hencrypt]
  by_cases hdecrypt : r.decrypt.code < 0
  · by_cases hcipher : patch r.encrypt.writes data = v.cbcCipher
    · simp [hinit, hencrypt, hdecrypt, hcipher]
    · simp [hinit, hencrypt, hdecrypt, hcipher]
  by_cases hplain : patch r.decrypt.writes (patch r.encrypt.writes data) = v.cbcPlain
  · exact False.elim (h ⟨fun _ => Int.not_lt.mp hinit, Int.not_lt.mp hencrypt,
      Int.not_lt.mp hdecrypt, hplain⟩)
  by_cases hcipher : patch r.encrypt.writes data = v.cbcCipher
  · rw [hcipher] at hplain
    simp [hinit, hencrypt, hdecrypt, hcipher, hplain]
  · simp [hinit, hencrypt, hdecrypt, hcipher, hplain]

theorem ecb_fallsThrough (h : Passes .ecb v r data) : FallsThrough .ecb v n i r data := by
  obtain ⟨_, hencrypt, hdecrypt, hplain⟩ := h
  have hplain' : patch r.decrypt.writes (patch r.encrypt.writes data) = v.ecbPlain := hplain
  simp only [FallsThrough, RuntimeTest.iteration, ecbIteration]
  by_cases hinit : r.init < 1
  · simp [hinit, Int.not_lt.mpr hencrypt, Int.not_lt.mpr hdecrypt, hplain', RuntimeTest.plain,
      RuntimeTest.successLine]
  · simp [hinit, Int.not_lt.mpr hencrypt, Int.not_lt.mpr hdecrypt, hplain', RuntimeTest.plain,
      RuntimeTest.successLine]

theorem ecb_returns (h : ¬ Passes .ecb v r data) : Returns .ecb v n i r data := by
  simp only [Returns, RuntimeTest.iteration, RuntimeTest.successLine, ecbIteration]
  by_cases hencrypt : r.encrypt.code < 0
  · by_cases hinit : r.init < 1
    · simp [hinit, hencrypt]
    · simp [hinit, hencrypt]
  by_cases hdecrypt : r.decrypt.code < 0
  · by_cases hinit : r.init < 1
    · simp [hinit, hencrypt, hdecrypt]
    · simp [hinit, hencrypt, hdecrypt]
  by_cases hplain : patch r.decrypt.writes (patch r.encrypt.writes data) = v.ecbPlain
  · exact False.elim (h ⟨by simp, Int.not_lt.mp hencrypt, Int.not_lt.mp hdecrypt, hplain⟩)
  by_cases hinit : r.init < 1
  · simp [hinit, hencrypt, hdecrypt, hplain]
  · simp [hinit, hencrypt, hdecrypt, hplain]

theorem fallsThrough {t : RuntimeTest} (h : Passes t v r data) : FallsThrough t v n i r data := by
  cases t with
  | cbc => exact cbc_fallsThrough h
  | ecb => exact ecb_fallsThrough h

theorem returns {t : RuntimeTest} (h : ¬ Passes t v r data) : Returns t v n i r data := by
  cases t with
  | cbc => exact cbc_returns h
  | ecb => exact ecb_returns h

/-- An iteration prints its verdict iff it passes. -/
theorem success_mem_iff {t : RuntimeTest} :
    .puts t.successLine ∈ ((t.iteration v n i r).exec [] data).trace ↔ Passes t v r data := by
  by_cases h : Passes t v r data
  · have hone : ((t.iteration v n i r).exec [] data).trace.count (.puts t.successLine) = 1 :=
      (fallsThrough h).2.2
    exact ⟨fun _ => h, fun _ => List.count_pos_iff.mp (by omega)⟩
  · exact ⟨fun hmem => False.elim ((returns h).2 hmem), fun hpasses => False.elim (h hpasses)⟩

theorem Correct.passes {t : RuntimeTest} (h : Correct t v r) : Passes t v r data :=
  ⟨fun _ => h.init, h.encrypt, h.decrypt, h.plain.patch_eq⟩

end Iterations

/-- The buffer at the start of an iteration: cleared, or left by the one before. -/
def startBuffer (t : RuntimeTest) (v : TestVectors len) : Nat → Buffer len
  | 0 => zeros
  | _ + 1 => t.plain v

section Run
variable {t : RuntimeTest} {v : TestVectors len} {n i : Nat} {replies : Nat → Replies len}

/-- An iteration is entered iff all before it passed, and it starts on a known buffer. -/
theorem entered_iff {ins : List Empty} {data : Buffer len} :
    Entered (fun i => t.iteration v n i (replies i)) [] zeros i ins data ↔
      data = startBuffer t v i ∧ ∀ j < i, Passes t v (replies j) (startBuffer t v j) := by
  have hnil (ins : List Empty) : ins = [] := by
    cases ins with
    | nil => rfl
    | cons e ins => exact e.elim
  obtain rfl := hnil ins
  induction i generalizing data with
  | zero => simp [entered_zero, startBuffer]
  | succ i ih =>
    rw [entered_succ]
    constructor
    · rintro ⟨ins', data', hprev, hvalue, _, hstate⟩
      obtain rfl := hnil ins'
      obtain ⟨rfl, hpassed⟩ := ih.mp hprev
      by_cases hpasses : Passes t v (replies i) (startBuffer t v i)
      · have hround : FallsThrough t v n i (replies i) (startBuffer t v i) := fallsThrough hpasses
        refine ⟨hstate.symm.trans hround.2.1, fun j hj => ?_⟩
        by_cases hji : j = i
        · subst j
          exact hpasses
        · exact hpassed j (by omega)
      · have hround : Returns t v n i (replies i) (startBuffer t v i) := returns hpasses
        simp [hround.1] at hvalue
    · rintro ⟨rfl, hpassed⟩
      have hround : FallsThrough t v n i (replies i) (startBuffer t v i) :=
        fallsThrough (hpassed i (by omega))
      refine ⟨[], startBuffer t v i, ih.mpr ⟨rfl, fun j hj => hpassed j (by omega)⟩, hround.1,
        hnil _, hround.2.1⟩

theorem entered_of_passed {k : Nat}
    (hpassed : ∀ j < k, Passes t v (replies j) (startBuffer t v j)) :
    Entered (fun i => t.iteration v n i (replies i)) [] zeros k [] (startBuffer t v k) :=
  entered_iff.mpr ⟨rfl, hpassed⟩

/-- What an iteration shows, begun on the buffer that passing predecessors leave. -/
def shown (t : RuntimeTest) (v : TestVectors len) (n : Nat) (replies : Nat → Replies len)
    (i : Nat) : List Event :=
  ((t.iteration v n i (replies i)).exec [] (startBuffer t v i)).trace

/-- Where the first `k` iterations pass, the loop shows them one after the other. -/
theorem loop_passed {k : Nat} (hpassed : ∀ j < k, Passes t v (replies j) (startBuffer t v j)) :
    ((forReturn k fun i => t.iteration v n i (replies i)).exec [] zeros).trace =
      (List.range k).flatMap (shown t v n replies) := by
  induction k with
  | zero => rfl
  | succ k ih =>
    have hbefore : ∀ j < k, Passes t v (replies j) (startBuffer t v j) :=
      fun j hj => hpassed j (by omega)
    rw [(entered_of_passed hbefore).exec_succ, ih hbefore, List.range_succ, List.flatMap_append,
      List.flatMap_singleton]
    rfl

/-- An iteration that fails is the last one that the loop shows. -/
theorem loop_failed {k m : Nat} (hkm : k < m)
    (hpassed : ∀ j < k, Passes t v (replies j) (startBuffer t v j))
    (hfails : ¬ Passes t v (replies k) (startBuffer t v k)) :
    ((forReturn m fun i => t.iteration v n i (replies i)).exec [] zeros).value = some .ret ∧
      ((forReturn m fun i => t.iteration v n i (replies i)).exec [] zeros).trace =
        (List.range k).flatMap (shown t v n replies) ++ shown t v n replies k := by
  induction m with
  | zero => omega
  | succ m ih =>
    by_cases hlast : k = m
    · subst m
      have hround : Returns t v n k (replies k) (startBuffer t v k) := returns hfails
      rw [(entered_of_passed hpassed).exec_succ]
      refine ⟨hround.1, ?_⟩
      rw [loop_passed hpassed]
      rfl
    · obtain ⟨hvalue, htrace⟩ := ih (by omega)
      rw [forReturn_of_ret hvalue]
      exact ⟨hvalue, htrace⟩

/-- A test shows its loop, and the closing line where the loop ran to its end. -/
theorem test_trace {flow : Flow} {loop : List Event}
    (hvalue : ((forReturn n fun i => t.iteration v n i (replies i)).exec [] zeros).value =
      some flow)
    (htrace : ((forReturn n fun i => t.iteration v n i (replies i)).exec [] zeros).trace = loop)
    (data : Buffer len) :
    ((t.test v n replies).exec [] data).trace = .call (.xtimerSleep 1) 0 :: loop ++
      (if flow = .next then [.printf t.doneLine []] else []) := by
  subst htrace
  cases t with
  | cbc =>
    simp only [RuntimeTest.iteration] at hvalue
    cases flow <;>
      simp [RuntimeTest.test, aesCbcTest, RuntimeTest.iteration, RuntimeTest.doneLine,
        andThen_of_value hvalue]
  | ecb =>
    simp only [RuntimeTest.iteration] at hvalue
    cases flow <;>
      simp [RuntimeTest.test, aesEcbTest, RuntimeTest.iteration, RuntimeTest.doneLine,
        andThen_of_value hvalue]

theorem count_shown {k : Nat}
    (hone : ∀ j < k, (shown t v n replies j).count (.puts t.successLine) = 1) :
    ((List.range k).flatMap (shown t v n replies)).count (.puts t.successLine) = k := by
  induction k with
  | zero => rfl
  | succ k ih =>
    rw [List.range_succ, List.flatMap_append, List.flatMap_singleton, List.count_append,
      ih fun j hj => hone j (by omega), hone k (by omega)]

/-- A test shows the iterations before the first one that fails, each with one verdict,
then the failing one, with none, and no other; where none fails it shows them all. -/
theorem test_verdicts {k : Nat} (hk : k ≤ n)
    (hpassed : ∀ j < k, Passes t v (replies j) (startBuffer t v j))
    (hstop : k = n ∨ ¬ Passes t v (replies k) (startBuffer t v k)) (data : Buffer len) :
    ((t.test v n replies).exec [] data).trace =
        .call (.xtimerSleep 1) 0 :: (List.range k).flatMap (shown t v n replies) ++
          (if k = n then [.printf t.doneLine []] else shown t v n replies k) ∧
      (∀ j < k, (shown t v n replies j).count (.puts t.successLine) = 1) ∧
      (k < n → .puts t.successLine ∉ shown t v n replies k) ∧
      ((t.test v n replies).exec [] data).trace.count (.puts t.successLine) = k := by
  have hone : ∀ j < k, (shown t v n replies j).count (.puts t.successLine) = 1 := by
    intro j hj
    have hround : FallsThrough t v n j (replies j) (startBuffer t v j) :=
      fallsThrough (hpassed j hj)
    exact hround.2.2
  have hnone : k < n → .puts t.successLine ∉ shown t v n replies k := by
    intro hkn
    have hround : Returns t v n k (replies k) (startBuffer t v k) :=
      returns (hstop.resolve_left (by omega))
    exact hround.2
  have hrun : ((t.test v n replies).exec [] data).trace =
      .call (.xtimerSleep 1) 0 :: (List.range k).flatMap (shown t v n replies) ++
        (if k = n then [.printf t.doneLine []] else shown t v n replies k) := by
    by_cases hkn : k = n
    · subst n
      rw [if_pos rfl]
      exact test_trace (entered_of_passed hpassed).1 (loop_passed hpassed) data
    · obtain ⟨hvalue, htrace⟩ :=
        loop_failed (n := n) (show k < n by omega) hpassed (hstop.resolve_left hkn)
      rw [if_neg hkn, test_trace hvalue htrace data, if_neg (by decide), List.append_nil,
        List.cons_append]
  refine ⟨hrun, hone, hnone, ?_⟩
  rw [hrun, List.cons_append, List.count_cons_of_ne (by simp), List.count_append, count_shown hone]
  by_cases hkn : k = n
  · simp [hkn]
  · rw [if_neg hkn, List.count_eq_zero_of_not_mem (hnone (by omega)), Nat.add_zero]

/-- Of three iterations the second has no key: the first one prints the only verdict. -/
theorem test_verdicts_failedInit :
    ((RuntimeTest.cbc.test testVectors 3 secondKeyFails).exec [] zeros).trace.count
      (.puts "SUCCESS") = 1 := by
  have hplain : Produces silentEncryption.decrypt.writes testVectors.cbcPlain := rfl
  have hpassed : ∀ j < 1, Passes .cbc testVectors (secondKeyFails j)
      (startBuffer .cbc testVectors j) := by
    intro j hj
    obtain rfl : j = 0 := by omega
    exact ⟨by decide, by decide, by decide, hplain.patch_eq⟩
  have hfails : ¬ Passes .cbc testVectors (secondKeyFails 1) (startBuffer .cbc testVectors 1) :=
    fun hpasses => absurd (hpasses.init rfl) (by decide)
  have hrun := test_verdicts (n := 3) (show 1 ≤ 3 by decide) hpassed (.inr hfails) zeros
  exact hrun.2.2.2

/-- The verdicts are accurate iff every iteration that passes, and is preceded by
passing ones only, is correct. -/
theorem accurate_iff (t : RuntimeTest) (v : TestVectors len) (n : Nat)
    (replies : Nat → Replies len) : Accurate t v n replies ↔
      ∀ i < n, (∀ j < i, Passes t v (replies j) (startBuffer t v j)) →
        Passes t v (replies i) (startBuffer t v i) → Correct t v (replies i) := by
  constructor
  · intro haccurate i hi hpassed hpasses
    exact (haccurate i hi _ (entered_iff.mpr ⟨rfl, hpassed⟩)).mp (success_mem_iff.mpr hpasses)
  · intro hcorrect i hi data hentered
    obtain ⟨rfl, hpassed⟩ := entered_iff.mp hentered
    constructor
    · intro hsuccess
      exact hcorrect i hi hpassed (success_mem_iff.mp hsuccess)
    · intro hround
      exact success_mem_iff.mpr hround.passes

end Run

section Counterexample

/-- The CBC test accepts a wrong ciphertext, and the ECB test a failed `aes_init`. -/
theorem faulty_backends_succeed : ¬ Accurate .cbc testVectors 1 (fun _ => silentEncryption) ∧
    ¬ Accurate .ecb testVectors 1 fun _ => failedInit := by
  constructor
  · intro haccurate
    have hplain : Produces silentEncryption.decrypt.writes testVectors.cbcPlain := rfl
    have hpasses : Passes .cbc testVectors silentEncryption zeros :=
      ⟨by decide, by decide, by decide, hplain.patch_eq⟩
    have hcorrect := (haccurate 0 (by decide) zeros (entered_zero.mpr ⟨rfl, rfl⟩)).mp
      (success_mem_iff.mpr hpasses)
    have hwritten : silentEncryption.encrypt.writes[0] = some 0x76 :=
      hcorrect.cipher.getElem 0 (by decide)
    simp [silentEncryption] at hwritten
  · intro haccurate
    have hplain : Produces failedInit.decrypt.writes testVectors.ecbPlain := rfl
    have hpasses : Passes .ecb testVectors failedInit zeros :=
      ⟨by decide, by decide, by decide, hplain.patch_eq⟩
    have hcorrect := (haccurate 0 (by decide) zeros (entered_zero.mpr ⟨rfl, rfl⟩)).mp
      (success_mem_iff.mpr hpasses)
    exact absurd hcorrect.init (by decide)

end Counterexample

end RuntimeTests
