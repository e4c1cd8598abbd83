import EwsnCrypto.SwCompare.Verdicts

/-!
# The AES comparison

Every library encrypts the same block into `data_enc`, and decrypts `data_enc`
into `data_dec`. Both are cleared once, and only `data_dec` is checked.
-/

open SharedStore

namespace SwCompare.Aes

inductive Direction where
  | encrypt
  | decrypt
deriving DecidableEq

abbrev Data : Type := Vector UInt8 16

inductive Call where
  | aesInit (key : Data)
  | aesEncrypt (inp : Data)
  | aesDecrypt
  | coreInit
  | cipherInit
  | makeKey2 (dir : Direction) (key : Data)
  | blockEncrypt (inp : Data)
  | blockDecrypt
  | coreClean
  | tcAes128SetEncryptKey (key : Data)
  | tcAesEncrypt (inp : Data)
  | tcAes128SetDecryptKey (key : Data)
  | tcAesDecrypt
  | wcAesInit
  | wcAesSetKey (key : Data) (dir : Direction)
  | wcAesEncryptDirect (inp : Data)
  | wcAesDecryptDirect
  | cfAesInit (key : Data)
  | cfAesEncrypt (inp : Data)
  | cfAesDecrypt
deriving DecidableEq

def test1Key : Data := #v[
  0x23, 0xA0, 0x18, 0x53, 0xFA, 0xB3, 0x89, 0x23,
  0x65, 0x89, 0x2A, 0xBC, 0x43, 0x99, 0xCC, 0x00]

def test1Inp : Data := #v[
  0x11, 0x53, 0x81, 0xE2, 0x5F, 0x33, 0xE7, 0x41,
  0xBB, 0x12, 0x67, 0x38, 0xE9, 0x12, 0x54, 0x23]

def zeros : Data := Vector.replicate 16 0

/-- `data_enc` and `data_dec`. -/
abbrev Buffers : Type := Data × Data

/-- What the calls of a library deliver, given the key and a block. A call that
delivers nothing leaves its buffer as it is. -/
structure Replies where
  encrypt : Library → Data → Data → Option Data
  decrypt : Library → Data → Data → Option Data

/-- What a library makes of the test block. -/
def Replies.ciphertext (r : Replies) (l : Library) : Option Data := r.encrypt l test1Key test1Inp

/-- What a library makes of a ciphertext. -/
def Replies.plaintext (r : Replies) (l : Library) (data : Data) : Option Data :=
  r.decrypt l test1Key data

/-- The call of a library that writes `data_enc`. -/
def Replies.enc (r : Replies) (l : Library) (c : Call) : Step Call Buffers :=
  ⟨c, fun buffers => ((r.ciphertext l).getD buffers.1, buffers.2)⟩

/-- The call of a library that reads `data_enc` and writes `data_dec`. -/
def Replies.dec (r : Replies) (l : Library) (c : Call) : Step Call Buffers :=
  ⟨c, fun buffers => (buffers.1, (r.plaintext l buffers.1).getD buffers.2)⟩

section Blocks
variable (r : Replies)

def riot : Block Call Buffers where
  contexts := ["sizeof(ctx_riot): %i\n"]
  setup := []
  phases := [[.plain (.aesInit test1Key)], [r.enc .riot (.aesEncrypt test1Inp)],
    [r.dec .riot .aesDecrypt]]
  cleanup := []
  error := .printf "ERROR\n" []
  closing := []
  error_line := rfl

def relic : Block Call Buffers where
  contexts := ["sizeof(ctx_relic): %i\n", "sizeof(key_inst): %i\n"]
  setup := [.coreInit]
  phases := [[.plain .cipherInit],
    [.plain (.makeKey2 .encrypt test1Key), r.enc .relic (.blockEncrypt test1Inp)],
    [.plain (.makeKey2 .decrypt test1Key), r.dec .relic .blockDecrypt]]
  cleanup := []
  error := .puts "ERROR"
  closing := [.coreClean]
  error_line := rfl

def tinycrypt : Block Call Buffers where
  contexts := ["sizeof(ctx_tinycrypt): %i\n"]
  setup := []
  phases := [[],
    [.plain (.tcAes128SetEncryptKey test1Key), r.enc .tinycrypt (.tcAesEncrypt test1Inp)],
    [.plain (.tcAes128SetDecryptKey test1Key), r.dec .tinycrypt .tcAesDecrypt]]
  cleanup := []
  error := .puts "ERROR"
  closing := []
  error_line := rfl

def wolfssl : Block Call Buffers where
  contexts := ["sizeof(ctx_wolfssl): %i\n"]
  setup := []
  phases := [[.plain .wcAesInit, .plain (.wcAesSetKey test1Key .encrypt)],
    [r.enc .wolfssl (.wcAesEncryptDirect test1Inp)],
    [.plain (.wcAesSetKey test1Key .decrypt), r.dec .wolfssl .wcAesDecryptDirect]]
  cleanup := []
  error := .puts "ERROR"
  closing := []
  error_line := rfl

def cifra : Block Call Buffers where
  contexts := ["sizeof(ctx_cifra): %i\n"]
  setup := []
  phases := [[.plain (.cfAesInit test1Key)], [r.enc .cifra (.cfAesEncrypt test1Inp)],
    [r.dec .cifra .cfAesDecrypt]]
  cleanup := []
  error := .puts "ERROR"
  closing := []
  error_line := rfl

def block : Library → Block Call Buffers
  | .riot => riot r
  | .relic => relic r
  | .tinycrypt => tinycrypt r
  | .wolfssl => wolfssl r
  | .cifra => cifra r

def application : Application Call Buffers where
  block := block r
  declare _ := (zeros, zeros)
  passes buffers := decide (test1Inp = buffers.2)

end Blocks

/-- The calls of a library encrypt the test block and decrypt it again. -/
def Delivers (r : Replies) (l : Library) : Prop :=
  ∃ data, r.ciphertext l = some data ∧ r.plaintext l data = some test1Inp

/-- What a library is given to decrypt: its own ciphertext, or else the last one of
the libraries before it, or else zeros. -/
def Replies.given (r : Replies) (b : Build) (l : Library) : Data :=
  inputOf r.ciphertext b.libraries zeros l

/-- A library that does not encrypt makes the test block neither of zeros nor of the
ciphertext left for it; and where a library does not decrypt, the plaintext written
last before it is another block. -/
def NothingLeft (r : Replies) (b : Build) : Prop :=
  ∀ l, b.enabled l = true →
    (r.ciphertext l = none → r.plaintext l zeros ≠ some test1Inp ∧
      r.plaintext l (r.given b l) ≠ some test1Inp) ∧
    (r.plaintext l (r.given b l) = none →
      lastWritten (fun k => r.plaintext k (r.given b k)) (before b.libraries l) ≠ some test1Inp)

variable {r : Replies}

theorem effect_eq : (application r).effect = pipe r.ciphertext r.plaintext := by
  funext l buffers
  cases l <;> rfl

theorem passes_iff {buffers : Buffers} :
    (application r).passes buffers = false ↔ buffers.2 ≠ test1Inp := by
  rw [application, decide_eq_false_iff_not, ne_comm]

theorem passes_of_delivers (l : Library) (buffers : Buffers) (h : Delivers r l) :
    (application r).passes ((application r).effect l buffers) = true := by
  obtain ⟨data, henc, hdec⟩ := h
  simp only [effect_eq, pipe]
  rw [henc, Option.getD_some, hdec]
  exact decide_eq_true (Eq.refl test1Inp)

theorem zeros_ne : zeros ≠ test1Inp := by decide

/-- Alone, a library passes iff it makes the test block of its own ciphertext or of
zeros. -/
theorem passes_alone_iff (l : Library) :
    (application r).passes ((application r).effect l (zeros, zeros)) = false ↔
      r.plaintext l ((r.ciphertext l).getD zeros) ≠ some test1Inp := by
  rw [passes_iff, effect_eq]
  simp only [pipe, getD_ne_iff]
  exact and_iff_left fun _ => zeros_ne

theorem passes_behind_iff (b : Build) (l : Library) :
    (application r).passes ((application r).effect l
        (storeAfter (application r).effect (before b.libraries l) (zeros, zeros))) = false ↔
      r.plaintext l (r.given b l) ≠ some test1Inp ∧ (r.plaintext l (r.given b l) = none →
        lastWritten (fun k => r.plaintext k (r.given b k)) (before b.libraries l) ≠
          some test1Inp) := by
  have hnodup : (before b.libraries l).Nodup :=
    (libraries_nodup b).sublist (List.takeWhile_sublist _)
  rw [passes_iff, effect_eq, storeAfter_pipe _ _ hnodup, lastWritten_before]
  have hgiven : (r.ciphertext l).getD
      ((lastWritten r.ciphertext (before b.libraries l)).getD zeros) = r.given b l :=
    Option.getD_or.symm
  simp only [pipe, hgiven, getD_ne_iff]
  constructor
  · rintro ⟨hown, hleft⟩
    exact ⟨hown, fun hnone => (hleft hnone).1⟩
  · rintro ⟨hown, hleft⟩
    exact ⟨hown, fun hnone => ⟨hleft hnone, fun _ => zeros_ne⟩⟩

theorem given_of_encrypts {b : Build} {l : Library} {data : Data}
    (h : r.ciphertext l = some data) : r.given b l = data := by
  rw [Replies.given, inputOf, h, Option.some_or, Option.getD_some]

/-- The verdicts are independent iff nothing right is left for a library that does
not encrypt or does not decrypt. -/
theorem independent_iff_nothingLeft (b : Build) (buffers : Buffers) :
    (application r).Independent (Delivers r) b buffers ↔ NothingLeft r b := by
  rw [Application.independent_iff _ _ _ _ passes_of_delivers]
  have hdeclare : (application r).declare buffers = (zeros, zeros) := rfl
  simp only [hdeclare, passes_alone_iff, passes_behind_iff]
  constructor
  · intro h l hl
    constructor
    · intro hnone
      have hfails : ¬ Delivers r l := fun ⟨_, henc, _⟩ => nomatch hnone.symm.trans henc
      obtain ⟨halone, hbehind, _⟩ := h l hl hfails
      rw [hnone, Option.getD_none] at halone
      exact ⟨halone, hbehind⟩
    · intro hnone
      have hfails : ¬ Delivers r l := by
        rintro ⟨data, henc, hdec⟩
        rw [given_of_encrypts henc, hdec] at hnone
        cases hnone
      exact (h l hl hfails).2.2 hnone
  · intro h l hl hfails
    obtain ⟨hnoEnc, hnoDec⟩ := h l hl
    cases henc : r.ciphertext l with
    | none =>
      obtain ⟨hzeros, hleft⟩ := hnoEnc henc
      exact ⟨hzeros, hleft, hnoDec⟩
    | some data =>
      have hown : r.plaintext l data ≠ some test1Inp := fun hdec => hfails ⟨data, henc, hdec⟩
      rw [given_of_encrypts henc] at hnoDec ⊢
      exact ⟨hown, hown, hnoDec⟩

end SwCompare.Aes
