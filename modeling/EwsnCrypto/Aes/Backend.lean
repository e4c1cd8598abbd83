import Mathlib.Data.Vector.Basic

/-!
# The AES backend as its callers see it

A call returns a code and writes some bytes of the output buffer, perhaps none.
Nothing else is known of it, and no two calls need behave alike. The reference
vectors are those of the default build; with INPUT_512 they have 512 bytes.
-/

namespace Aes

variable {n : Nat}

abbrev Buffer (n : Nat) : Type := Vector UInt8 n

/-- For each byte of the buffer what a call writes there, if it does. -/
abbrev Writes (n : Nat) : Type := Vector (Option UInt8) n

/-- The buffer after the writes. -/
def patch (w : Writes n) (b : Buffer n) : Buffer n :=
  Vector.zipWith (fun new old => new.getD old) w b

/-- The call itself writes all of `ref`. -/
def Produces (w : Writes n) (ref : Buffer n) : Prop := w = ref.map some

/-- No byte is written that differs from `ref`. -/
def Harmless (w : Writes n) (ref : Buffer n) : Prop :=
  ∀ i (hi : i < n) byte, w[i] = some byte → byte = ref[i]

/-- The bytes that the call leaves alone are those of `ref` already. -/
def Covered (w : Writes n) (b ref : Buffer n) : Prop :=
  ∀ i (hi : i < n), w[i] = none → b[i] = ref[i]

/-- A return code, and what the call wrote. -/
structure Answer (n : Nat) where
  code : Int
  writes : Writes n

/-- The answers of a backend to the calls of one round. `aes_init` returns at least
1 on success, the cipher calls return no negative code. -/
structure Replies (n : Nat) where
  init : Int
  encrypt : Answer n
  decrypt : Answer n

/-- The cipher calls with their constant inputs. -/
inductive Call where
  | aesInit (key : List UInt8)
  | aesEncryptCbc (iv plain : List UInt8)
  | aesDecryptCbc (iv cipher : List UInt8)
  | aesEncryptEcb (plain : List UInt8)
  | aesDecryptEcb (cipher : List UInt8)
  | xtimerSleep (seconds : Nat)
deriving DecidableEq

/-- The key, the initialisation vector and the reference texts. -/
structure TestVectors (n : Nat) where
  key : Vector UInt8 16
  cbcIv : Vector UInt8 16
  cbcPlain : Buffer n
  cbcCipher : Buffer n
  ecbPlain : Buffer n
  ecbCipher : Buffer n

/-- The vectors of the default build. -/
def testVectors : TestVectors 32 where
  key := #v[0x2b, 0x7e, 0x15, 0x16, 0x28, 0xae, 0xd2, 0xa6,
    0xab, 0xf7, 0x15, 0x88, 0x09, 0xcf, 0x4f, 0x3c]
  cbcIv := #v[0x00, 0x01, 0x02, 0x03, 0x04, 0x05, 0x06, 0x07,
    0x08, 0x09, 0x0a, 0x0b, 0x0c, 0x0d, 0x0e, 0x0f]
  cbcPlain := #v[0x6b, 0xc1, 0xbe, 0xe2, 0x2e, 0x40, 0x9f, 0x96,
    0xe9, 0x3d, 0x7e, 0x11, 0x73, 0x93, 0x17, 0x2a,
    0xae, 0x2d, 0x8a, 0x57, 0x1e, 0x03, 0xac, 0x9c,
    0x9e, 0xb7, 0x6f, 0xac, 0x45, 0xaf, 0x8e, 0x51]
  cbcCipher := #v[0x76, 0x49, 0xab, 0xac, 0x81, 0x19, 0xb2, 0x46,
    0xce, 0xe9, 0x8e, 0x9b, 0x12, 0xe9, 0x19, 0x7d,
    0x50, 0x86, 0xcb, 0x9b, 0x50, 0x72, 0x19, 0xee,
    0x95, 0xdb, 0x11, 0x3a, 0x91, 0x76, 0x78, 0xb2]
  ecbPlain := #v[0x6b, 0xc1, 0xbe, 0xe2, 0x2e, 0x40, 0x9f, 0x96,
    0xe9, 0x3d, 0x7e, 0x11, 0x73, 0x93, 0x17, 0x2a,
    0x6b, 0xc1, 0xbe, 0xe2, 0x2e, 0x40, 0x9f, 0x96,
    0xe9, 0x3d, 0x7e, 0x11, 0x73, 0x93, 0x17, 0x2a]
  ecbCipher := #v[0x3a, 0xd7, 0x7b, 0xb4, 0x0d, 0x7a, 0x36, 0x60,
    0xa8, 0x9e, 0xca, 0xf3, 0x24, 0x66, 0xef, 0x97,
    0x3a, 0xd7, 0x7b, 0xb4, 0x0d, 0x7a, 0x36, 0x60,
    0xa8, 0x9e, 0xca, 0xf3, 0x24, 0x66, 0xef, 0x97]

section Patch
variable {w : Writes n} {b ref : Buffer n}

@[simp] theorem getElem_patch (i : Nat) (hi : i < n) : (patch w b)[i] = w[i].getD b[i] := by
  simp [patch]

/-- The buffer ends as `ref` iff nothing wrong was written and nothing was missing. -/
theorem patch_eq_iff : patch w b = ref ↔ Harmless w ref ∧ Covered w b ref := by
  constructor
  · rintro rfl
    constructor
    · intro i hi byte hbyte
      simp [hbyte]
    · intro i hi hnone
      simp [hnone]
  · rintro ⟨hharmless, hcovered⟩
    refine Vector.ext fun i hi => ?_
    rw [getElem_patch]
    cases hw : w[i] with
    | none => exact hcovered i hi hw
    | some byte => exact hharmless i hi byte hw

theorem Produces.getElem (h : Produces w ref) (i : Nat) (hi : i < n) : w[i] = some ref[i] := by
  simp only [Produces] at h
  simp [h]

theorem Produces.patch_eq (h : Produces w ref) : patch w b = ref := by
  refine patch_eq_iff.mpr ⟨fun i hi byte hbyte => ?_, fun i hi hnone => ?_⟩
  · rw [h.getElem i hi] at hbyte
    exact (Option.some.inj hbyte).symm
  · rw [h.getElem i hi] at hnone
    exact False.elim (Option.some_ne_none _ hnone)

/-- On a buffer that holds `ref` already, anything harmless keeps it. -/
theorem patch_self_iff : patch w ref = ref ↔ Harmless w ref := by
  rw [patch_eq_iff]
  exact ⟨fun h => h.1, fun h => ⟨h, fun _ _ _ => rfl⟩⟩

end Patch

end Aes
