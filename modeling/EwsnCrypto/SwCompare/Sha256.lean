import EwsnCrypto.Energy.Section5
import EwsnCrypto.SwCompare.Verdicts

/-!
# The SHA-256 comparison

Every library computes the digest of the same string into `sha256_hash`, which is
never cleared.
-/

open SharedStore

namespace SwCompare.Sha256

inductive Call where
  | sha256Init
  | sha256Update (data : String)
  | sha256Final
  | coreInit
  | sha256Reset
  | sha256Input (data : String)
  | sha256Result
  | coreClean
  | tcSha256Init
  | tcSha256Update (data : String)
  | tcSha256Final
  | wcInitSha256
  | wcSha256Update (data : String)
  | wcSha256Final
  | wcSha256Free
  | cfSha256Init
  | cfSha256Update (data : String)
  | cfSha256Digest
deriving DecidableEq

abbrev Digest : Type := Vector UInt8 32

def teststring : String := "This is a teststring fore sha256"

/-- The bytes are those of section 5. -/
def expectedResultSha256 : Digest := Section5.expectedResultSha256

/-- The digest that the calls of a library deliver for a string. Without one they
leave `sha256_hash` as it is. -/
structure Replies where
  digest : Library → String → Option Digest

/-- What the calls of a library deliver in this program. -/
def Replies.output (r : Replies) (l : Library) : Option Digest := r.digest l teststring

/-- The call of a library that writes the digest. -/
def Replies.final (r : Replies) (l : Library) (c : Call) : Step Call Digest :=
  ⟨c, fun hash => (r.output l).getD hash⟩

section Blocks
variable (r : Replies)

def riot : Block Call Digest where
  contexts := ["sizeof(ctx_riot): %i\n"]
  setup := []
  phases := [[.plain .sha256Init], [.plain (.sha256Update teststring)],
    [r.final .riot .sha256Final]]
  cleanup := []
  error := .puts "ERROR"
  closing := []
  error_line := rfl

def relic : Block Call Digest where
  contexts := ["sizeof(ctx_relic): %i\n"]
  setup := [.coreInit]
  phases := [[.plain .sha256Reset], [.plain (.sha256Input teststring)],
    [r.final .relic .sha256Result]]
  cleanup := [.coreClean]
  error := .puts "ERROR"
  closing := []
  error_line := rfl

def tinycrypt : Block Call Digest where
  contexts := ["sizeof(ctx_tinycrypt): %i\n"]
  setup := []
  phases := [[.plain .tcSha256Init], [.plain (.tcSha256Update teststring)],
    [r.final .tinycrypt .tcSha256Final]]
  cleanup := []
  error := .puts "ERROR"
  closing := []
  error_line := rfl

def wolfssl : Block Call Digest where
  contexts := ["sizeof(ctx_wolfssl): %i\n"]
  setup := []
  phases := [[.plain .wcInitSha256], [.plain (.wcSha256Update teststring)],
    [r.final .wolfssl .wcSha256Final]]
  cleanup := [.wcSha256Free]
  error := .puts "ERROR"
  closing := []
  error_line := rfl

def cifra : Block Call Digest where
  contexts := ["sizeof(ctx_cifra): %i\n"]
  setup := []
  phases := [[.plain .cfSha256Init], [.plain (.cfSha256Update teststring)],
    [r.final .cifra .cfSha256Digest]]
  cleanup := []
  error := .puts "ERROR"
  closing := []
  error_line := rfl

def block : Library → Block Call Digest
  | .riot => riot r
  | .relic => relic r
  | .tinycrypt => tinycrypt r
  | .wolfssl => wolfssl r
  | .cifra => cifra r

/-- `sha256_hash` is declared without a value. -/
def application : Application Call Digest where
  block := block r
  declare hash := hash
  passes hash := decide (expectedResultSha256 = hash)

end Blocks

/-- The calls of a library deliver the right digest. -/
def Delivers (r : Replies) (l : Library) : Prop := r.output l = some expectedResultSha256

/-- Where a library delivers nothing, neither `sha256_hash` at first nor the digest
that was delivered last before it is the right one. -/
def NothingLeft (r : Replies) (b : Build) (hash : Digest) : Prop :=
  ∀ l, b.enabled l = true → r.output l = none →
    hash ≠ expectedResultSha256 ∧
      lastWritten r.output (before b.libraries l) ≠ some expectedResultSha256

variable {r : Replies}

theorem effect_eq : (application r).effect = fun l hash => (r.output l).getD hash := by
  funext l hash
  cases l <;> rfl

theorem passes_iff {hash : Digest} :
    (application r).passes hash = false ↔ hash ≠ expectedResultSha256 := by
  rw [application, decide_eq_false_iff_not, ne_comm]

theorem passes_of_delivers (l : Library) (hash : Digest) (h : Delivers r l) :
    (application r).passes ((application r).effect l hash) = true := by
  simp only [effect_eq]
  rw [h]
  exact decide_eq_true (Eq.refl expectedResultSha256)

/-- The verdicts are independent iff nothing right is left for a library that
delivers nothing. -/
theorem independent_iff_nothingLeft (b : Build) (hash : Digest) :
    (application r).Independent (Delivers r) b hash ↔ NothingLeft r b hash := by
  rw [Application.independent_iff _ _ _ _ passes_of_delivers]
  simp only [passes_iff, effect_eq, storeAfter_write, getD_ne_iff]
  constructor
  · intro h l hl hnone
    have hfails : ¬ Delivers r l := fun h => nomatch hnone.symm.trans h
    obtain ⟨⟨_, halone⟩, _, hall⟩ := h l hl hfails
    exact ⟨halone hnone, (hall hnone).1⟩
  · intro h l hl hfails
    have hall (hnone : r.output l = none) := h l hl hnone
    exact ⟨⟨hfails, fun hnone => (hall hnone).1⟩, hfails,
      fun hnone => ⟨(hall hnone).2, fun _ => (hall hnone).1⟩⟩

end SwCompare.Sha256
