import EwsnCrypto.Atecc.Model
import EwsnCrypto.Base.Output

/-!
# Saving and restoring the SHA context

The optimisation application with the chip in the loop. It hashes a message of
any length, and `context` and `context_size` hold what the chip has written into
them. Saving the context is meant to leave every digest alone.
-/

open InputProgram
open Atecc (Reading Saved Stopwatch atcaSuccess)

namespace ShaContext

/-- The chip and the library in front of it. `start`, `update` and `finish` act on
`ctx` and on the hash state of the chip, and `save` is the context of a hash
state. A read for which there is too little room fails with `smallBuffer`. -/
structure Chip (Ctx σ Digest : Type) where
  start : Ctx × σ
  update : List UInt8 → Ctx × σ → Ctx × σ
  finish : Ctx × σ → Digest × (Ctx × σ)
  save : σ → List UInt8
  load : List UInt8 → σ → σ
  shaContextMaxSize : Nat
  smallBuffer : Nat
  maxSize_lt : shaContextMaxSize < 2 ^ 16
  save_length : ∀ s, (save s).length ≤ shaContextMaxSize
  load_save : ∀ s s', load (save s) s' = s
  smallBuffer_ne : smallBuffer ≠ atcaSuccess

/-- `ctx` with the hash state of the chip, and `context` with `context_size`. -/
structure Board (Ctx σ : Type) where
  hash : Ctx × σ
  saved : Saved

/-- The calls of the library, with what they compute, leave behind or send. -/
inductive Call (Digest : Type) where
  | hwSha2Init
  | hwSha2Update (message : List UInt8)
  | hwSha2Finish (res : Digest)
  | shaReadContext (status : Nat) (saved : Saved)
  | shaWriteContext (saved : Saved)

inductive Event (Digest : Type) where
  | app (e : Atecc.Event)
  | call (c : Call Digest)

abbrev Session (Ctx σ Digest α : Type) : Type := Prog Reading (Event Digest) (Board Ctx σ) α

variable {Ctx σ Digest α : Type}

/-- Code of the application that makes no call of the library. -/
def app (p : Atecc.App α) : Session Ctx σ Digest α :=
  embed Board.saved (fun saved board => { board with saved }) .app p

/-- The size of the context of a hash state. -/
def Chip.size (chip : Chip Ctx σ Digest) (s : σ) : Nat := (chip.save s).length

/-- `atcab_sha_read_context(context, &context_size)` in hash state `s`. -/
def Chip.read (chip : Chip Ctx σ Digest) (s : σ) (saved : Saved) : Nat × Saved :=
  if chip.size s ≤ saved.size then
    (atcaSuccess, ⟨chip.save s ++ saved.context.drop (chip.size s), chip.size s⟩)
  else (chip.smallBuffer, saved)

section Calls
variable (chip : Chip Ctx σ Digest)

def hwSha2Init : Session Ctx σ Digest Nat :=
  act fun board => (atcaSuccess, { board with hash := chip.start }, [.call .hwSha2Init])

def hwSha2Update (message : List UInt8) : Session Ctx σ Digest Nat :=
  act fun board => (atcaSuccess, { board with hash := chip.update message board.hash },
    [.call (.hwSha2Update message)])

def hwSha2Finish : Session Ctx σ Digest Nat :=
  act fun board =>
    let (res, hash) := chip.finish board.hash
    (atcaSuccess, { board with hash }, [.call (.hwSha2Finish res)])

def shaReadContext : Session Ctx σ Digest Nat :=
  act fun board =>
    let (status, saved) := chip.read board.hash.2 board.saved
    (status, { board with saved }, [.call (.shaReadContext status saved)])

def shaWriteContext : Session Ctx σ Digest Nat :=
  act fun board =>
    let context := board.saved.context.take board.saved.size
    (atcaSuccess, { board with hash := (board.hash.1, chip.load context board.hash.2) },
      [.call (.shaWriteContext board.saved)])

end Calls

/-- A call, and the message about its status if it is not ATCA_SUCCESS. -/
def check (call : Session Ctx σ Digest Nat) (message : Nat → Atecc.Event) :
    Session Ctx σ Digest Unit := do
  let status ← call
  onlyIf (status ≠ atcaSuccess) (emit (.app (message status)))

section Programs
variable (chip : Chip Ctx σ Digest) (message : List UInt8)

/-- The calls of one iteration of `ata_with_ctx_save`. -/
def hashWithCtxSave : Session Ctx σ Digest Unit := do
  check (hwSha2Init chip) fun _ => .puts "atcab_hw_sha2_256_initERROR"
  check (shaReadContext chip) fun _ => .puts "1atcab_sha_read_contextERROR"
  check (shaWriteContext chip) fun _ => .puts "atcab_sha_write_contextERROR"
  check (hwSha2Update chip message) fun _ => .puts "atcab_hw_sha2_256_updateERROR"
  check (shaReadContext chip) fun _ => .puts "2atcab_sha_read_contextERROR"
  check (shaWriteContext chip) fun _ => .puts "atcab_sha_write_contextERROR"
  check (hwSha2Finish chip) fun _ => .puts "atcab_hw_sha2_256_finishERROR"

/-- The calls of iteration `i` of `ata_without_ctx_save`. -/
def hashWithoutCtxSave (i : Nat) : Session Ctx σ Digest Unit := do
  check (hwSha2Init chip) fun status =>
    .printf "atcab_hw_sha2_256_init ERROR: %x, %i\n" [status, i]
  check (hwSha2Update chip message) fun status =>
    .printf "atcab_hw_sha2_256_update ERROR: %x, %i\n" [status, i]
  check (hwSha2Finish chip) fun status =>
    .printf "atcab_hw_sha2_256_finish ERROR: %x, %i\n" [status, i]

def iterate (b : Atecc.Build) (numIter : Nat) (hash : Nat → Session Ctx σ Digest Unit) :
    Session Ctx σ Digest Unit :=
  forRange numIter fun i => do
    app (Atecc.startTrigger b)
    hash i
    app (Atecc.stopTrigger b)

def timed (b : Atecc.Build) (numIter : Nat) (watch : Stopwatch) (format : String)
    (hash : Nat → Session Ctx σ Digest Unit) : Session Ctx σ Digest Unit := do
  emit (.app (.xtimerNow watch.start))
  onlyIf b.manualOnOff (emit (.app .ateccWake))
  iterate b numIter hash
  onlyIf b.manualOnOff (emit (.app .ateccSleep))
  emit (.app (.xtimerNow watch.stop))
  emit (.app (.printf format
    [numIter * Atecc.sha256HashSize, (watch.stop - watch.start).toNat]))

def ataWithCtxSave (b : Atecc.Build) (numIter : Nat) (watch : Stopwatch) :
    Session Ctx σ Digest Unit := do
  act fun board => ((), { board with saved := Atecc.freshContext chip.shaContextMaxSize }, [])
  timed b numIter watch "ata_with_ctx_save: %i Bytes int %u us\n"
    fun _ => hashWithCtxSave chip message

def ataWithoutCtxSave (b : Atecc.Build) (numIter : Nat) (watch : Stopwatch) :
    Session Ctx σ Digest Unit :=
  timed b numIter watch "ata_without_ctx_save: %i Bytes int %u us\n"
    (hashWithoutCtxSave chip message)

end Programs

/-- The digest that a call leaves in `res`. -/
def digestOf : Event Digest → Option Digest
  | .call (.hwSha2Finish res) => some res
  | _ => none

/-- What the iterations of a run have left in `res`. -/
def digests (tr : List (Event Digest)) : List Digest := tr.filterMap digestOf

/-- In all runs of the build `b` that saves the context and of the build `b'` that
does not, corresponding iterations leave the same digest. -/
def Transparent (chip : Chip Ctx σ Digest) (message : List UInt8) (numIter : Nat)
    (b b' : Atecc.Build) : Prop :=
  ∀ (watch watch' : Stopwatch) (ins ins' : List Reading) (board board' : Board Ctx σ) (i : Nat)
    (d d' : Digest),
    (digests ((ataWithCtxSave chip message b numIter watch).exec ins board).trace)[i]? = some d →
    (digests ((ataWithoutCtxSave chip message b' numIter watch').exec ins' board').trace)[i]? =
      some d' → d = d'

end ShaContext
