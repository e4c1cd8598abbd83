import EwsnCrypto.Base.Monitor
import EwsnCrypto.Trigger
import Mathlib.Algebra.BigOperators.Group.Finset.Basic

/-!
# The ATECC608A optimisation application

`main` computes hashes on the chip, with or without reading the context back
and writing it again around the update. ATCA_MANUAL_ONOFF leaves the power of
the chip to the application: it sleeps at first, is woken before the loop and
put to sleep behind it. The inputs are the readings of the sync pin, each with
the time that passes until it.
-/

open InputProgram
open Trigger (Pin PinMode)

namespace Atecc

/-- The build macros. -/
structure Build where
  testEnergy : Bool
  noI2cReconf : Bool
  saveCtx : Bool
  manualOnOff : Bool
  periphI2cReconfigure : Bool
deriving DecidableEq

/-- `i2c_config[cfg->atcai2c.bus].speed`. -/
inductive I2cSpeed where
  | normal
  | fast
  | other
deriving DecidableEq

/-- `context` and `context_size`. -/
structure Saved where
  context : List UInt8
  size : Nat
deriving DecidableEq

/-- The commands of the chip that compute a hash. -/
inductive Command where
  | hwSha2Init
  | hwSha2Update (message : List UInt8)
  | hwSha2Finish
  | shaReadContext
  | shaWriteContext (saved : Saved)
deriving DecidableEq

/-- What one command does: its status, the time it takes, and for
`atcab_sha_read_context` what it leaves in the context. -/
structure Answer where
  status : Nat
  duration : Nat
  saved : Saved

/-- `gpio_read(gpio_sync_pin)` after `elapsed` has passed. -/
structure Reading where
  high : Bool
  elapsed : Nat
deriving DecidableEq

def Reading.low (r : Reading) : Bool := !r.high

inductive Event where
  | gpioInit (p : Pin) (mode : PinMode)
  | gpioWrite (p : Pin) (high : Bool)
  | syncRead (r : Reading)
  | ateccWake
  | ateccSleep
  | command (c : Command) (duration : Nat)
  | xtimerNow (usec : UInt32)
  | puts (line : String)
  | printf (format : String) (args : List Nat)
deriving DecidableEq

/-- The memory of a program is the context it has saved. -/
abbrev App (α : Type) : Type := Prog Reading Event Saved α

/-- The answer to command `k` of iteration `i`. -/
abbrev Replies : Type := Nat → Nat → Answer

/-- `start` and `stop`. -/
structure Stopwatch where
  start : UInt32
  stop : UInt32

def atcaSuccess : Nat := 0

def sha256HashSize : Nat := 32

/-- `teststring`, without the end of the string. -/
def teststring : List UInt8 :=
  "This is a teststring fore sha256".toList.map fun c => UInt8.ofNat c.toNat

def puts (line : String) : App Unit := emit (.puts line)

def gpioInit (p : Pin) (mode : PinMode) : App Unit := emit (.gpioInit p mode)

def gpioSet (p : Pin) : App Unit := emit (.gpioWrite p true)

def gpioClear (p : Pin) : App Unit := emit (.gpioWrite p false)

/-- `while(gpio_read(gpio_sync_pin)) {};` -/
def whileSyncHigh : App Unit := pollWhile Reading.high .syncRead

/-- `while(!gpio_read(gpio_sync_pin)) {};` -/
def whileSyncLow : App Unit := pollWhile Reading.low .syncRead

def initTrigger (b : Build) : App Unit := do
  if b.testEnergy then
    gpioInit .active .output
    gpioInit .aesKey .output
    gpioInit .sync .input
    gpioSet .active
    gpioClear .aesKey
  else
    gpioInit .active .output
    gpioClear .active

/-- `defined(ATCA_MANUAL_ONOFF) && !defined(NO_I2C_RECONF)` -/
def Build.wakesInTrigger (b : Build) : Bool := b.manualOnOff && !b.noI2cReconf

def startTrigger (b : Build) : App Unit := do
  if b.testEnergy then
    whileSyncHigh
    whileSyncLow
    onlyIf b.wakesInTrigger (emit .ateccWake)
    gpioClear .active
  else
    gpioSet .active

def stopTrigger (b : Build) : App Unit := do
  if b.testEnergy then
    gpioSet .aesKey
    gpioSet .active
    gpioClear .aesKey
  else
    gpioClear .active

/-- The message after a command that has failed. -/
def complaint (a : Answer) (message : Event) : List Event :=
  if a.status ≠ atcaSuccess then [message] else []

/-- A command, and the message if its status is not ATCA_SUCCESS. -/
def command (c : Command) (a : Answer) (message : Event) : App Unit :=
  act fun saved => ((), saved, .command c a.duration :: complaint a message)

def shaReadContext (a : Answer) (message : Event) : App Unit :=
  act fun _ => ((), a.saved, .command .shaReadContext a.duration :: complaint a message)

def shaWriteContext (a : Answer) (message : Event) : App Unit :=
  act fun saved => ((), saved, .command (.shaWriteContext saved) a.duration :: complaint a message)

/-- The commands of one iteration of `ata_with_ctx_save`. -/
def hashWithCtxSave (message : List UInt8) (answers : Nat → Answer) : App Unit := do
  command .hwSha2Init (answers 0) (.puts "atcab_hw_sha2_256_initERROR")
  shaReadContext (answers 1) (.puts "1atcab_sha_read_contextERROR")
  shaWriteContext (answers 2) (.puts "atcab_sha_write_contextERROR")
  command (.hwSha2Update message) (answers 3) (.puts "atcab_hw_sha2_256_updateERROR")
  shaReadContext (answers 4) (.puts "2atcab_sha_read_contextERROR")
  shaWriteContext (answers 5) (.puts "atcab_sha_write_contextERROR")
  command .hwSha2Finish (answers 6) (.puts "atcab_hw_sha2_256_finishERROR")

/-- The commands of iteration `i` of `ata_without_ctx_save`. -/
def hashWithoutCtxSave (message : List UInt8) (answers : Nat → Answer) (i : Nat) : App Unit := do
  command .hwSha2Init (answers 0)
    (.printf "atcab_hw_sha2_256_init ERROR: %x, %i\n" [(answers 0).status, i])
  command (.hwSha2Update message) (answers 1)
    (.printf "atcab_hw_sha2_256_update ERROR: %x, %i\n" [(answers 1).status, i])
  command .hwSha2Finish (answers 2)
    (.printf "atcab_hw_sha2_256_finish ERROR: %x, %i\n" [(answers 2).status, i])

/-- The loop of both functions. -/
def iterate (b : Build) (numIter : Nat) (hash : Nat → App Unit) : App Unit :=
  forRange numIter fun i => do
    startTrigger b
    hash i
    stopTrigger b

/-- The loop between two readings of the timer, with the chip awake. -/
def timed (b : Build) (numIter : Nat) (watch : Stopwatch) (format : String)
    (hash : Nat → App Unit) : App Unit := do
  emit (.xtimerNow watch.start)
  onlyIf b.manualOnOff (emit .ateccWake)
  iterate b numIter hash
  onlyIf b.manualOnOff (emit .ateccSleep)
  emit (.xtimerNow watch.stop)
  emit (.printf format [numIter * sha256HashSize, (watch.stop - watch.start).toNat])

/-- `uint8_t context[SHA_CONTEXT_MAX_SIZE]`, cleared, and its size. -/
def freshContext (shaContextMaxSize : Nat) : Saved :=
  ⟨List.replicate shaContextMaxSize 0, shaContextMaxSize⟩

def ataWithCtxSave (b : Build) (message : List UInt8) (shaContextMaxSize numIter : Nat)
    (watch : Stopwatch) (replies : Replies) : App Unit := do
  act fun _ => ((), freshContext shaContextMaxSize, [])
  timed b numIter watch "ata_with_ctx_save: %i Bytes int %u us\n"
    fun i => hashWithCtxSave message (replies i)

def ataWithoutCtxSave (b : Build) (message : List UInt8) (numIter : Nat) (watch : Stopwatch)
    (replies : Replies) : App Unit :=
  timed b numIter watch "ata_without_ctx_save: %i Bytes int %u us\n"
    fun i => hashWithoutCtxSave message (replies i) i

/-- The lines that name the speed of the bus. -/
def reportI2c (b : Build) (speed : I2cSpeed) : App Unit := do
  puts (if b.noI2cReconf then "SLOW I2C" else "FAST I2C")
  puts (if b.periphI2cReconfigure then "GPIO WAKEUP" else "I2C WAKEUP")
  onlyIf (speed = .normal) (puts "I2C_SPEED_NORMAL")
  onlyIf (speed = .fast) (puts "I2C_SPEED_FAST")

def main (b : Build) (speed : I2cSpeed) (shaContextMaxSize numIter : Nat) (watch : Stopwatch)
    (replies : Replies) : App Unit := do
  initTrigger b
  reportI2c b speed
  if b.manualOnOff then
    emit .ateccSleep
    puts "ATCA_MANUAL_ON"
  else
    puts "ATCA_MANUAL_OFF"
  if b.saveCtx then
    puts "SAVE CTX"
    ataWithCtxSave b teststring shaContextMaxSize numIter watch replies
  else
    puts "NO SAVE CTX"
    ataWithoutCtxSave b teststring numIter watch replies

end Atecc
