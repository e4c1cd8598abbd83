import EwsnCrypto.Base.ProgramLogic

/-!
# The configure-and-lock application

The device is its config zone and the two lock flags. Each call has an outcome
that the device and the bus decide; on a locked zone a write or a lock fails
whatever its outcome says. A run records every call with the device before and
after it, so that a lock can be judged at the call that sets it.
-/

open InputProgram

namespace ConfigLock

/-- `ATCA_ECC_CONFIG_SIZE`. -/
abbrev configSize : Nat := 128

def patternSlotConfig : Vector UInt8 configSize := #v[
  0x00, 0x00, 0x00, 0x00, -- serial number, read only
  0x00, 0x00, 0x00, 0x00, -- revision number, read only
  0x00, 0x00, 0x00, 0x00, -- serial number, read only
  0x00, 0x00, 0x00, 0x00, -- reserved, I2C enable, reserved, read only
  0xC0, 0x00, 0x00, 0x00, -- I2C address, reserved, OTP mode, chip mode
  0x87, 0x20, 0x87, 0x20, -- slots 0 and 1
  0x87, 0x20, 0x87, 0x20, -- slots 2 and 3
  0x83, 0x20, 0x83, 0x20, -- slots 4 and 5
  0x8F, 0x20, 0x87, 0x20, -- slots 6 and 7
  0x00, 0x00, 0x00, 0x00, -- slots 8 and 9
  0x00, 0x00, 0x00, 0x00, -- slots 10 and 11
  0x00, 0x00, 0x00, 0x00, -- slots 12 and 13
  0x00, 0x00, 0xA7, 0x20, -- slots 14 and 15
  0xFF, 0xFF, 0xFF, 0xFF, -- counter 0
  0x00, 0x00, 0x00, 0x00, -- counter 0
  0xFF, 0xFF, 0xFF, 0xFF, -- counter 1
  0x00, 0x00, 0x00, 0x00, -- counter 1
  0xFF, 0xFF, 0xFF, 0xFF, -- LastKeyUse
  0xFF, 0xFF, 0xFF, 0xFF, -- LastKeyUse
  0xFF, 0xFF, 0xFF, 0xFF, -- LastKeyUse
  0xFF, 0xFF, 0xFF, 0xFF, -- LastKeyUse
  0x00, 0x00, 0x55, 0x55, -- UserExtra, Selector, LockValue, LockConfig
  0xFF, 0xFF, 0x00, 0x00, -- SlotLocked
  0x00, 0x00, 0x00, 0x00, -- X509format
  0x33, 0x00, 0x33, 0x00, -- KeyConfig 0 and 1
  0x33, 0x00, 0x33, 0x00, -- KeyConfig 2 and 3
  0x1C, 0x00, 0x1C, 0x00, -- KeyConfig 4 and 5
  0x13, 0x00, 0x1F, 0x00, -- KeyConfig 6 and 7
  0x1C, 0x00, 0x10, 0x00, -- KeyConfig 8 and 9
  0x10, 0x00, 0x10, 0x00, -- KeyConfig 10 and 11
  0x10, 0x00, 0x10, 0x00, -- KeyConfig 12 and 13
  0x10, 0x00, 0x13, 0x00] -- KeyConfig 14 and 15

/-- `ATCA_SUCCESS`, or any other status. -/
inductive Status where
  | success
  | failure
deriving DecidableEq

inductive Zone where
  | config
  | data
deriving DecidableEq

structure Device where
  zone : Vector UInt8 configSize
  configLocked : Bool
  dataLocked : Bool
deriving DecidableEq

/-- A failing write has programmed some number of leading words. -/
inductive WriteOutcome where
  | complete
  | failed (words : Nat)
deriving DecidableEq

/-- A failing lock may have taken effect. -/
inductive LockOutcome where
  | locked
  | failed (tookEffect : Bool)
deriving DecidableEq

/-- What happens at each call of a run; every call is made at most once. -/
structure Outcomes where
  write : WriteOutcome
  lockConfig : LockOutcome
  lockData : LockOutcome
  readConfig : Status
  isLockedConfig : Status
  isLockedData : Status
deriving DecidableEq

/-- The lock word, which the library skips. -/
def IsLockByte (a : Nat) : Prop := 84 ≤ a ∧ a < 88

instance (a : Nat) : Decidable (IsLockByte a) := inferInstanceAs (Decidable (_ ∧ _))

/-- The zone after the first `words` words of `data` were written at `offset`. -/
def programWords (zone : Vector UInt8 configSize) (offset : Nat) (data : List UInt8)
    (words : Nat) : Vector UInt8 configSize :=
  Vector.ofFn fun a : Fin configSize =>
    if offset ≤ (a : Nat) ∧ (a : Nat) < offset + 4 * words ∧ ¬ IsLockByte a then
      data.getD ((a : Nat) - offset) zone[a]
    else zone[a]

/-- The writable bytes after the first `words` words of a write at 20 hold the pattern. -/
def PatternFrom (zone : Vector UInt8 configSize) (words : Nat) : Prop :=
  ∀ a : Fin configSize, 20 + 4 * words ≤ (a : Nat) → ¬ IsLockByte a → zone[a] = patternSlotConfig[a]

instance (zone : Vector UInt8 configSize) (words : Nat) : Decidable (PatternFrom zone words) :=
  inferInstanceAs (Decidable (∀ _ : Fin configSize, _ → _ → _))

theorem programWords_get {zone : Vector UInt8 configSize} {words : Nat} (a : Fin configSize) :
    (programWords zone 20 (patternSlotConfig.toList.drop 20) words)[a] =
      if 20 ≤ (a : Nat) ∧ (a : Nat) < 20 + 4 * words ∧ ¬ IsLockByte a then patternSlotConfig[a]
      else zone[a] := by
  simp only [programWords, Fin.getElem_fin, Vector.getElem_ofFn]
  by_cases hwritten : 20 ≤ (a : Nat) ∧ (a : Nat) < 20 + 4 * words ∧ ¬ IsLockByte a
  · have hindex : 20 + ((a : Nat) - 20) = a := by omega
    have hbound : (a : Nat) < patternSlotConfig.toList.length := by simp
    simp only [hwritten, and_self, not_false_eq_true, if_true]
    rw [List.getD_eq_getElem?_getD, List.getElem?_drop, hindex,
      List.getElem?_eq_getElem hbound, Option.getD_some, Vector.getElem_toList]
  · simp only [hwritten, if_false]

/-- Words programmed of a write of `length` bytes. -/
def WriteOutcome.words (length : Nat) : WriteOutcome → Nat
  | .complete => length / 4
  | .failed words => words

def WriteOutcome.status : WriteOutcome → Status
  | .complete => .success
  | .failed _ => .failure

def LockOutcome.takesEffect : LockOutcome → Bool
  | .locked => true
  | .failed tookEffect => tookEffect

def LockOutcome.status : LockOutcome → Status
  | .locked => .success
  | .failed _ => .failure

def atcabWriteBytesZone (o : WriteOutcome) (offset : Nat) (data : List UInt8) (d : Device) :
    Status × Device :=
  if d.configLocked then (.failure, d)
  else (o.status, { d with zone := programWords d.zone offset data (o.words data.length) })

def atcabLockConfigZone (o : LockOutcome) (d : Device) : Status × Device :=
  if d.configLocked then (.failure, d)
  else (o.status, { d with configLocked := o.takesEffect })

def atcabLockDataZone (o : LockOutcome) (d : Device) : Status × Device :=
  if d.dataLocked then (.failure, d)
  else (o.status, { d with dataLocked := o.takesEffect })

inductive Call where
  | writeBytesZone (zone : Zone) (offset length : Nat)
  | lockConfigZone
  | lockDataZone
  | readConfigZone
  | isLocked (zone : Zone)
deriving DecidableEq

/-- An argument of `printf`. -/
inductive Arg where
  | int (n : Nat)
  | str (s : List Char)
deriving DecidableEq

/-- What a run shows: calls, printed text, and every index into `data`. -/
inductive Event where
  | call (c : Call) (status : Status) (before after : Device)
  | printf (format : String) (args : List Arg)
  | dataIndex (i : Nat)
deriving DecidableEq

/-- The device, the running index of `read_config` and its static counters. -/
structure Board where
  device : Device
  dataCount : UInt8
  slotcount : Nat
  cntNo : Nat
  keyCnt : Nat
deriving DecidableEq

def Board.boot (d : Device) : Board := ⟨d, 0, 0, 0, 0⟩

/-- No input is read: the outcomes are parameters. -/
abbrev App (α : Type) : Type := Prog Empty Event Board α

/-- A call that may change the device. -/
def call (c : Call) (f : Device → Status × Device) : App Status :=
  act fun s => ((f s.device).1, { s with device := (f s.device).2 },
    [.call c (f s.device).1 s.device (f s.device).2])

def print (line : String) : App Unit := emit (.printf line [])

/-- `get_bin`: the bits of a byte, the most significant first. -/
def getBin (byte : UInt8) : List Char :=
  (List.range 8).map fun i => if (byte.toNat <<< i) &&& 0x80 ≠ 0 then '1' else '0'

section ReadConfig
variable (data : Vector UInt8 configSize)

/-- `get_bin(binary, data[data_count]); printf("%s ", binary); data_count++;` -/
def printByte : App Unit :=
  act fun s => ((), { s with dataCount := s.dataCount + 1 },
    [.dataIndex s.dataCount.toNat,
      .printf "%s " [.str (getBin (data.toList.getD s.dataCount.toNat 0))]])

/-- Row header and four bytes; the caller prints the label. -/
def printBytes : App Unit := do
  act fun s => ((), s,
    [.printf "%03d:%03d " [.int s.dataCount.toNat, .int (s.dataCount.toNat + 3)]])
  forRange 4 fun _ => printByte data

def printRow (label : String) : App Unit := do
  printBytes data
  print label

def printSlotRow : App Unit := do
  printBytes data
  act fun s => ((), { s with slotcount := s.slotcount + 1 },
    [.printf "SC%d SC%d " [.int s.slotcount, .int s.slotcount]])
  act fun s => ((), { s with slotcount := s.slotcount + 1 },
    [.printf "SC%d SC%d\n" [.int s.slotcount, .int s.slotcount]])

def printCounterRow : App Unit := do
  printBytes data
  act fun s => ((), s,
    [.printf "CNT%d CNT%d CNT%d CNT%d\n" [.int s.cntNo, .int s.cntNo, .int s.cntNo, .int s.cntNo]])

def printKeyUseRow (i : Nat) : App Unit := do
  printBytes data
  emit (.printf "LKU%d LKU%d LKU%d LKU%d\n" [.int i, .int (i + 1), .int (i + 2), .int (i + 3)])

def printKeyRow : App Unit := do
  printBytes data
  act fun s => ((), { s with keyCnt := s.keyCnt + 1 },
    [.printf "KC%d KC%d " [.int s.keyCnt, .int s.keyCnt]])
  act fun s => ((), { s with keyCnt := s.keyCnt + 1 },
    [.printf "KC%d KC%d\n" [.int s.keyCnt, .int s.keyCnt]])

/-- The rows of `read_config`, in order. -/
def printZone : App Unit := do
  print "Config zone: \n\n"
  printRow data "SN0 SN1 SN2 SN3\n"
  printRow data "RN0 RN1 RN2 RN3\n"
  printRow data "SN4 SN5 SN6 SN7\n"
  printRow data "SN8 RSVD I2CE RSVD\n"
  printRow data "I2CA RSVD OTPM CM\n"
  forRange 8 fun _ => printSlotRow data
  forRange 2 fun _ => do
    forRange 2 fun _ => printCounterRow data
    act fun s => ((), { s with cntNo := s.cntNo + 1 }, [])
  forRange 4 fun k => printKeyUseRow data (4 * k)
  printRow data "UE SEL LV LC\n"
  printRow data "SL0 SL1 RFU0 RFU1\n"
  printRow data "X509-0 X509-1 X509-2 X509-3\n"
  forRange 8 fun _ => printKeyRow data

end ReadConfig

def readConfig (o : Outcomes) : App Unit := do
  act fun s => ((), { s with dataCount := 0 }, [])
  match ← call .readConfigZone fun d => (o.readConfig, d) with
  | .failure => print "Error reading config zone\n"
  | .success => do
    let d ← act fun s => (s.device, s, [])
    printZone d.zone

/-- `status = call(); if (status != ATCA_SUCCESS) { printf(line); }` -/
def attempt (c : Call) (f : Device → Status × Device) (line : String) : App Unit := do
  let status ← call c f
  onlyIf (status ≠ .success) (print line)

def programConfig (o : Outcomes) : App Unit :=
  attempt (.writeBytesZone .config 20 (configSize - 20))
    (atcabWriteBytesZone o.write 20 (patternSlotConfig.toList.drop 20)) "Write went wrong\n"

/-- The block of `main` under LOCK_CRYPTO. -/
def lockZones (o : Outcomes) : App Unit := do
  attempt .lockConfigZone (atcabLockConfigZone o.lockConfig) "Lock config zone went wrong\n"
  attempt .lockDataZone (atcabLockDataZone o.lockData) "Lock data zone went wrong\n"

/-- `atcab_is_locked(zone, &flag)`: a failing call leaves the flag unwritten. -/
def atcabIsLocked (zone : Zone) (o : Status) (flag : Bool) : App Bool := do
  let status ← call (.isLocked zone) fun d => (o, d)
  let d ← act fun s => (s.device, s, [])
  match status, zone with
  | .failure, _ => pure flag
  | .success, .config => pure d.configLocked
  | .success, .data => pure d.dataLocked

/-- CONFIG_CRYPTO and LOCK_CRYPTO. -/
structure Build where
  configCrypto : Bool
  lockCrypto : Bool
deriving DecidableEq

def main (b : Build) (o : Outcomes) : App Unit := do
  onlyIf b.configCrypto (programConfig o)
  onlyIf b.lockCrypto (lockZones o)
  readConfig o
  let isLockedConfig ← atcabIsLocked .config o.isLockedConfig false
  print (if !isLockedConfig then "Config zone not locked.\n" else "Config zone locked.\n")
  let isLockedData ← atcabIsLocked .data o.isLockedData false
  print (if !isLockedData then "Data zone not locked.\n" else "Data zone locked.\n")

/-- The trace of a run from a device just powered up. -/
def run (b : Build) (o : Outcomes) (d : Device) : List Event :=
  ((main b o).exec [] (.boot d)).trace

end ConfigLock
