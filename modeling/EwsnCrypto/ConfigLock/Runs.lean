import EwsnCrypto.ConfigLock.Model

/-!
# The three parts of a run

`main` configures and locks where it is built for that, dumps the zone, and
reports on the locks. The first and the last part print fixed lines only, and
the dump leaves the device alone.
-/

open InputProgram

namespace ConfigLock

theorem attempt_exec (c : Call) (f : Device → Status × Device) (line : String) (s : Board) :
    (attempt c f line).exec [] s =
      ⟨.call c (f s.device).1 s.device (f s.device).2 ::
          (if (f s.device).1 = .success then [] else [.printf line []]),
        { s with device := (f s.device).2 }, [], some ()⟩ := by
  cases hstatus : (f s.device).1 <;> simp [attempt, call, print, hstatus]

/-- `main` before `read_config`. -/
def prepare (b : Build) (o : Outcomes) : App Unit := do
  onlyIf b.configCrypto (programConfig o)
  onlyIf b.lockCrypto (lockZones o)

/-- The device that `prepare` leaves. -/
def prepared (b : Build) (o : Outcomes) (d : Device) : Device :=
  let d := if b.configCrypto then
    (atcabWriteBytesZone o.write 20 (patternSlotConfig.toList.drop 20) d).2 else d
  if b.lockCrypto then
    (atcabLockDataZone o.lockData (atcabLockConfigZone o.lockConfig d).2).2 else d

/-- `main` behind `read_config`. -/
def report (o : Outcomes) : App Unit := do
  let isLockedConfig ← atcabIsLocked .config o.isLockedConfig false
  print (if !isLockedConfig then "Config zone not locked.\n" else "Config zone locked.\n")
  let isLockedData ← atcabIsLocked .data o.isLockedData false
  print (if !isLockedData then "Data zone not locked.\n" else "Data zone locked.\n")

theorem main_eq (b : Build) (o : Outcomes) :
    main b o = (do prepare b o; readConfig o; report o) := by
  simp only [main, prepare, report, bind_assoc]

/-- The lines of the first part. -/
def warnings : List String :=
  ["Write went wrong\n", "Lock config zone went wrong\n", "Lock data zone went wrong\n"]

/-- The lines of the report. -/
def reportLines : List String :=
  ["Config zone not locked.\n", "Config zone locked.\n", "Data zone not locked.\n",
    "Data zone locked.\n"]

/-- One of these lines, or a call other than the one that reads the zone. -/
def Event.Within (lines : List String) : Event → Prop
  | .call c _ _ _ => c ≠ .readConfigZone
  | .printf line args => line ∈ lines ∧ args = []
  | .dataIndex _ => False

/-- `p` takes a board just powered up from one device to another, with calls and warnings. -/
def Prepares (p : App Unit) (d d' : Device) : Prop :=
  ∃ tr, p.exec [] (.boot d) = ⟨tr, .boot d', [], some ()⟩ ∧ ∀ e ∈ tr, e.Within warnings

theorem Prepares.bind {p q : App Unit} {d d' d'' : Device} (hp : Prepares p d d')
    (hq : Prepares q d' d'') : Prepares (p >>= fun _ => q) d d'' := by
  obtain ⟨tr, hexec, hwithin⟩ := hp
  obtain ⟨tr', hexec', hwithin'⟩ := hq
  refine ⟨tr ++ tr', ?_, ?_⟩
  · rw [bind_exec, hexec, andThen_some, hexec']
  · intro e he
    rcases List.mem_append.mp he with hfirst | hnext
    · exact hwithin e hfirst
    · exact hwithin' e hnext

theorem prepares_onlyIf {p : App Unit} {d d' : Device} (hp : Prepares p d d') (c : Bool) :
    Prepares (onlyIf c p) d (if c then d' else d) := by
  cases c with
  | false => exact ⟨[], rfl, by simp⟩
  | true => exact hp

theorem prepares_attempt {c : Call} (hc : c ≠ .readConfigZone) (f : Device → Status × Device)
    {line : String} (hline : line ∈ warnings) (d : Device) :
    Prepares (attempt c f line) d (f d).2 := by
  refine ⟨_, attempt_exec c f line (.boot d), fun e he => ?_⟩
  rcases List.mem_cons.mp he with rfl | hwarning
  · exact hc
  · split at hwarning
    · exact False.elim (List.not_mem_nil hwarning)
    · rw [List.mem_singleton.mp hwarning]
      exact ⟨hline, rfl⟩

theorem prepares_prepare (b : Build) (o : Outcomes) (d : Device) :
    Prepares (prepare b o) d (prepared b o d) := by
  have hlocks (d : Device) : Prepares (lockZones o) d
      (atcabLockDataZone o.lockData (atcabLockConfigZone o.lockConfig d).2).2 :=
    (prepares_attempt (by decide) _ (by decide) d).bind
      (prepares_attempt (by decide) _ (by decide) _)
  exact (prepares_onlyIf (prepares_attempt (by decide) _ (by decide) d) b.configCrypto).bind
    (prepares_onlyIf (hlocks _) b.lockCrypto)

theorem write_flags (o : WriteOutcome) (offset : Nat) (data : List UInt8) (d : Device) :
    (atcabWriteBytesZone o offset data d).2.configLocked = d.configLocked ∧
      (atcabWriteBytesZone o offset data d).2.dataLocked = d.dataLocked := by
  simp only [atcabWriteBytesZone]
  split <;> exact ⟨rfl, rfl⟩

theorem lockConfig_flags (o : LockOutcome) (d : Device) :
    (atcabLockConfigZone o d).2.configLocked = (d.configLocked || o.takesEffect) ∧
      (atcabLockConfigZone o d).2.dataLocked = d.dataLocked := by
  cases hlocked : d.configLocked <;> simp [atcabLockConfigZone, hlocked]

theorem lockData_flags (o : LockOutcome) (d : Device) :
    (atcabLockDataZone o d).2.configLocked = d.configLocked ∧
      (atcabLockDataZone o d).2.dataLocked = (d.dataLocked || o.takesEffect) := by
  cases hlocked : d.dataLocked <;> simp [atcabLockDataZone, hlocked]

/-- Behind the first part a zone is locked where it was, or where its lock took effect. -/
theorem prepared_flags (b : Build) (o : Outcomes) (d : Device) :
    (prepared b o d).configLocked = (d.configLocked || (b.lockCrypto && o.lockConfig.takesEffect)) ∧
      (prepared b o d).dataLocked = (d.dataLocked || (b.lockCrypto && o.lockData.takesEffect)) := by
  cases hconfig : b.configCrypto <;> cases hlock : b.lockCrypto <;>
    simp [prepared, hconfig, hlock, write_flags, lockConfig_flags, lockData_flags]

/-- What `atcab_is_locked` leaves in a flag that was false. -/
def lockFlag (o : Status) (locked : Bool) : Bool := decide (o = .success) && locked

def configLine (locked : Bool) : Event :=
  .printf (if !locked then "Config zone not locked.\n" else "Config zone locked.\n") []

def dataLine (locked : Bool) : Event :=
  .printf (if !locked then "Data zone not locked.\n" else "Data zone locked.\n") []

/-- The four events of the report. -/
def reportEvents (o : Outcomes) (d : Device) : List Event :=
  [.call (.isLocked .config) o.isLockedConfig d d,
    configLine (lockFlag o.isLockedConfig d.configLocked),
    .call (.isLocked .data) o.isLockedData d d, dataLine (lockFlag o.isLockedData d.dataLocked)]

theorem report_exec (o : Outcomes) (s : Board) :
    (report o).exec [] s = ⟨reportEvents o s.device, s, [], some ()⟩ := by
  have hconfig : (atcabIsLocked .config o.isLockedConfig false).exec [] s =
      ⟨[.call (.isLocked .config) o.isLockedConfig s.device s.device], s, [],
        some (lockFlag o.isLockedConfig s.device.configLocked)⟩ := by
    cases hstatus : o.isLockedConfig <;> simp [atcabIsLocked, call, lockFlag]
  have hdata : (atcabIsLocked .data o.isLockedData false).exec [] s =
      ⟨[.call (.isLocked .data) o.isLockedData s.device s.device], s, [],
        some (lockFlag o.isLockedData s.device.dataLocked)⟩ := by
    cases hstatus : o.isLockedData <;> simp [atcabIsLocked, call, lockFlag]
  simp only [report, bind_exec, hconfig, hdata, andThen_some, print, emit_exec]
  rfl

theorem reportEvents_within (o : Outcomes) (d : Device) :
    ∀ e ∈ reportEvents o d, e.Within reportLines := by
  have hcall (zone : Zone) (status : Status) :
      (Event.call (.isLocked zone) status d d).Within reportLines := Call.noConfusion
  have hconfig (locked : Bool) : (configLine locked).Within reportLines := by
    cases locked <;> exact ⟨by decide, rfl⟩
  have hdata (locked : Bool) : (dataLine locked).Within reportLines := by
    cases locked <;> exact ⟨by decide, rfl⟩
  intro e he
  simp only [reportEvents, List.mem_cons, List.not_mem_nil, or_false] at he
  rcases he with rfl | rfl | rfl | rfl
  · exact hcall _ _
  · exact hconfig _
  · exact hcall _ _
  · exact hdata _

end ConfigLock
