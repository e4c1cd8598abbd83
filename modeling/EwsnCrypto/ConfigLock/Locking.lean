import EwsnCrypto.ConfigLock.Dump

/-!
# What may be locked

A lock is proper when the zone it makes permanent holds the configuration of
`patternSlotConfig` on the writable bytes. The application checks the status of
its write only to print a line, so whether its locks are proper depends on the
device and on the point where the write stopped. The result below is exact.
-/

open InputProgram

namespace ConfigLock

/-- Bytes 20 to 127 without the lock word hold the pattern. -/
def HoldsPattern (zone : Vector UInt8 configSize) : Prop := PatternFrom zone 0

instance (zone : Vector UInt8 configSize) : Decidable (HoldsPattern zone) :=
  inferInstanceAs (Decidable (PatternFrom zone 0))

/-- The config zone is locked only with the pattern in it, the data zone only
while the config zone is locked with the pattern. -/
def ProperLock (before after : Device) : Prop :=
  (before.configLocked = false → after.configLocked = true → HoldsPattern after.zone) ∧
  (before.dataLocked = false → after.dataLocked = true →
    before.configLocked = true ∧ HoldsPattern before.zone)

def Event.Proper : Event → Prop
  | .call _ _ before after => ProperLock before after
  | _ => True

/-- Every lock that a run sets is proper. -/
def LocksOnlyPattern (trace : List Event) : Prop := ∀ e ∈ trace, e.Proper

/-- A lock takes effect only on a configuration that the write completed or that
was there, and the data lock only behind a config lock on it. -/
def LocksBehindPattern (o : Outcomes) (d : Device) : Prop :=
  (d.configLocked = false → o.lockConfig.takesEffect = true →
    PatternFrom d.zone (o.write.words (configSize - 20))) ∧
  (d.dataLocked = false → o.lockData.takesEffect = true →
    if d.configLocked then HoldsPattern d.zone
    else o.lockConfig.takesEffect = true ∧
      PatternFrom d.zone (o.write.words (configSize - 20)))

theorem properLock_of_flags {before after : Device}
    (hconfig : after.configLocked = before.configLocked)
    (hdata : after.dataLocked = before.dataLocked) : ProperLock before after := by
  constructor
  · intro hunlocked hlocked
    rw [hconfig, hunlocked] at hlocked
    exact False.elim (Bool.false_ne_true hlocked)
  · intro hunlocked hlocked
    rw [hdata, hunlocked] at hlocked
    exact False.elim (Bool.false_ne_true hlocked)

section Reading

theorem proper_of_dump {e : Event} (he : e.OfDump) : e.Proper := by
  cases e with
  | call c status before after => exact False.elim he
  | printf line args => trivial
  | dataIndex i => trivial

/-- What follows the locks only reads the device. -/
theorem proper_readConfig_report (o : Outcomes) (d : Device) :
    ∀ e ∈ ((do readConfig o; report o : App Unit).exec [] (.boot d)).trace, e.Proper := by
  have hreads (c : Call) (status : Status) : (Event.call c status d d).Proper :=
    properLock_of_flags rfl rfl
  rw [bind_exec, readConfig_exec, andThen_some, report_exec, dumped_device]
  intro e he
  rcases List.mem_append.mp he with hdump | hreport
  · rcases List.mem_cons.mp hdump with rfl | hdump
    · exact hreads _ _
    · exact proper_of_dump (dumpEvents_ofDump o d e hdump)
  · simp only [reportEvents, List.mem_cons, List.not_mem_nil, or_false] at hreport
    rcases hreport with rfl | rfl | rfl | rfl
    · exact hreads _ _
    · trivial
    · exact hreads _ _
    · trivial

end Reading

section Writing
variable {zone : Vector UInt8 configSize} {words : Nat}

/-- A write of `words` words leaves the pattern iff the words after them held it. -/
theorem holdsPattern_programWords :
    HoldsPattern (programWords zone 20 (patternSlotConfig.toList.drop 20) words) ↔
      PatternFrom zone words := by
  constructor
  · intro hall a ha hlock
    have hbyte := hall a (by omega) hlock
    rwa [programWords_get, if_neg (fun h => by omega)] at hbyte
  · intro hrest a ha hlock
    rw [programWords_get]
    by_cases hwritten : (a : Nat) < 20 + 4 * words
    · exact if_pos ⟨by omega, hwritten, hlock⟩
    · rw [if_neg (fun h => hwritten h.2.1)]
      exact hrest a (by omega) hlock

end Writing

section Run
variable (o : Outcomes) (d : Device)

/-- The device after `program_config` and after the first lock. -/
def written : Device :=
  (atcabWriteBytesZone o.write 20 (patternSlotConfig.toList.drop 20) d).2

def configLockTried : Device := (atcabLockConfigZone o.lockConfig (written o d)).2

def dataLockTried : Device := (atcabLockDataZone o.lockData (configLockTried o d)).2

theorem properLock_written : ProperLock d (written o d) := by
  apply properLock_of_flags <;> simp only [written, atcabWriteBytesZone] <;> split <;> rfl

theorem properLock_lockConfig_iff (o : LockOutcome) (d : Device) :
    ProperLock d (atcabLockConfigZone o d).2 ↔
      (d.configLocked = false → o.takesEffect = true → HoldsPattern d.zone) := by
  simp only [atcabLockConfigZone]
  cases hlocked : d.configLocked with
  | true => simpa using properLock_of_flags rfl rfl
  | false =>
    constructor
    · intro hproper _ heffect
      exact hproper.1 hlocked heffect
    · intro hpattern
      refine ⟨fun _ heffect => hpattern rfl heffect, fun hopen hlock => ?_⟩
      exact False.elim (Bool.false_ne_true (hopen.symm.trans hlock))

theorem properLock_lockData_iff (o : LockOutcome) (d : Device) :
    ProperLock d (atcabLockDataZone o d).2 ↔
      (d.dataLocked = false → o.takesEffect = true →
        d.configLocked = true ∧ HoldsPattern d.zone) := by
  simp only [atcabLockDataZone]
  cases hlocked : d.dataLocked with
  | true => simpa using properLock_of_flags rfl rfl
  | false =>
    constructor
    · intro hproper _ heffect
      exact hproper.2 hlocked heffect
    · intro hpattern
      refine ⟨fun hopen hlock => ?_, fun _ heffect => hpattern rfl heffect⟩
      exact False.elim (Bool.false_ne_true (hopen.symm.trans hlock))

/-- Of an attempted call only the change of the device matters. -/
theorem proper_attempt_iff {c : Call} {f : Device → Status × Device} {line : String} {s : Board} :
    (∀ e ∈ ((attempt c f line).exec [] s).trace, e.Proper) ↔
      ProperLock s.device (f s.device).2 := by
  rw [attempt_exec]
  constructor
  · intro h
    exact h _ List.mem_cons_self
  · intro h e he
    rcases List.mem_cons.mp he with rfl | hwarning
    · exact h
    · split at hwarning
      · simp at hwarning
      · rw [List.mem_singleton.mp hwarning]
        trivial

theorem proper_attempt_bind_iff {c : Call} {f : Device → Status × Device} {line : String}
    {rest : App Unit} {s : Board} :
    (∀ e ∈ ((attempt c f line >>= fun _ => rest).exec [] s).trace, e.Proper) ↔
      ProperLock s.device (f s.device).2 ∧
        ∀ e ∈ (rest.exec [] { s with device := (f s.device).2 }).trace, e.Proper := by
  rw [forall_trace_bind, proper_attempt_iff, attempt_exec]
  simp

theorem locksOnlyPattern_run_iff :
    LocksOnlyPattern (run ⟨true, true⟩ o d) ↔
      ProperLock d (written o d) ∧ ProperLock (written o d) (configLockTried o d) ∧
        ProperLock (configLockTried o d) (dataLockTried o d) := by
  simp only [LocksOnlyPattern, run, main_eq, prepare, programConfig, lockZones]
  simp only [onlyIf_true, bind_assoc, proper_attempt_bind_iff]
  constructor
  · rintro ⟨hwrite, hconfig, hdata, _⟩
    exact ⟨hwrite, hconfig, hdata⟩
  · rintro ⟨hwrite, hconfig, hdata⟩
    exact ⟨hwrite, hconfig, hdata, proper_readConfig_report o _⟩

end Run

/-- Built with both flags, a run sets only proper locks iff its outcomes lock
behind the pattern. -/
theorem locksOnlyPattern_iff (o : Outcomes) (d : Device) :
    LocksOnlyPattern (run ⟨true, true⟩ o d) ↔ LocksBehindPattern o d := by
  have hconfig : ProperLock (written o d) (configLockTried o d) ↔ _ :=
    properLock_lockConfig_iff o.lockConfig (written o d)
  rw [locksOnlyPattern_run_iff, dataLockTried, properLock_lockData_iff, hconfig]
  have hwritten := properLock_written o d
  cases hlocked : d.configLocked with
  | true =>
    have hsame : written o d = d := by simp [written, atcabWriteBytesZone, hlocked]
    have htried : configLockTried o d = d := by
      simp [configLockTried, hsame, atcabLockConfigZone, hlocked]
    simp [LocksBehindPattern, hsame, htried, hlocked, properLock_of_flags]
  | false =>
    have hzone : HoldsPattern (written o d).zone ↔
        PatternFrom d.zone (o.write.words (configSize - 20)) := by
      simp only [written, atcabWriteBytesZone, hlocked, Bool.false_eq_true, if_false]
      rw [holdsPattern_programWords]
      simp
    have hopen : (written o d).configLocked = false := by
      simp [written, atcabWriteBytesZone, hlocked]
    have hdata : (configLockTried o d).dataLocked = d.dataLocked := by
      simp [configLockTried, written, atcabLockConfigZone, atcabWriteBytesZone, hlocked]
    have htried : (configLockTried o d).configLocked = o.lockConfig.takesEffect := by
      simp [configLockTried, atcabLockConfigZone, hopen]
    have hsame : (configLockTried o d).zone = (written o d).zone := by
      simp [configLockTried, atcabLockConfigZone, hopen]
    simp only [LocksBehindPattern, hlocked, hopen, hdata, htried, hsame, hzone, hwritten,
      true_and, Bool.false_eq_true, if_false]

/-- An unlocked device whose write stops before the first word; both locks succeed. -/
def blankDevice : Device := ⟨Vector.replicate configSize 0, false, false⟩

def writeFails : Outcomes :=
  ⟨.failed 0, .locked, .locked, .success, .success, .success⟩

theorem blank_zone_locked : ¬ LocksOnlyPattern (run ⟨true, true⟩ writeFails blankDevice) := by
  intro hproper
  have hlock := ((locksOnlyPattern_run_iff writeFails blankDevice).mp hproper).2.1
  have hpattern : HoldsPattern (configLockTried writeFails blankDevice).zone :=
    hlock.1 rfl rfl
  have hbyte := hpattern ⟨20, by decide⟩ (by decide) (by decide)
  exact absurd hbyte (by decide)

end ConfigLock
