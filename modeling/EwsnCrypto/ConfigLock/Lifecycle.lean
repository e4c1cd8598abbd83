import EwsnCrypto.Base.SealedMemory
import EwsnCrypto.ConfigLock.Locking
import EwsnCrypto.ConfigLock.Report

/-!
# The life of a device

Configuring and locking are separate builds, and a device sees many runs of both.
Its config zone is a memory that the config lock seals, and its data zone one that
the data lock seals: all that is left of a history is what was written in time.
-/

open InputProgram SharedStore SealedMemory

namespace ConfigLock

/-- One run of the application, from power-up on. -/
structure Boot where
  build : Build
  outcomes : Outcomes

namespace Boot

/-- The device that the run leaves. -/
def after (r : Boot) (d : Device) : Device :=
  ((main r.build r.outcomes).exec [] (.boot d)).state.device

/-- The run locks the config zone, unless it is locked already. -/
def locksConfig (r : Boot) : Bool := r.build.lockCrypto && r.outcomes.lockConfig.takesEffect

def locksData (r : Boot) : Bool := r.build.lockCrypto && r.outcomes.lockData.takesEffect

/-- Its write gets as far as byte `a`, unless the config zone is locked already. -/
def Programs (r : Boot) (a : Nat) : Prop :=
  r.build.configCrypto = true ∧ 20 ≤ a ∧ a < 20 + 4 * r.outcomes.write.words (configSize - 20) ∧
    ¬ IsLockByte a

instance (r : Boot) (a : Nat) : Decidable (r.Programs a) := inferInstanceAs (Decidable (_ ∧ _))

end Boot

def deviceAfter (boots : List Boot) (d : Device) : Device := storeAfter Boot.after boots d

/-- What a history shows. -/
def sessionTrace : List Boot → Device → List Event
  | [], _ => []
  | r :: boots, d => run r.build r.outcomes d ++ sessionTrace boots (r.after d)

theorem after_eq (r : Boot) (d : Device) : r.after d = prepared r.build r.outcomes d := by
  obtain ⟨tr, hmain, _⟩ := main_exec r.build r.outcomes d
  rw [Boot.after, hmain]
  exact dumped_device _ _

section Zones
variable (r : Boot) (d : Device)

theorem lockConfig_zone (o : LockOutcome) (d : Device) :
    (atcabLockConfigZone o d).2.zone = d.zone := by
  cases hlocked : d.configLocked <;> simp [atcabLockConfigZone, hlocked]

theorem lockData_zone (o : LockOutcome) (d : Device) : (atcabLockDataZone o d).2.zone = d.zone := by
  cases hlocked : d.dataLocked <;> simp [atcabLockDataZone, hlocked]

theorem prepared_zone (b : Build) (o : Outcomes) (d : Device) :
    (prepared b o d).zone = if b.configCrypto = true ∧ d.configLocked = false then
      programWords d.zone 20 (patternSlotConfig.toList.drop 20) (o.write.words (configSize - 20))
    else d.zone := by
  have hwrite : (atcabWriteBytesZone o.write 20 (patternSlotConfig.toList.drop 20) d).2.zone =
      if d.configLocked = false then
        programWords d.zone 20 (patternSlotConfig.toList.drop 20) (o.write.words (configSize - 20))
      else d.zone := by
    cases hlocked : d.configLocked <;> simp [atcabWriteBytesZone, hlocked]
  cases hconfig : b.configCrypto <;> cases hbuild : b.lockCrypto <;>
    simp [prepared, hconfig, hbuild, lockConfig_zone, lockData_zone, hwrite]

/-- A run changes the bytes that it programs while the config zone is open. -/
theorem byte_after (a : Fin configSize) : (r.after d).zone.get a =
    if d.configLocked = false ∧ r.Programs a then patternSlotConfig.get a else d.zone.get a := by
  have hzone : (r.after d).zone = _ := (congrArg Device.zone (after_eq r d)).trans
    (prepared_zone r.build r.outcomes d)
  by_cases hwrites : r.build.configCrypto = true ∧ d.configLocked = false
  · rw [if_pos hwrites] at hzone
    have hbyte : (r.after d).zone.get a = _ := congrArg (·.get a) hzone
    rw [hbyte]
    refine programWords_get a |>.trans ?_
    simp only [Boot.Programs, hwrites.1, hwrites.2, true_and]
    rfl
  · rw [if_neg hwrites] at hzone
    have hbyte : (r.after d).zone.get a = d.zone.get a := congrArg (·.get a) hzone
    rw [hbyte, if_neg fun h => hwrites ⟨h.2.1, h.1⟩]

end Zones

section History
variable (boots : List Boot) (d : Device)

end History

section Locks
variable {d : Device}

/-- Every program of the application only ever writes bytes of the pattern. -/
theorem holdsPattern_after (r : Boot) (h : HoldsPattern d.zone) :
    HoldsPattern (r.after d).zone := by
  intro a ha hlock
  refine (byte_after r d a).trans ?_
  split
  · rfl
  · exact h a ha hlock

theorem holdsPattern_deviceAfter {boots : List Boot} (h : HoldsPattern d.zone) :
    HoldsPattern (deviceAfter boots d).zone := by
  induction boots generalizing d with
  | nil => exact h
  | cons r boots ih => exact ih (holdsPattern_after r h)

theorem holdsPattern_programmed {r : Boot} (hconfig : r.build.configCrypto = true)
    (hwrite : r.outcomes.write = .complete) (hopen : d.configLocked = false) :
    HoldsPattern (r.after d).zone := by
  intro a ha hlock
  have hbound : (a : Nat) < 20 + 4 * WriteOutcome.complete.words (configSize - 20) := a.isLt
  have hbyte := byte_after r d a
  rw [if_pos ⟨hopen, hconfig, by omega, hwrite ▸ hbound, hlock⟩] at hbyte
  exact hbyte

/-- The device that the locks of a run find. -/
def programmed (b : Build) (o : Outcomes) (d : Device) : Device :=
  if b.configCrypto then written o d else d

/-- In every build, only the locks of a run can be improper. -/
theorem locksOnlyPattern_build_iff (b : Build) (o : Outcomes) (d : Device) :
    LocksOnlyPattern (run b o d) ↔ (b.lockCrypto = true →
      ProperLock (programmed b o d) (atcabLockConfigZone o.lockConfig (programmed b o d)).2 ∧
      ProperLock (atcabLockConfigZone o.lockConfig (programmed b o d)).2
        (atcabLockDataZone o.lockData
          (atcabLockConfigZone o.lockConfig (programmed b o d)).2).2) := by
  have hreads := proper_readConfig_report o
  have hwritten := properLock_written o d
  obtain ⟨config, lock⟩ := b
  simp only [LocksOnlyPattern, run, main_eq, prepare, programConfig, lockZones, programmed]
  cases config with
  | false =>
    cases lock with
    | false =>
      simp only [onlyIf_false, pure_bind]
      exact ⟨fun _ h => absurd h Bool.false_ne_true, fun _ => hreads d⟩
    | true =>
      simp only [onlyIf_false, onlyIf_true, pure_bind, bind_assoc, proper_attempt_bind_iff]
      exact ⟨fun h _ => ⟨h.1, h.2.1⟩, fun h => ⟨(h trivial).1, (h trivial).2, hreads _⟩⟩
  | true =>
    cases lock with
    | false =>
      simp only [onlyIf_false, onlyIf_true, bind_assoc, pure_bind, proper_attempt_bind_iff]
      exact ⟨fun _ h => absurd h Bool.false_ne_true, fun _ => ⟨hwritten, hreads _⟩⟩
    | true =>
      simp only [onlyIf_true, bind_assoc, proper_attempt_bind_iff]
      exact ⟨fun h _ => ⟨h.2.1, h.2.2.1⟩,
        fun h => ⟨hwritten, (h trivial).1, (h trivial).2, hreads _⟩⟩

theorem programmed_holdsPattern (b : Build) (o : Outcomes) (h : HoldsPattern d.zone) :
    HoldsPattern (programmed b o d).zone ∧ (programmed b o d).configLocked = d.configLocked ∧
      (programmed b o d).dataLocked = d.dataLocked := by
  obtain ⟨config, lock⟩ := b
  cases config with
  | false => exact ⟨h, rfl, rfl⟩
  | true =>
    have hafter := holdsPattern_after ⟨⟨true, false⟩, o⟩ h
    rw [after_eq] at hafter
    exact ⟨hafter, write_flags _ _ _ d⟩

/-- On a device that holds the pattern, only a data lock can be improper. -/
theorem proper_run_iff (r : Boot) (h : HoldsPattern d.zone) :
    LocksOnlyPattern (run r.build r.outcomes d) ↔
      (r.locksData = true → d.dataLocked = false →
        d.configLocked = true ∨ r.locksConfig = true) := by
  obtain ⟨b, o⟩ := r
  obtain ⟨hzone, hconfig, hdata⟩ := programmed_holdsPattern b o h
  obtain ⟨hconfig', hdata'⟩ := lockConfig_flags o.lockConfig (programmed b o d)
  rw [locksOnlyPattern_build_iff, properLock_lockConfig_iff, properLock_lockData_iff, hconfig',
    hdata', lockConfig_zone, hconfig, hdata]
  cases hlock : b.lockCrypto <;> simp [Boot.locksConfig, Boot.locksData, hlock, hzone]
  tauto

/-- The first run that locks the data zone also locks the config zone, or follows one
that did. -/
def DataBehindConfig (boots : List Boot) (d : Device) : Prop :=
  ∀ pre r post, boots = pre ++ r :: post → r.locksData = true → d.dataLocked = false →
    (∀ q ∈ pre, q.locksData = false) →
      d.configLocked = true ∨ ∃ q ∈ pre ++ [r], q.locksConfig = true

theorem dataBehindConfig_cons_iff {r : Boot} {boots : List Boot} :
    DataBehindConfig (r :: boots) d ↔
      (r.locksData = true → d.dataLocked = false → d.configLocked = true ∨ r.locksConfig = true) ∧
        DataBehindConfig boots (r.after d) := by
  have hconfig : (r.after d).configLocked = (d.configLocked || r.locksConfig) := by
    rw [after_eq]
    exact (prepared_flags r.build r.outcomes d).1
  have hdata : (r.after d).dataLocked = (d.dataLocked || r.locksData) := by
    rw [after_eq]
    exact (prepared_flags r.build r.outcomes d).2
  constructor
  · intro h
    refine ⟨fun hlocks hopen => ?_, fun pre q post heq hlocks hopen hpre => ?_⟩
    · simpa using h [] r boots rfl hlocks hopen (by simp)
    · rw [hdata, Bool.or_eq_false_iff] at hopen
      have hbehind := h (r :: pre) q post (by rw [heq, List.cons_append]) hlocks hopen.1
        (by simpa [hopen.2] using hpre)
      rw [hconfig]
      simpa [or_assoc] using hbehind
  · rintro ⟨hfirst, hrest⟩ pre q post heq hlocks hopen hpre
    cases pre with
    | nil =>
      obtain ⟨rfl, rfl⟩ := List.cons.inj heq
      simpa using hfirst hlocks hopen
    | cons p pre =>
      obtain ⟨rfl, htail⟩ := List.cons.inj heq
      have hp := hpre r List.mem_cons_self
      have hbehind := hrest pre q post htail hlocks (by simp [hdata, hopen, hp])
        fun q hq => hpre q (List.mem_cons_of_mem _ hq)
      rw [hconfig] at hbehind
      simpa [or_assoc] using hbehind

theorem locksOnlyPattern_cons_iff {r : Boot} {boots : List Boot} :
    LocksOnlyPattern (sessionTrace (r :: boots) d) ↔
      LocksOnlyPattern (run r.build r.outcomes d) ∧
        LocksOnlyPattern (sessionTrace boots (r.after d)) := by
  simp only [LocksOnlyPattern, sessionTrace, List.forall_mem_append]

theorem locksOnlyPattern_session_iff {boots : List Boot} (h : HoldsPattern d.zone) :
    LocksOnlyPattern (sessionTrace boots d) ↔ DataBehindConfig boots d := by
  induction boots generalizing d with
  | nil =>
    have hnone : DataBehindConfig [] d := fun pre r post heq => by simp at heq
    exact ⟨fun _ => hnone, fun _ e he => nomatch he⟩
  | cons r boots ih =>
    rw [locksOnlyPattern_cons_iff, proper_run_iff r h, ih (holdsPattern_after r h),
      dataBehindConfig_cons_iff]

end Locks

/-- Once a configuring build has written all of the pattern to an open device, the
config zone holds it for good, whatever fails in later runs of any build; and all
locks are proper iff no data lock comes before the config lock. -/
theorem configure_then_lock (r : Boot) (d : Device) (boots : List Boot)
    (hconfig : r.build = ⟨true, false⟩) (hwrite : r.outcomes.write = .complete)
    (hopen : d.configLocked = false) :
    HoldsPattern (deviceAfter (r :: boots) d).zone ∧
      (LocksOnlyPattern (sessionTrace (r :: boots) d) ↔ DataBehindConfig (r :: boots) d) := by
  have hpattern : HoldsPattern (r.after d).zone :=
    holdsPattern_programmed (by rw [hconfig]) hwrite hopen
  have hlock : r.build.lockCrypto = false := by rw [hconfig]
  have hfirst : LocksOnlyPattern (run r.build r.outcomes d) := by
    rw [locksOnlyPattern_build_iff, hlock]
    simp
  have hunlocked : r.locksData = false := by simp [Boot.locksData, hlock]
  have hkept : HoldsPattern (deviceAfter boots (r.after d)).zone :=
    holdsPattern_deviceAfter hpattern
  refine ⟨hkept, ?_⟩
  rw [locksOnlyPattern_cons_iff, locksOnlyPattern_session_iff hpattern, dataBehindConfig_cons_iff,
    hunlocked]
  simp [hfirst]

/-- The configuring build, and then the locking build, on a blank device. -/
theorem configure_then_lock_blank :
    HoldsPattern (deviceAfter [⟨⟨true, false⟩, allSucceed⟩, ⟨⟨false, true⟩, allSucceed⟩]
      blankDevice).zone :=
  (configure_then_lock ⟨⟨true, false⟩, allSucceed⟩ blankDevice [⟨⟨false, true⟩, allSucceed⟩] rfl rfl
    rfl).1

section Warnings
variable {line : String} (b : Build) (o : Outcomes) (d : Device)

theorem write_status (o : WriteOutcome) (offset : Nat) (data : List UInt8) (d : Device) :
    (atcabWriteBytesZone o offset data d).1 = .success ↔
      d.configLocked = false ∧ o = .complete := by
  cases hlocked : d.configLocked <;> cases o <;>
    simp [atcabWriteBytesZone, hlocked, WriteOutcome.status]

theorem lockConfig_status (o : LockOutcome) (d : Device) :
    (atcabLockConfigZone o d).1 = .success ↔ d.configLocked = false ∧ o = .locked := by
  cases hlocked : d.configLocked <;> cases o <;>
    simp [atcabLockConfigZone, hlocked, LockOutcome.status]

theorem lockData_status (o : LockOutcome) (d : Device) :
    (atcabLockDataZone o d).1 = .success ↔ d.dataLocked = false ∧ o = .locked := by
  cases hlocked : d.dataLocked <;> cases o <;> simp [atcabLockDataZone, hlocked, LockOutcome.status]

theorem dumpEvents_ne_warning (hline : line ∈ warnings) : .printf line [] ∉ dumpEvents o d := by
  have hlabels : ∀ r < 32, ∀ e ∈ labelEvents r, ∀ line ∈ warnings, e ≠ .printf line [] := by decide
  intro he
  simp only [dumpEvents] at he
  split at he
  · have hother : "Error reading config zone\n" ∉ warnings := by decide
    obtain ⟨rfl, _⟩ := Event.printf.inj (List.mem_singleton.mp he)
    exact hother hline
  · rcases List.mem_cons.mp he with hfirst | hrow
    · have hother : "Config zone: \n\n" ∉ warnings := by decide
      obtain ⟨rfl, _⟩ := Event.printf.inj hfirst
      exact hother hline
    · obtain ⟨r, hr, hrow⟩ := List.mem_flatMap.mp hrow
      rcases List.mem_append.mp hrow with hbytes | hlabel
      · rcases List.mem_cons.mp hbytes with hheader | hbyte
        · exact absurd (Event.printf.inj hheader).2 (List.cons_ne_nil _ _).symm
        · obtain ⟨j, _, hbyte⟩ := List.mem_flatMap.mp hbyte
          simp [byteEvents] at hbyte
      · exact hlabels r (List.mem_range.mp hr) _ hlabel line hline rfl

/-- The warnings of a run are those of its first part. -/
theorem warning_mem_run_iff (hline : line ∈ warnings) :
    .printf line [] ∈ run b o d ↔ .printf line [] ∈ ((prepare b o).exec [] (.boot d)).trace := by
  obtain ⟨tr, hprepare, _⟩ := prepares_prepare b o d
  have hrun : run b o d = tr ++
      (.call .readConfigZone o.readConfig (prepared b o d) (prepared b o d) ::
      dumpEvents o (prepared b o d) ++ reportEvents o (prepared b o d)) := by
    rw [run, main_eq, bind_exec, hprepare, andThen_some, bind_exec, readConfig_exec, andThen_some,
      report_exec, dumped_device]
  have hreport : .printf line [] ∉ reportEvents o (prepared b o d) := by
    have hdisjoint : ∀ line ∈ warnings, line ∉ reportLines := by decide
    exact fun he => hdisjoint line hline (reportEvents_within o _ _ he).1
  rw [hrun, hprepare]
  simp [dumpEvents_ne_warning o _ hline, hreport]

theorem warnings_prepare :
    (.printf "Write went wrong\n" [] ∈ ((prepare b o).exec [] (.boot d)).trace ↔
      b.configCrypto = true ∧ ¬ (d.configLocked = false ∧ o.write = .complete)) ∧
    (.printf "Lock config zone went wrong\n" [] ∈ ((prepare b o).exec [] (.boot d)).trace ↔
      b.lockCrypto = true ∧ ¬ (d.configLocked = false ∧ o.lockConfig = .locked)) ∧
    (.printf "Lock data zone went wrong\n" [] ∈ ((prepare b o).exec [] (.boot d)).trace ↔
      b.lockCrypto = true ∧ ¬ (d.dataLocked = false ∧ o.lockData = .locked)) := by
  obtain ⟨config, lock⟩ := b
  cases config <;> cases lock <;>
    simp [prepare, programConfig, lockZones, Board.boot, attempt_exec, write_status,
      lockConfig_status, lockData_status, write_flags, lockConfig_flags]

/-- A run complains of a call iff it makes the call, and the call fails or the zone is
locked already. -/
theorem warnings_exact :
    (.printf "Write went wrong\n" [] ∈ run b o d ↔
      b.configCrypto = true ∧ ¬ (d.configLocked = false ∧ o.write = .complete)) ∧
    (.printf "Lock config zone went wrong\n" [] ∈ run b o d ↔
      b.lockCrypto = true ∧ ¬ (d.configLocked = false ∧ o.lockConfig = .locked)) ∧
    (.printf "Lock data zone went wrong\n" [] ∈ run b o d ↔
      b.lockCrypto = true ∧ ¬ (d.dataLocked = false ∧ o.lockData = .locked)) := by
  rw [warning_mem_run_iff b o d (by decide), warning_mem_run_iff b o d (by decide),
    warning_mem_run_iff b o d (by decide)]
  exact warnings_prepare b o d

end Warnings

/-- Built with both flags, a run without a warning found an open device, and leaves it
with the pattern and with both zones locked, by proper locks. -/
theorem silent_run_locks (o : Outcomes) (d : Device)
    (hsilent : ∀ line ∈ warnings, .printf line [] ∉ run ⟨true, true⟩ o d) :
    (d.configLocked = false ∧ d.dataLocked = false) ∧
      HoldsPattern (Boot.after ⟨⟨true, true⟩, o⟩ d).zone ∧
      ((Boot.after ⟨⟨true, true⟩, o⟩ d).configLocked = true ∧
        (Boot.after ⟨⟨true, true⟩, o⟩ d).dataLocked = true) ∧
      LocksOnlyPattern (run ⟨true, true⟩ o d) := by
  obtain ⟨hwrite, hconfig, hdata⟩ := warnings_prepare ⟨true, true⟩ o d
  have hquiet {line : String} (hline : line ∈ warnings) :
      .printf line [] ∉ ((prepare ⟨true, true⟩ o).exec [] (.boot d)).trace :=
    fun he => hsilent line hline ((warning_mem_run_iff _ o d hline).mpr he)
  obtain ⟨hopen, hcomplete⟩ := not_not.mp fun h => hquiet (by decide) (hwrite.mpr ⟨rfl, h⟩)
  obtain ⟨_, hlocked⟩ := not_not.mp fun h => hquiet (by decide) (hconfig.mpr ⟨rfl, h⟩)
  obtain ⟨hopen', hlocked'⟩ := not_not.mp fun h => hquiet (by decide) (hdata.mpr ⟨rfl, h⟩)
  have hpattern : HoldsPattern (Boot.after ⟨⟨true, true⟩, o⟩ d).zone :=
    holdsPattern_programmed rfl hcomplete hopen
  obtain ⟨hflag, hflag'⟩ := prepared_flags ⟨true, true⟩ o d
  refine ⟨⟨hopen, hopen'⟩, hpattern, ?_, ?_⟩
  · rw [after_eq, hflag, hflag', hlocked, hlocked']
    simp [LockOutcome.takesEffect]
  · have hwritten : HoldsPattern (written o d).zone := by
      have hprogrammed := holdsPattern_programmed (r := ⟨⟨true, false⟩, o⟩) rfl hcomplete hopen
      rwa [after_eq] at hprogrammed
    have hkept : HoldsPattern (atcabLockConfigZone o.lockConfig (written o d)).2.zone := by
      rwa [lockConfig_zone]
    have hbehind : (atcabLockConfigZone o.lockConfig (written o d)).2.configLocked = true := by
      rw [(lockConfig_flags _ _).1, hlocked]
      exact Bool.or_true _
    rw [locksOnlyPattern_build_iff]
    exact fun _ => ⟨(properLock_lockConfig_iff _ _).mpr fun _ _ => hwritten,
      (properLock_lockData_iff _ _).mpr fun _ _ => ⟨hbehind, hkept⟩⟩

theorem silent_run_locks_blank :
    HoldsPattern (Boot.after ⟨⟨true, true⟩, allSucceed⟩ blankDevice).zone := by
  have hsilent : ∀ line ∈ warnings, .printf line [] ∉ run ⟨true, true⟩ allSucceed blankDevice := by
    intro line hline
    obtain ⟨hwrite, hconfig, hdata⟩ := warnings_prepare ⟨true, true⟩ allSucceed blankDevice
    rw [warning_mem_run_iff _ _ _ hline]
    simp only [warnings, List.mem_cons, List.not_mem_nil, or_false] at hline
    rcases hline with rfl | rfl | rfl
    · exact fun he => (hwrite.mp he).2 ⟨rfl, rfl⟩
    · exact fun he => (hconfig.mp he).2 ⟨rfl, rfl⟩
    · exact fun he => (hdata.mp he).2 ⟨rfl, rfl⟩
  exact (silent_run_locks allSucceed blankDevice hsilent).2.1

end ConfigLock
