import EwsnCrypto.ConfigLock.Dump

/-!
# The report on the locks

The last lines of a run say of each zone whether it is locked. They are printed
from flags that start as false, and a query that fails leaves its flag alone.
-/

open InputProgram

namespace ConfigLock

/-- What a line of the report says is so on the device. -/
structure Event.TrueOf (d : Device) (e : Event) : Prop where
  configLocked : e = .printf "Config zone locked.\n" [] → d.configLocked = true
  configNotLocked : e = .printf "Config zone not locked.\n" [] → d.configLocked = false
  dataLocked : e = .printf "Data zone locked.\n" [] → d.dataLocked = true
  dataNotLocked : e = .printf "Data zone not locked.\n" [] → d.dataLocked = false

/-- Every line of a run is true of the device that the run leaves. -/
def ReportsTruth (b : Build) (o : Outcomes) (d : Device) : Prop :=
  ∀ e ∈ run b o d, e.TrueOf ((main b o).exec [] (.boot d)).state.device

/-- A zone that is locked, or that a lock of this run locks, answers its query. -/
structure LocksAnswered (b : Build) (o : Outcomes) (d : Device) : Prop where
  config : d.configLocked = true ∨ b.lockCrypto = true ∧ o.lockConfig.takesEffect = true →
    o.isLockedConfig = .success
  data : d.dataLocked = true ∨ b.lockCrypto = true ∧ o.lockData.takesEffect = true →
    o.isLockedData = .success

variable {d : Device}

theorem trueOf_of_notMem {e : Event} (he : ∀ line ∈ reportLines, e ≠ .printf line []) :
    e.TrueOf d := by
  constructor
  all_goals rintro rfl
  all_goals exact False.elim (he _ (by decide) rfl)

theorem trueOf_of_warning {e : Event} (he : e.Within warnings) : e.TrueOf d := by
  refine trueOf_of_notMem ?_
  rintro line hline rfl
  revert hline
  have hdisjoint : ∀ line ∈ warnings, line ∉ reportLines := by decide
  exact hdisjoint line he.1

theorem trueOf_of_dump {e : Event} (he : e.OfDump) : e.TrueOf d := by
  refine trueOf_of_notMem ?_
  rintro line hline rfl
  exact he hline

/-- A line about a zone is true iff its flag is the lock. -/
theorem configLine_trueOf_iff {locked : Bool} :
    (configLine locked).TrueOf d ↔ locked = d.configLocked := by
  constructor
  · intro h
    cases locked with
    | false => exact (h.configNotLocked rfl).symm
    | true => exact (h.configLocked rfl).symm
  · rintro rfl
    constructor <;> cases d.configLocked <;> simp [configLine]

theorem dataLine_trueOf_iff {locked : Bool} :
    (dataLine locked).TrueOf d ↔ locked = d.dataLocked := by
  constructor
  · intro h
    cases locked with
    | false => exact (h.dataNotLocked rfl).symm
    | true => exact (h.dataLocked rfl).symm
  · rintro rfl
    constructor <;> cases d.dataLocked <;> simp [dataLine]

/-- The flag is the lock iff a locked zone answers. -/
theorem lockFlag_eq_iff {o : Status} {locked : Bool} :
    lockFlag o locked = locked ↔ (locked = true → o = .success) := by
  cases locked <;> cases o <;> decide

theorem trueOf_reportEvents_iff {o : Outcomes} :
    (∀ e ∈ reportEvents o d, e.TrueOf d) ↔
      (d.configLocked = true → o.isLockedConfig = .success) ∧
        (d.dataLocked = true → o.isLockedData = .success) := by
  have hcall (zone : Zone) (status : Status) :
      (Event.call (.isLocked zone) status d d).TrueOf d := trueOf_of_notMem (by simp)
  simp [reportEvents, hcall, configLine_trueOf_iff, dataLine_trueOf_iff, lockFlag_eq_iff]

/-- Only the report says anything about a zone. -/
theorem reportsTruth_iff_report (b : Build) (o : Outcomes) (d : Device) :
    ReportsTruth b o d ↔
      ∀ e ∈ reportEvents o (prepared b o d), e.TrueOf (prepared b o d) := by
  obtain ⟨tr, hmain, hwithin⟩ := main_exec b o d
  have hdevice : ((main b o).exec [] (.boot d)).state.device = prepared b o d := by
    rw [hmain]
    exact dumped_device o _
  rw [ReportsTruth, hdevice, run, hmain]
  constructor
  · intro h e he
    exact h e (by simp [he])
  · intro h e he
    simp only [List.mem_append, List.mem_cons] at he
    rcases he with htr | (rfl | hdump) | hreport
    · exact trueOf_of_warning (hwithin e htr)
    · exact trueOf_of_notMem (by simp)
    · exact trueOf_of_dump (dumpEvents_ofDump o _ e hdump)
    · exact h e hreport

/-- In every build, the lines of the report are true iff the queries about locked
zones succeed. -/
theorem reportsTruth_iff (b : Build) (o : Outcomes) (d : Device) :
    ReportsTruth b o d ↔ LocksAnswered b o d := by
  obtain ⟨hconfig, hdata⟩ := prepared_flags b o d
  rw [reportsTruth_iff_report, trueOf_reportEvents_iff, hconfig, hdata]
  simp only [Bool.or_eq_true, Bool.and_eq_true]
  exact ⟨fun h => ⟨h.1, h.2⟩, fun h => ⟨h.config, h.data⟩⟩

section Counterexample

/-- Nothing fails but the first query. -/
def configQueryFails : Outcomes :=
  ⟨.complete, .locked, .locked, .success, .failure, .success⟩

/-- A locked chip is reported as not locked. -/
theorem locked_zone_reported_open :
    ¬ ReportsTruth ⟨false, false⟩ configQueryFails patternDevice := by
  intro htruth
  have hlines := (reportsTruth_iff_report _ _ _).mp htruth
  have hanswered := (trueOf_reportEvents_iff.mp hlines).1 rfl
  exact absurd hanswered (by decide)

end Counterexample

end ConfigLock
