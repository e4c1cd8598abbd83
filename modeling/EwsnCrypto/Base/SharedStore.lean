import EwsnCrypto.Base.Output
import Mathlib.Data.List.Infix

/-!
# Jobs on a shared store

Jobs run one after another on one store, and each is judged by the store that it
leaves. A job that writes nothing is judged by what an earlier job has written.
-/

namespace SharedStore

variable {J S T L : Type}

/-- The store after some jobs have run on it. -/
def storeAfter (run : J → S → S) (jobs : List J) (s : S) : S := jobs.foldl (fun s j => run j s) s

/-- The jobs that run before `j`. -/
def before [DecidableEq J] (jobs : List J) (j : J) : List J := jobs.takeWhile fun k => k ≠ j

/-- The last output that one of the jobs has written. -/
def lastWritten (out : J → Option S) (jobs : List J) : Option S := (jobs.filterMap out).getLast?

/-- The lines of all jobs: each has its name, and `error` if its check fails. -/
def report (run : J → S → S) (passes : S → Bool) (name : J → L) (error : L) :
    List J → S → List L
  | [], _ => []
  | j :: jobs, s =>
    name j :: ((if passes (run j s) then [] else [error]) ++
      report run passes name error jobs (run j s))

/-- A buffer holds `a` iff it was written last, or was there and nothing was written. -/
theorem getD_ne_iff {o : Option S} {s a : S} :
    o.getD s ≠ a ↔ o ≠ some a ∧ (o = none → s ≠ a) := by
  cases o <;> simp

section Before
variable [DecidableEq J]

@[simp] theorem before_cons_self (jobs : List J) (j : J) : before (j :: jobs) j = [] := by
  simp [before]

theorem before_cons_of_ne {j k : J} (h : k ≠ j) (jobs : List J) :
    before (k :: jobs) j = k :: before jobs j := by
  simp [before, h]

theorem before_append_of_mem {jobs : List J} {j : J} (h : j ∈ jobs) (rest : List J) :
    before (jobs ++ rest) j = before jobs j := by
  induction jobs with
  | nil => cases h
  | cons k jobs ih =>
    by_cases hk : k = j
    · rw [hk, List.cons_append, before_cons_self, before_cons_self]
    · rw [List.cons_append, before_cons_of_ne hk, before_cons_of_ne hk,
        ih (List.mem_of_ne_of_mem (Ne.symm hk) h)]

theorem before_append_cons {jobs : List J} {j : J} (h : j ∉ jobs) (rest : List J) :
    before (jobs ++ j :: rest) j = jobs := by
  induction jobs with
  | nil => simp
  | cons k jobs ih =>
    obtain ⟨hk, hjobs⟩ := not_or.mp (mt List.mem_cons.mpr h)
    rw [List.cons_append, before_cons_of_ne (Ne.symm hk), ih hjobs]

/-- Of the jobs before `j`, those before `k` are those before `k` in the whole list. -/
theorem before_before {jobs : List J} {j k : J} (h : k ∈ before jobs j) :
    before (before jobs j) k = before jobs k := by
  rw [← before_append_of_mem h (jobs.dropWhile fun k => k ≠ j)]
  simp only [before, List.takeWhile_append_dropWhile]

end Before

theorem storeAfter_append (run : J → S → S) (jobs jobs' : List J) (s : S) :
    storeAfter run (jobs ++ jobs') s = storeAfter run jobs' (storeAfter run jobs s) :=
  List.foldl_append

theorem lastWritten_append (out : J → Option S) (jobs : List J) (j : J) :
    lastWritten out (jobs ++ [j]) = (out j).or (lastWritten out jobs) := by
  cases hout : out j <;> simp [lastWritten, List.filterMap_append, hout]

/-- Where every job overwrites the store or leaves it, the last output remains. -/
theorem storeAfter_write (out : J → Option S) (jobs : List J) (s : S) :
    storeAfter (fun j s => (out j).getD s) jobs s = (lastWritten out jobs).getD s := by
  induction jobs using List.reverseRecOn with
  | nil => rfl
  | append_singleton jobs j ih =>
    rw [storeAfter_append, ih, lastWritten_append, Option.getD_or]
    rfl

/-- A job that writes a first store, and from it a second one. -/
def pipe (out : J → Option S) (out' : J → S → Option T) (j : J) (st : S × T) : S × T :=
  let s := (out j).getD st.1
  (s, (out' j s).getD st.2)

/-- What the second half of job `j` finds in the first store. -/
def inputOf [DecidableEq J] (out : J → Option S) (jobs : List J) (s : S) (j : J) : S :=
  ((out j).or (lastWritten out (before jobs j))).getD s

/-- Of both stores the last outputs remain. -/
theorem storeAfter_pipe [DecidableEq J] (out : J → Option S) (out' : J → S → Option T)
    {jobs : List J} (hjobs : jobs.Nodup) (st : S × T) :
    storeAfter (pipe out out') jobs st =
      ((lastWritten out jobs).getD st.1,
        (lastWritten (fun j => out' j (inputOf out jobs st.1 j)) jobs).getD st.2) := by
  induction jobs using List.reverseRecOn with
  | nil => rfl
  | append_singleton jobs j ih =>
    obtain ⟨hnodup, _, hdisjoint⟩ := List.nodup_append.mp hjobs
    have hj : j ∉ jobs := fun hmem => hdisjoint j hmem j (List.mem_singleton_self j) rfl
    have hlast : inputOf out (jobs ++ [j]) st.1 j =
        (out j).getD ((lastWritten out jobs).getD st.1) := by
      rw [inputOf, before_append_cons hj, Option.getD_or]
    have hearlier : lastWritten (fun k => out' k (inputOf out (jobs ++ [j]) st.1 k)) jobs =
        lastWritten (fun k => out' k (inputOf out jobs st.1 k)) jobs := by
      simp only [lastWritten]
      congr 1
      apply List.filterMap_congr
      intro k hk
      rw [inputOf, before_append_of_mem hk, inputOf]
    rw [storeAfter_append, ih hnodup, lastWritten_append, lastWritten_append, hlast, hearlier]
    simp only [storeAfter, List.foldl_cons, List.foldl_nil, pipe, Option.getD_or]

theorem lastWritten_before [DecidableEq J] (out : J → Option S) (out' : J → S → Option T)
    (jobs : List J) (s : S) (j : J) :
    lastWritten (fun k => out' k (inputOf out (before jobs j) s k)) (before jobs j) =
      lastWritten (fun k => out' k (inputOf out jobs s k)) (before jobs j) := by
  simp only [lastWritten]
  congr 1
  apply List.filterMap_congr
  intro k hk
  rw [inputOf, before_before hk, inputOf]

section Report
variable {run : J → S → S} {passes : S → Bool} {name : J → L} {error : L}

theorem mem_report {jobs : List J} {s : S} {line : L}
    (h : line ∈ report run passes name error jobs s) :
    line = error ∨ ∃ j ∈ jobs, line = name j := by
  induction jobs generalizing s with
  | nil => cases h
  | cons j jobs ih =>
    rcases List.mem_cons.mp h with hname | hrest
    · exact .inr ⟨j, List.mem_cons_self, hname⟩
    · rcases List.mem_append.mp hrest with herror | hreport
      · split at herror
        · cases herror
        · exact .inl (List.mem_singleton.mp herror)
      · rcases ih hreport with herror | ⟨k, hk, hname⟩
        · exact .inl herror
        · exact .inr ⟨k, List.mem_cons_of_mem _ hk, hname⟩

theorem infix_cons_of_ne {a b : L} (h : a ≠ b) (l l' : List L) :
    a :: l' <:+: b :: l ↔ a :: l' <:+: l := by
  rw [List.infix_cons_iff, List.cons_prefix_cons]
  constructor
  · rintro (⟨hab, _⟩ | hwithin)
    · exact absurd hab h
    · exact hwithin
  · exact .inr

section Lines
variable (herror : ∀ j, name j ≠ error) {tail : List L} (hclean : error ∉ tail)
include herror hclean

theorem error_not_first (jobs : List J) (s : S) :
    ¬ [error] <+: report run passes name error jobs s ++ tail := by
  intro hbegins
  cases jobs with
  | nil => exact hclean (hbegins.subset (List.mem_singleton_self error))
  | cons j jobs => exact herror j (List.cons_prefix_cons.mp hbegins).1.symm

/-- The name of a job is followed by `error` iff the check fails on the store that
the jobs up to it have left. -/
theorem reported_iff [DecidableEq J] (hname : Function.Injective name) (htail : ∀ j, name j ∉ tail)
    {jobs : List J} (hjobs : jobs.Nodup) {j : J} (hj : j ∈ jobs) (s : S) :
    [name j, error] <:+: report run passes name error jobs s ++ tail ↔
      passes (run j (storeAfter run (before jobs j) s)) = false := by
  induction jobs generalizing s with
  | nil => cases hj
  | cons k jobs ih =>
    obtain ⟨hk, hnodup⟩ := List.nodup_cons.mp hjobs
    have hlines : report run passes name error (k :: jobs) s ++ tail =
        name k :: ((if passes (run k s) then [] else [error]) ++
          (report run passes name error jobs (run k s) ++ tail)) := by
      simp only [report, List.cons_append, List.append_assoc]
    rw [hlines]
    by_cases hkj : k = j
    · subst hkj
      have hunique : name k ∉ report run passes name error jobs (run k s) ++ tail := by
        intro hmem
        rcases List.mem_append.mp hmem with hreport | hmem
        · rcases mem_report hreport with herr | ⟨i, hi, hki⟩
          · exact herror k herr
          · exact hk (hname hki ▸ hi)
        · exact htail k hmem
      rw [before_cons_self]
      cases hpasses : passes (run k s) with
      | false => exact ⟨fun _ => hpasses, fun _ => ⟨[], _, rfl⟩⟩
      | true =>
        refine ⟨fun hwithin => ?_, fun hfails => nomatch hpasses.symm.trans hfails⟩
        rcases List.infix_cons_iff.mp hwithin with hbegins | hwithin
        · exact absurd (List.cons_prefix_cons.mp hbegins).2 (error_not_first herror hclean jobs _)
        · exact absurd (hwithin.subset List.mem_cons_self) hunique
    · have hjobs' : j ∈ jobs := List.mem_of_ne_of_mem (Ne.symm hkj) hj
      rw [infix_cons_of_ne (fun h => hkj (hname h).symm), before_cons_of_ne hkj]
      split
      · exact ih hnodup hjobs' (run k s)
      · rw [List.singleton_append, infix_cons_of_ne (herror j)]
        exact ih hnodup hjobs' (run k s)

end Lines

end Report

end SharedStore
