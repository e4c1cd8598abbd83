import EwsnCrypto.SwCompare.Independence

/-!
# The figures of a comparison

With a timer every phase of a library prints the difference of two readings, in
32 bits. The differences are the times that have passed, also where the timer wraps
around between the readings.
-/

open InputProgram SharedStore

namespace SwCompare

variable {C B α β : Type}

/-- The differences of the first and the second reading, of the third and the fourth,
and so on. -/
def elapsed : List UInt32 → List Nat
  | first :: second :: ins => (second - first).toNat :: elapsed ins
  | _ => []

/-- The same for times that do not wrap around. -/
def durations : List Nat → List Nat
  | first :: second :: times => (second - first) :: durations times
  | _ => []

/-- The second reading of each pair is taken less than 2^32 microseconds after the first. -/
def Paced : List Nat → Prop
  | first :: second :: times => first ≤ second ∧ second < first + 2 ^ 32 ∧ Paced times
  | _ => True

/-- A figure that is printed. -/
def figure : Event C → Option Nat
  | .printf format args => if format = "%u\n" then args.head? else none
  | _ => none

def figures (tr : List (Event C)) : List Nat := tr.filterMap figure

theorem toNat_sub_ofNat {first second : Nat} (hle : first ≤ second)
    (hlt : second < first + 2 ^ 32) :
    (UInt32.ofNat second - UInt32.ofNat first).toNat = second - first := by
  rw [UInt32.toNat_sub, UInt32.toNat_ofNat', UInt32.toNat_ofNat']
  have hfirst : first % 2 ^ 32 < 2 ^ 32 := Nat.mod_lt _ (by decide)
  have hdivFirst := Nat.div_add_mod first (2 ^ 32)
  have hdivSecond := Nat.div_add_mod second (2 ^ 32)
  omega

theorem elapsed_of_paced (times : List Nat) (h : Paced times) :
    elapsed (times.map UInt32.ofNat) = durations times := by
  induction times using durations.induct with
  | case1 first second times ih =>
    obtain ⟨hle, hlt, hpaced⟩ := h
    rw [List.map_cons, List.map_cons, elapsed, durations, toNat_sub_ofNat hle hlt, ih hpaced]
  | case2 times hne =>
    cases times with
    | nil => rfl
    | cons first times =>
      cases times with
      | nil => rfl
      | cons second times => exact False.elim (hne first second times rfl)

theorem length_elapsed (ins : List UInt32) : (elapsed ins).length = ins.length / 2 := by
  induction ins using elapsed.induct with
  | case1 first second ins ih =>
    rw [elapsed, List.length_cons, ih, List.length_cons, List.length_cons]
    omega
  | case2 ins hne =>
    cases ins with
    | nil => rfl
    | cons first ins =>
      cases ins with
      | nil => simp [elapsed]
      | cons second ins => exact False.elim (hne first second ins rfl)

/-- `p` prints the first `k` differences, and ends iff there are so many. -/
structure Prints (k : Nat) (p : App C B α) : Prop where
  figures : ∀ ins m, figures (p.exec ins m).trace = (elapsed ins).take k
  ends : ∀ ins m, k ≤ (elapsed ins).length → ∃ a, (p.exec ins m).value = some a ∧
    elapsed (p.exec ins m).rest = (elapsed ins).drop k
  stops : ∀ ins m, (elapsed ins).length < k → (p.exec ins m).value = none

namespace Prints
variable {k k' : Nat}

theorem pure (a : α) : Prints 0 (Pure.pure a : App C B α) :=
  ⟨fun _ _ => rfl, fun _ _ _ => ⟨a, rfl, rfl⟩, fun _ _ h => nomatch h⟩

theorem act {f : Memory B → α × Memory B × List (Event C)}
    (h : ∀ m, ∀ e ∈ (f m).2.2, figure e = none) : Prints 0 (InputProgram.act f : App C B α) := by
  refine ⟨fun ins m => ?_, fun _ m _ => ⟨(f m).1, rfl, rfl⟩, fun _ _ h => nomatch h⟩
  exact List.filterMap_eq_nil_iff.mpr (h m)

theorem emit {e : Event C} (h : figure e = none) :
    Prints 0 (InputProgram.emit e : App C B Unit) :=
  act fun _ e' he' => by rwa [List.mem_singleton.mp he']

theorem bind {p : App C B α} {f : α → App C B β} (hp : Prints k p) (hf : ∀ a, Prints k' (f a)) :
    Prints (k + k') (p >>= f) := by
  have hsplit (ins : List UInt32) : (elapsed ins).take (k + k') =
      (elapsed ins).take k ++ ((elapsed ins).drop k).take k' := List.take_add
  constructor
  · intro ins m
    rw [hsplit]
    by_cases hall : k ≤ (elapsed ins).length
    · obtain ⟨a, hvalue, hrest⟩ := hp.ends ins m hall
      rw [bind_exec, andThen_of_value hvalue, SwCompare.figures, List.filterMap_append, ← hrest]
      exact congrArg₂ _ (hp.figures ins m) ((hf a).figures _ _)
    · rw [bind_exec, andThen_of_stopped (hp.stops ins m (by omega)), hp.figures,
        List.drop_of_length_le (by omega), List.take_nil, List.append_nil]
  · intro ins m hall
    obtain ⟨a, hvalue, hrest⟩ := hp.ends ins m (by omega)
    obtain ⟨b, hvalue', hrest'⟩ := (hf a).ends (p.exec ins m).rest (p.exec ins m).state
      (by rw [hrest, List.length_drop]; omega)
    rw [bind_exec, andThen_of_value hvalue]
    exact ⟨b, hvalue', by rw [hrest', hrest, List.drop_drop]⟩
  · intro ins m hfew
    by_cases hall : k ≤ (elapsed ins).length
    · obtain ⟨a, hvalue, hrest⟩ := hp.ends ins m hall
      rw [bind_exec, andThen_of_value hvalue]
      exact (hf a).stops _ _ (by rw [hrest, List.length_drop]; omega)
    · rw [bind_exec, andThen_of_stopped (hp.stops ins m (by omega))]

theorem onlyIf {c : Bool} {p : App C B Unit} (hp : Prints 0 p) :
    Prints 0 (InputProgram.onlyIf c p) := by
  cases c with
  | true => exact hp
  | false => exact pure ()

theorem forM {γ : Type} {xs : List γ} {f : γ → App C B Unit} (count : γ → Nat)
    (h : ∀ x ∈ xs, Prints (count x) (f x)) :
    Prints (xs.foldr (fun x k => count x + k) 0) (xs.forM f) := by
  induction xs with
  | nil => exact pure ()
  | cons x xs ih =>
    exact bind (h x List.mem_cons_self) fun _ => ih fun y hy => h y (List.mem_cons_of_mem x hy)

/-- Events without a figure. -/
theorem events {tr : List (Event C)} (h : ∀ e ∈ tr, figure e = none) :
    Prints 0 (tr.forM InputProgram.emit : App C B Unit) := by
  have hall := forM (B := B) (fun _ => 0) fun e he => emit (h e he)
  have hsum : tr.foldr (fun _ k => 0 + k) 0 = 0 := by simp
  rwa [hsum] at hall

end Prints

section Phases
variable {b : Build}

theorem steps_exec (steps : List (Step C B)) (ins : List UInt32) (m : Memory B) :
    (steps.forM Step.run : App C B Unit).exec ins m =
      ⟨steps.map fun step => .call step.call, { m with
        buffers := steps.foldl (fun s step => step.effect s) m.buffers }, ins, some ()⟩ := by
  induction steps generalizing m with
  | nil => rfl
  | cons step steps ih =>
    have hexec : ((step :: steps).forM Step.run : App C B Unit).exec ins m =
        andThen (step.run.exec ins m) fun _ => steps.forM Step.run := rfl
    rw [hexec, Step.run, act_exec, andThen_some, ih]
    rfl

theorem startMeas_exec (hb : b.useXtimer = true) (first : UInt32) (ins : List UInt32)
    (m : Memory B) : (startMeas b : App C B Unit).exec (first :: ins) m =
      ⟨[.xtimerNow first], { m with start := first }, ins, some ()⟩ := by
  simp [startMeas, hb, readNext]

theorem stopMeas_exec (hb : b.useXtimer = true) (second : UInt32) (ins : List UInt32)
    (m : Memory B) : (stopMeas b : App C B Unit).exec (second :: ins) m =
      ⟨.xtimerNow second :: .printf "%u\n" [(second - m.start).toNat] ::
        (if b.testStack then [.ps] else []), { m with stop := second, start := 0 }, ins,
        some ()⟩ := by
  cases hstack : b.testStack <;> simp [stopMeas, hb, readNext, hstack]

theorem stopMeas_nil (hb : b.useXtimer = true) (m : Memory B) :
    (stopMeas b : App C B Unit).exec [] m = ⟨[], m, [], none⟩ := by
  simp [stopMeas, hb, readNext]

theorem phase_nil (hb : b.useXtimer = true) (steps : List (Step C B)) (m : Memory B) :
    (Block.phase b steps : App C B Unit).exec [] m = ⟨[], m, [], none⟩ := by
  simp [Block.phase, startMeas, hb, readNext]

/-- A phase that waits for its second reading. -/
theorem phase_singleton (hb : b.useXtimer = true) (steps : List (Step C B)) (first : UInt32)
    (m : Memory B) : ∃ m', (Block.phase b steps).exec [first] m =
      ⟨.xtimerNow first :: steps.map (fun step => .call step.call), m', [], none⟩ := by
  refine ⟨{ m with
    start := first, buffers := steps.foldl (fun s step => step.effect s) m.buffers }, ?_⟩
  rw [Block.phase, bind_exec, startMeas_exec hb, andThen_some, bind_exec, steps_exec, andThen_some,
    stopMeas_nil hb, List.append_nil, List.singleton_append]

theorem phase_exec (hb : b.useXtimer = true) (steps : List (Step C B)) (first second : UInt32)
    (ins : List UInt32) (m : Memory B) : ∃ m',
    (Block.phase b steps).exec (first :: second :: ins) m =
      ⟨.xtimerNow first :: (steps.map (fun step => .call step.call) ++ .xtimerNow second ::
        .printf "%u\n" [(second - first).toNat] :: if b.testStack then [.ps] else []), m', ins,
        some ()⟩ := by
  refine ⟨{ m with
    start := 0, stop := second,
    buffers := steps.foldl (fun s step => step.effect s) m.buffers }, ?_⟩
  rw [Block.phase, bind_exec, startMeas_exec hb, andThen_some, bind_exec, steps_exec, andThen_some,
    stopMeas_exec hb, List.singleton_append]

/-- A measured phase takes a pair of readings and prints their difference. -/
theorem prints_phase (hb : b.useXtimer = true) (steps : List (Step C B)) :
    Prints 1 (Block.phase b steps) := by
  have hcalls : (steps.map fun step => (.call step.call : Event C)).filterMap figure = [] := by
    simp [List.filterMap_map, Function.comp_def, figure]
  have hps : (if b.testStack then [.ps] else [] : List (Event C)).filterMap figure = [] := by
    split <;> rfl
  constructor
  · intro ins m
    rcases ins with _ | ⟨first, _ | ⟨second, ins⟩⟩
    · rw [phase_nil hb]
      rfl
    · obtain ⟨m', hexec⟩ := phase_singleton hb steps first m
      rw [hexec, SwCompare.figures, List.filterMap_cons, hcalls]
      simp [figure, elapsed]
    · obtain ⟨m', hexec⟩ := phase_exec hb steps first second ins m
      rw [hexec, SwCompare.figures, List.filterMap_cons, List.filterMap_append, hcalls,
        List.filterMap_cons, List.filterMap_cons, hps]
      simp [figure, elapsed]
  · intro ins m hmany
    rcases ins with _ | ⟨first, _ | ⟨second, ins⟩⟩
    · simp [elapsed] at hmany
    · simp [elapsed] at hmany
    · obtain ⟨m', hexec⟩ := phase_exec hb steps first second ins m
      rw [hexec]
      exact ⟨(), rfl, rfl⟩
  · intro ins m hfew
    rcases ins with _ | ⟨first, _ | ⟨second, ins⟩⟩
    · rw [phase_nil hb]
    · obtain ⟨m', hexec⟩ := phase_singleton hb steps first m
      rw [hexec]
    · simp [elapsed] at hfew

theorem figure_of_line {e : Event C} (h : lineOf e = some "ERROR") : figure e = none := by
  cases e with
  | printf format args =>
    by_cases herror : format = "ERROR\n"
    · rw [herror]
      rfl
    · simp [lineOf, herror] at h
  | _ => rfl

/-- A block prints a figure for each of its phases. -/
theorem prints_program (hb : b.useXtimer = true) (block : Block C B) (l : Library)
    (passes : B → Bool) : Prints block.phases.length (block.program b l passes) := by
  have hcalls (calls : List C) : Prints 0 ((calls.map .call).forM emit : App C B Unit) :=
    .events (List.forall_mem_map.mpr fun _ _ => rfl)
  have hphases : Prints block.phases.length (block.phases.forM (Block.phase b)) := by
    have hall := Prints.forM (fun _ => 1) fun steps (_ : steps ∈ block.phases) =>
      prints_phase hb steps
    have hsum : block.phases.foldr (fun _ k => 1 + k) 0 = block.phases.length := by
      induction block.phases with
      | nil => rfl
      | cons steps phases ih => rw [List.foldr_cons, ih, List.length_cons, Nat.add_comm]
    rwa [hsum] at hall
  have herror : figure block.error = none := figure_of_line block.error_line
  have hcheck : Prints 0 (act fun m => ((), m, if passes m.buffers then [] else [block.error]) :
      App C B Unit) := by
    refine .act fun m e he => ?_
    split at he
    · simp at he
    · rw [List.mem_singleton.mp he, herror]
  have hbody : Prints (0 + (block.phases.length + 0)) (block.body b passes) :=
    .bind (hcalls _) fun _ => .bind hphases fun _ => .bind (hcalls _) fun _ =>
      .bind hcheck fun _ => hcalls _
  have hprogram : Prints (0 + (0 + (0 + (block.phases.length + 0)))) (block.program b l passes) :=
    .bind (.emit rfl) fun _ => .bind (.onlyIf (.events (List.forall_mem_map.mpr fun _ _ => rfl)))
      fun _ => hbody
  rwa [Nat.zero_add, Nat.zero_add, Nat.zero_add] at hprogram

theorem prints_main (hb : b.useXtimer = true) (app : Application C B)
    (hphases : ∀ l, (app.block l).phases.length = 3) :
    Prints (3 * b.libraries.length) (app.main b) := by
  have hblock (l : Library) : Prints (if b.enabled l then 3 else 0)
      (onlyIf (b.enabled l) ((app.block l).program b l app.passes) : App C B Unit) := by
    cases b.enabled l with
    | true =>
      have hprogram := prints_program hb (app.block l) l app.passes
      rwa [hphases] at hprogram
    | false => exact .pure ()
  have hcount (libs : List Library) :
      libs.foldr (fun l k => (if b.enabled l then 3 else 0) + k) 0 =
        3 * (libs.filter b.enabled).length := by
    induction libs with
    | nil => rfl
    | cons l libs ih =>
      rw [List.foldr_cons, ih, List.filter_cons]
      split
      · rw [List.length_cons]
        omega
      · omega
  have hblocks : Prints _ (app.blocks b Library.all) := .forM _ fun l _ => hblock l
  rw [hcount, ← Build.libraries] at hblocks
  have hmain : Prints (0 + (0 + (0 + (3 * b.libraries.length + 0)))) (app.main b) :=
    .bind (.act (by simp)) fun _ => .bind (.onlyIf (.emit rfl)) fun _ =>
      .bind (.onlyIf (.emit rfl)) fun _ => .bind hblocks fun _ => .emit rfl
  rwa [Nat.zero_add, Nat.zero_add, Nat.zero_add] at hmain

end Phases

/-- In the timer builds of both applications the figures are the true durations of the
three phases of every enabled library, in order, also where the timer wraps around. A
run ends iff all the readings for them are taken. -/
theorem figures_are_durations (b : Build) (hb : b.useXtimer = true) (times : List Nat)
    (hpaced : Paced times) :
    (∀ (r : Sha256.Replies) (m : Memory Sha256.Digest),
      let run := ((Sha256.application r).main b).exec (times.map UInt32.ofNat) m
      figures run.trace = (durations times).take (3 * b.libraries.length) ∧
        (run.value = some () ↔ 6 * b.libraries.length ≤ times.length)) ∧
    ∀ (r : Aes.Replies) (m : Memory Aes.Buffers),
      let run := ((Aes.application r).main b).exec (times.map UInt32.ofNat) m
      figures run.trace = (durations times).take (3 * b.libraries.length) ∧
        (run.value = some () ↔ 6 * b.libraries.length ≤ times.length) := by
  have hrun {C B : Type} (app : Application C B) (h : ∀ l, (app.block l).phases.length = 3)
      (m : Memory B) : figures ((app.main b).exec (times.map UInt32.ofNat) m).trace =
        (durations times).take (3 * b.libraries.length) ∧
      (((app.main b).exec (times.map UInt32.ofNat) m).value = some () ↔
        6 * b.libraries.length ≤ times.length) := by
    have hprints := prints_main hb app h
    have hlength : (elapsed (times.map UInt32.ofNat)).length = times.length / 2 := by
      rw [length_elapsed, List.length_map]
    refine ⟨by rw [hprints.figures, elapsed_of_paced times hpaced], fun hvalue => ?_,
      fun hmany => ?_⟩
    · by_contra hfew
      have hstopped := hprints.stops (times.map UInt32.ofNat) m (by rw [hlength]; omega)
      rw [hvalue] at hstopped
      exact Option.some_ne_none _ hstopped
    · obtain ⟨_, hvalue, _⟩ := hprints.ends (times.map UInt32.ofNat) m (by rw [hlength]; omega)
      exact hvalue
  exact ⟨fun r m => hrun _ (fun l => by cases l <;> rfl) m,
    fun r m => hrun _ (fun l => by cases l <;> rfl) m⟩

/-- RIOT is measured alone, and the timer wraps around in its first phase. -/
theorem figures_are_durations_wrapAround :
    figures (((Sha256.application onlyRiotDigests).main (timerBuild.only .riot)).exec
      ([4294967290, 4294967300, 4294967301, 4294967331, 4294967332, 4294967352].map UInt32.ofNat)
      ⟨0, 0, Vector.replicate 32 0⟩).trace = [10, 30, 20] := by
  have hfigures := ((figures_are_durations (timerBuild.only .riot) rfl
    [4294967290, 4294967300, 4294967301, 4294967331, 4294967332, 4294967352]
    (by simp [Paced])).1 onlyRiotDigests ⟨0, 0, Vector.replicate 32 0⟩).1
  exact hfigures.trans (by decide +kernel)

end SwCompare
