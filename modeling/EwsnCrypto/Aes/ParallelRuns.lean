import EwsnCrypto.Aes.ParallelPins
import EwsnCrypto.Base.Confluence

/-!
# How every run of the parallel test ends

The threads share the terminal and nothing else, so that their statements can be
exchanged up to the order of the lines they print. Every schedule therefore ends,
after the same number of statements, and leaves the same pins and counts.
-/

open Interleaving

namespace ParallelTest

section Outcome
variable (c : Setup) (k : ThreadId)

/-- The calls that a thread makes from call `i` on, where `left` are left. -/
def Setup.callsFrom : Nat → Nat → Nat
  | 0, _ => 0
  | left + 1, i => if c.ret k i < 0 then 1 else Setup.callsFrom left (i + 1) + 1

def Setup.calls : Nat := c.callsFrom k c.iter 0

/-- The lines that it prints. -/
def Setup.failuresFrom : Nat → Nat → List Line
  | 0, _ => []
  | left + 1, i =>
    if c.ret k i < 0 then [⟨"AES ECB Enryption failed: %d\n", [c.ret k i]⟩]
    else Setup.failuresFrom left (i + 1)

def Setup.failures : List Line := c.failuresFrom k c.iter 0

/-- The lines of `aes_ecb_parallel_test`. -/
def Setup.header : List Line :=
  [⟨"== Performing parallel test ==", []⟩,
    ⟨"=> Encrypting [%d] blocks of [%d] bytes\n", [c.iter, c.ecbPlainLen]⟩,
    ⟨if c.nonblocking then "=> Using DMA" else "=> NOT using DMA", []⟩]

/-- Two statements of a thread before its loop, five for each call, and one behind. -/
def Setup.threadMoves : Nat := 2 + (5 * c.calls k + 1)

def Setup.moves : Nat := (aesEcbParallelTest c).length + c.threadMoves .one + c.threadMoves .two

/-- What a finished test has left. -/
structure Finished (s : State) : Prop where
  main : s.main = []
  thread : ∀ k, (s.thread k).point = .ended ∧ (s.thread k).calls = c.calls k
  wire : ∀ k, s.wire (c.pin k) = ⟨true, waveform (c.calls k)⟩
  untouched : ∀ p, (∀ k, p ≠ c.pin k) → s.wire p = ⟨false, []⟩
  out : ∃ errors, s.out = c.header ++ errors ∧ errors.Perm (c.failures .one ++ c.failures .two)

end Outcome

section Exchange
variable {c : Setup} {s s₁ s₂ t : State} {j k : ThreadId}

/-- States that differ in the order of the lines only. -/
structure Alike (s t : State) : Prop where
  main : s.main = t.main
  infoPin : s.infoPin = t.infoPin
  thread : s.thread = t.thread
  wire : s.wire = t.wire
  out : s.out.Perm t.out

theorem alike_equivalence : Equivalence Alike where
  refl _ := ⟨rfl, rfl, rfl, rfl, .refl _⟩
  symm h := ⟨h.main.symm, h.infoPin.symm, h.thread.symm, h.wire.symm, h.out.symm⟩
  trans h h' := ⟨h.main.trans h'.main, h.infoPin.trans h'.infoPin, h.thread.trans h'.thread,
    h.wire.trans h'.wire, h.out.trans h'.out⟩

theorem Alike.setMain (h : Alike s t) (rest : List Stmt) :
    Alike { s with main := rest } { t with main := rest } :=
  ⟨rfl, h.infoPin, h.thread, h.wire, h.out⟩

theorem Alike.print (h : Alike s t) (line : Line) : Alike (s.print line) (t.print line) :=
  ⟨h.main, h.infoPin, h.thread, h.wire, h.out.append_right _⟩

theorem Alike.setWire (h : Alike s t) (p : Gpio) (w : Wire) :
    Alike (s.setWire p w) (t.setWire p w) :=
  ⟨h.main, h.infoPin, h.thread, by simp [State.setWire, h.wire], h.out⟩

theorem Alike.setThread (h : Alike s t) (k : ThreadId) (th : Thread) :
    Alike (s.setThread k th) (t.setThread k th) :=
  ⟨h.main, h.infoPin, by simp [State.setThread, h.thread], h.wire, h.out⟩

theorem Alike.apply (h : Alike s t) (e : Effect) : Alike (s.apply e) (t.apply e) := by
  cases e with
  | quiet => exact h
  | print line => exact h.print line
  | drive p high =>
    simp only [State.apply, h.wire]
    exact h.setWire p _

theorem Alike.perform (h : Alike s t) (st : Stmt) : Alike (perform c s st) (perform c t st) := by
  cases st with
  | print line => exact h.print line
  | gpioInit k => exact h.setWire _ _
  | gpioClear k =>
    simp only [ParallelTest.perform, h.wire]
    exact h.setWire _ _
  | storePin k =>
    exact ⟨h.main, by simp [ParallelTest.perform, h.infoPin], h.thread, h.wire, h.out⟩
  | threadCreate k =>
    simp only [ParallelTest.perform, h.thread]
    exact h.setThread _ _

/-- No actor sees the order of the lines. -/
theorem alike_follow {a : Actor} {s' : State} (h : Alike s t)
    (hstep : (system c).step a s = some s') :
    ∃ t', (system c).step a t = some t' ∧ Alike s' t' := by
  cases a with
  | main =>
    simp only [system, mainStep] at hstep ⊢
    rw [← h.main]
    cases hmain : s.main with
    | nil => simp [hmain] at hstep
    | cons st rest =>
      rw [hmain] at hstep
      obtain rfl := Option.some.inj hstep
      exact ⟨_, rfl, (h.setMain rest).perform st⟩
  | thread k =>
    obtain ⟨th, e, hmove, rfl⟩ := threadStep_cases hstep
    refine ⟨(t.setThread k th).apply e, ?_, (h.setThread k th).apply e⟩
    rw [h.thread, h.infoPin] at hmove
    simp [system, threadStep, hmove]

/-- A thread that can move has been created, and main has only others to create. -/
theorem main_others (hs : (system c).Reachable s) (hmove : threadStep c k s = some s₁) :
    ∀ st ∈ s.main, ∃ j, j ≠ k ∧ st = .threadCreate j := by
  obtain ⟨_, ⟨_, ht, _, _⟩ | ⟨hothers, _, _⟩⟩ := sound_reachable (view_reachable k hs)
  · simp only [view] at ht
    simp [threadStep, ht, Thread.step, Thread.notCreated] at hmove
  · exact hothers

theorem apply_setThread (s : State) (j : ThreadId) (th : Thread) (e : Effect) :
    (s.setThread j th).apply e = (s.apply e).setThread j th := by
  cases e <;> rfl

theorem setThread_comm (s : State) (h : j ≠ k) (th th' : Thread) :
    (s.setThread j th).setThread k th' = (s.setThread k th').setThread j th := by
  simp [State.setThread, Function.update_comm h]

theorem threadStep_of_step {th : Thread} {e : Effect}
    (hmove : (s.thread k).step c.iter (c.ret k) (s.infoPin k) = some (th, e)) :
    threadStep c k s = some ((s.setThread k th).apply e) := by
  simp [threadStep, hmove]

theorem exchange_main (hs : (system c).Reachable s) (hmain : mainStep c s = some s₁)
    (hthread : threadStep c k s = some s₂) :
    ∃ t, threadStep c k s₁ = some t ∧ mainStep c s₂ = some t := by
  have hothers := main_others hs hthread
  obtain ⟨th, e, hmove, rfl⟩ := threadStep_cases hthread
  simp only [mainStep] at hmain
  cases hrest : s.main with
  | nil => simp [hrest] at hmain
  | cons st rest =>
    rw [hrest] at hmain hothers
    obtain rfl := Option.some.inj hmain
    obtain ⟨j, hjk, rfl⟩ := hothers st List.mem_cons_self
    have hmove' : ((perform c { s with main := rest } (.threadCreate j)).thread k).step c.iter
        (c.ret k) ((perform c { s with main := rest } (.threadCreate j)).infoPin k) =
          some (th, e) := by
      simpa [perform, State.setThread, Ne.symm hjk] using hmove
    refine ⟨_, threadStep_of_step hmove', ?_⟩
    simp only [mainStep, apply_main, State.setThread, hrest, Option.some.injEq]
    cases e <;> simp [perform, State.apply, State.setThread, State.setWire, State.print, hjk,
      Function.update_comm hjk]

/-- Effects on different pins can be exchanged up to the order of the lines. -/
theorem effects_exchange (s : State) {e e' : Effect}
    (hpins : ∀ p high p' high', e = .drive p high → e' = .drive p' high' → p ≠ p') :
    Alike ((s.apply e).apply e') ((s.apply e').apply e) := by
  cases e with
  | quiet => exact alike_equivalence.refl _
  | print line =>
    cases e' with
    | quiet => exact alike_equivalence.refl _
    | drive p high => exact alike_equivalence.refl _
    | print line' =>
      refine ⟨rfl, rfl, rfl, rfl, ?_⟩
      simp only [State.apply, State.print, List.append_assoc]
      exact (List.Perm.swap _ _ []).append_left s.out
  | drive p high =>
    cases e' with
    | quiet => exact alike_equivalence.refl _
    | print line => exact alike_equivalence.refl _
    | drive p' high' =>
      have hne : p ≠ p' := hpins p high p' high' rfl rfl
      refine ⟨rfl, rfl, rfl, ?_, .refl _⟩
      simp [State.apply, State.setWire, hne, Ne.symm hne, Function.update_comm hne]

theorem exchange_threads (hs : (system c).Reachable s) (hjk : j ≠ k)
    (hj : threadStep c j s = some s₁) (hk : threadStep c k s = some s₂) :
    ∃ t₁ t₂, threadStep c k s₁ = some t₁ ∧ threadStep c j s₂ = some t₂ ∧ Alike t₁ t₂ := by
  have hown := ownPointers_reachable hs
  obtain ⟨th, e, hmove, rfl⟩ := threadStep_cases hj
  obtain ⟨th', e', hmove', rfl⟩ := threadStep_cases hk
  have hpins : ∀ p high p' high', e = .drive p high → e' = .drive p' high' → p ≠ p' := by
    intro p high p' high' he he'
    obtain rfl := (hown j p).2 ((step_pointer hmove).2 p high he)
    obtain rfl := (hown k p').2 ((step_pointer hmove').2 p' high' he')
    exact fun heq => hjk ((pin_eq_iff c).mp heq)
  refine ⟨((((s.setThread j th).apply e).setThread k th').apply e'),
    ((((s.setThread k th').apply e').setThread j th).apply e), ?_, ?_, ?_⟩
  · refine threadStep_of_step ?_
    simpa [State.setThread, Ne.symm hjk] using hmove'
  · refine threadStep_of_step ?_
    simpa [State.setThread, hjk] using hmove
  · rw [← apply_setThread, ← apply_setThread, setThread_comm s hjk]
    exact effects_exchange _ hpins

theorem exchanges (c : Setup) : (system c).Exchanges (system c).Reachable Alike where
  equiv := alike_equivalence
  kept hs hstep := .step hs hstep
  follow := alike_follow
  exchange := by
    intro a b s s₁ s₂ hs hab ha hb
    cases a with
    | main =>
      cases b with
      | main => exact False.elim (hab rfl)
      | thread k =>
        obtain ⟨t, hthread, hmain⟩ := exchange_main hs ha hb
        exact ⟨t, t, hthread, hmain, alike_equivalence.refl t⟩
    | thread j =>
      cases b with
      | main =>
        obtain ⟨t, hthread, hmain⟩ := exchange_main hs hb ha
        exact ⟨t, t, hmain, hthread, alike_equivalence.refl t⟩
      | thread k =>
        have hjk : j ≠ k := fun heq => hab (congrArg Actor.thread heq)
        exact exchange_threads hs hjk ha hb

end Exchange

section Schedule
variable {c : Setup} {s : State} {k : ThreadId} {p : Gpio}

/-- Thread `k` makes `n` moves from `s` to `s'`. -/
def Moves (c : Setup) (k : ThreadId) (n : Nat) (s s' : State) : Prop :=
  (system c).run s (List.replicate n (.thread k)) = some s'

theorem Moves.trans {m n : Nat} {s' s'' : State} (h : Moves c k m s s') (h' : Moves c k n s' s'') :
    Moves c k (m + n) s s'' := by
  simp only [Moves] at h h' ⊢
  rw [List.replicate_add, System.run_append, h, Option.bind_some, h']

/-- `n` pulses on what has been written before. -/
def pulsed : Nat → List Bool → List Bool
  | 0, ws => ws
  | n + 1, ws => pulsed n (false :: true :: ws)

theorem pulsed_succ (n : Nat) (ws : List Bool) :
    pulsed (n + 1) ws = false :: true :: pulsed n ws := by
  induction n generalizing ws with
  | zero => rfl
  | succ n ih => exact ih (false :: true :: ws)

theorem pulsed_waveform (n : Nat) : pulsed n [false] = waveform n := by
  induction n with
  | zero => rfl
  | succ n ih => rw [pulsed_succ, ih, waveform]

/-- Thread `k` at a point, with what it has written and printed. -/
def placed (s : State) (k : ThreadId) (p : Gpio) (point : Point) (calls : Nat)
    (ws : List Bool) (lines : List Line) : State :=
  { s with
    thread := Function.update s.thread k ⟨point, some p, calls⟩
    wire := Function.update s.wire p ⟨(s.wire p).output, ws⟩
    out := s.out ++ lines }

theorem moves_call {i n : Nat} (hi : i < c.iter) (ws : List Bool) :
    Moves c k 5 (placed s k p (.test i) n ws [])
      (placed s k p (if c.ret k i < 0 then .report (c.ret k i) else .test (i + 1)) (n + 1)
        (false :: true :: ws) []) := by
  simp [Moves, System.run, system, threadStep, Thread.step, Thread.drive, placed, hi,
    State.setThread, State.apply, State.setWire, Wire.write]

theorem moves_end {i n : Nat} (hi : ¬ i < c.iter) (ws : List Bool) :
    Moves c k 1 (placed s k p (.test i) n ws []) (placed s k p .ended n ws []) := by
  simp [Moves, System.run, system, threadStep, Thread.step, placed, hi, State.setThread,
    State.apply]

theorem moves_report {n : Nat} (r : Int) (ws : List Bool) :
    Moves c k 1 (placed s k p (.report r) n ws [])
      (placed s k p .ended n ws [⟨"AES ECB Enryption failed: %d\n", [r]⟩]) := by
  simp [Moves, System.run, system, threadStep, Thread.step, placed, State.setThread, State.apply,
    State.print]

/-- The loop of a thread that runs alone. -/
theorem moves_loop {left i n : Nat} (hsum : i + left = c.iter) (ws : List Bool) :
    Moves c k (5 * c.callsFrom k left i + 1) (placed s k p (.test i) n ws [])
      (placed s k p .ended (n + c.callsFrom k left i) (pulsed (c.callsFrom k left i) ws)
        (c.failuresFrom k left i)) := by
  induction left generalizing i n ws with
  | zero =>
    have hi : ¬ i < c.iter := by omega
    exact moves_end hi ws
  | succ left ih =>
    have hi : i < c.iter := by omega
    have hcall := moves_call (s := s) (k := k) (p := p) (n := n) hi ws
    by_cases hfails : c.ret k i < 0
    · simp only [hfails, if_true] at hcall
      simp only [Setup.callsFrom, Setup.failuresFrom, hfails, if_true]
      exact hcall.trans (moves_report _ _)
    · simp only [hfails, if_false] at hcall
      have hrest := ih (n := n + 1) (show i + 1 + left = c.iter by omega) (false :: true :: ws)
      have hall := hcall.trans hrest
      simp only [Setup.callsFrom, Setup.failuresFrom, hfails, if_false]
      have hmoves : 5 + (5 * c.callsFrom k left (i + 1) + 1) =
          5 * (c.callsFrom k left (i + 1) + 1) + 1 := by omega
      have hcalls : n + 1 + c.callsFrom k left (i + 1) =
          n + (c.callsFrom k left (i + 1) + 1) := by omega
      rw [hmoves, hcalls] at hall
      exact hall

/-- A thread that has just been created, and runs alone. -/
theorem moves_thread {s : State} (ht : s.thread k = ⟨.loadPin, none, 0⟩)
    (hinfo : s.infoPin k = some (c.pin k)) (hwire : s.wire (c.pin k) = ⟨true, [false]⟩) :
    Moves c k (c.threadMoves k) s
      { s with
        thread := Function.update s.thread k ⟨.ended, some (c.pin k), c.calls k⟩
        wire := Function.update s.wire (c.pin k) ⟨true, waveform (c.calls k)⟩
        out := s.out ++ c.failures k } := by
  have hstart : Moves c k 2 s (placed s k (c.pin k) (.test 0) 0 [false] []) := by
    simp [Moves, System.run, system, threadStep, Thread.step, ht, hinfo, placed, State.setThread,
      State.apply, hwire]
  have hloop := moves_loop (s := s) (k := k) (p := c.pin k) (n := 0) (Nat.zero_add c.iter) [false]
  have hall := hstart.trans hloop
  rw [pulsed_waveform, Nat.zero_add, placed, hwire] at hall
  exact hall

end Schedule

section Ends
variable (c : Setup)

/-- Main has done all its statements, and no thread has moved. -/
def created : State :=
  (aesEcbParallelTest c).foldl (perform c) { atRest c with main := [] }

theorem created_run :
    (system c).run (atRest c) (List.replicate (aesEcbParallelTest c).length .main) =
      some (created c) := rfl

theorem created_main : (created c).main = [] := rfl

theorem created_thread (k : ThreadId) : (created c).thread k = ⟨.loadPin, none, 0⟩ := by
  cases k <;> rfl

theorem created_infoPin (k : ThreadId) : (created c).infoPin k = some (c.pin k) := by
  cases k <;> rfl

theorem created_wire (k : ThreadId) : (created c).wire (c.pin k) = ⟨true, [false]⟩ := by
  have hdistinct : c.pin .one ≠ c.pin .two := c.distinct
  cases k <;>
    simp [created, aesEcbParallelTest, perform, State.setWire, State.setThread, State.print,
      Wire.write, Wire.initialised, hdistinct]

theorem created_untouched {p : Gpio} (hp : ∀ k, p ≠ c.pin k) :
    (created c).wire p = ⟨false, []⟩ := by
  simp [created, aesEcbParallelTest, perform, State.setWire, State.setThread, State.print,
    atRest, hp]

/-- Main first, then one thread, then the other. -/
def mainFirst : List Actor :=
  List.replicate (aesEcbParallelTest c).length .main ++
    (List.replicate (c.threadMoves .one) (.thread .one) ++
      List.replicate (c.threadMoves .two) (.thread .two))

theorem mainFirst_length : (mainFirst c).length = c.moves := by
  simp only [mainFirst, List.length_append, List.length_replicate, Setup.moves]
  omega

/-- The header, and the failures of thread 1 before those of thread 2. -/
def ending : State :=
  { created c with
    thread := Function.update (Function.update (created c).thread .one
      ⟨.ended, some (c.pin .one), c.calls .one⟩) .two ⟨.ended, some (c.pin .two), c.calls .two⟩
    wire := Function.update (Function.update (created c).wire (c.pin .one)
      ⟨true, waveform (c.calls .one)⟩) (c.pin .two) ⟨true, waveform (c.calls .two)⟩
    out := (created c).out ++ c.failures .one ++ c.failures .two }

theorem mainFirst_run : (system c).run (atRest c) (mainFirst c) = some (ending c) := by
  have hthread : ThreadId.two ≠ ThreadId.one := by decide
  have hpin : c.pin .two ≠ c.pin .one := c.distinct.symm
  have hone := moves_thread (created_thread c .one) (created_infoPin c .one) (created_wire c .one)
  have htwo := moves_thread (k := .two) (s := { created c with
      thread := Function.update (created c).thread .one ⟨.ended, some (c.pin .one), c.calls .one⟩
      wire := Function.update (created c).wire (c.pin .one) ⟨true, waveform (c.calls .one)⟩
      out := (created c).out ++ c.failures .one })
    (by simpa [hthread] using created_thread c .two) (created_infoPin c .two)
    (by simpa [hpin] using created_wire c .two)
  rw [mainFirst, System.run_append, created_run, Option.bind_some, System.run_append, hone,
    Option.bind_some]
  exact htwo

theorem ending_finished : Finished c (ending c) := by
  have hthread : ThreadId.one ≠ ThreadId.two := by decide
  have hpin : c.pin .one ≠ c.pin .two := c.distinct
  refine ⟨created_main c, fun k => ?_, fun k => ?_, fun p hp => ?_,
    c.failures .one ++ c.failures .two, List.append_assoc _ _ _, .refl _⟩
  · cases k <;> simp [ending, hthread]
  · cases k <;> simp [ending, hpin]
  · simp [ending, hp, created_untouched c hp]

theorem finished_atRest {s : State} (h : Finished c s) : (system c).AtRest s := by
  intro a
  cases a with
  | main => simp [system, mainStep, h.main]
  | thread k => simp [system, threadStep, Thread.step, (h.thread k).1]

def Stmt.line : Stmt → Option Line
  | .print line => some line
  | _ => none

/-- Every schedule makes `moves` moves at most, and the test has come to rest iff it
has made them all. -/
theorem schedules_end (schedule : List Actor) (s : State)
    (hrun : (system c).run (atRest c) schedule = some s) :
    schedule.length ≤ c.moves ∧ ((system c).AtRest s ↔ schedule.length = c.moves) := by
  have hrest := finished_atRest c (ending_finished c)
  rw [← mainFirst_length c]
  exact ⟨(exchanges c).length_le .start (mainFirst_run c) hrest hrun,
    (exchanges c).atRest_iff .start (mainFirst_run c) hrest hrun⟩

/-- One call for each thread, which fails. -/
def failingCalls : Setup := main true false 1 fun _ _ => -1

theorem schedules_end_failingCalls : (mainFirst failingCalls).length ≤ 27 :=
  (schedules_end failingCalls (mainFirst failingCalls) (ending failingCalls)
    (mainFirst_run failingCalls)).1

end Ends

end ParallelTest
