import EwsnCrypto.Aes.ParallelTest

/-!
# The pulses of the two threads

A thread with its own pin does not notice the other one: what main and one
thread do to each other is a system of its own, and every interleaving of the
three actors shows the runs of this system.
-/

open Interleaving

namespace ParallelTest

section Alone

/-- What main and one thread share, without the other thread. -/
structure Alone where
  main : List Stmt
  infoPin : Option Gpio
  thread : Thread
  wire : Wire

def Effect.onto (e : Effect) (w : Wire) : Wire :=
  match e with
  | .drive _ high => w.write high
  | .quiet | .print _ => w

/-- A statement of main as far as it concerns thread `k`. -/
def Alone.perform (c : Setup) (k : ThreadId) (s : Alone) : Stmt → Alone
  | .print _ => s
  | .gpioInit j => if j = k then { s with wire := .initialised } else s
  | .gpioClear j => if j = k then { s with wire := s.wire.write false } else s
  | .storePin j => if j = k then { s with infoPin := some (c.pin k) } else s
  | .threadCreate j => if j = k then { s with thread := { s.thread with point := .loadPin } } else s

inductive Turn where
  | main
  | thread

def alone (c : Setup) (k : ThreadId) : System Turn Alone where
  start := ⟨aesEcbParallelTest c, none, .notCreated, ⟨false, []⟩⟩
  step
    | .main, s => match s.main with
      | [] => none
      | st :: rest => some (Alone.perform c k { s with main := rest } st)
    | .thread, s => (s.thread.step c.iter (c.ret k) s.infoPin).map fun (t, effect) =>
      { s with thread := t, wire := effect.onto s.wire }

def view (c : Setup) (k : ThreadId) (s : State) : Alone :=
  ⟨s.main, s.infoPin k, s.thread k, s.wire (c.pin k)⟩

theorem pin_eq_iff (c : Setup) {j k : ThreadId} : c.pin j = c.pin k ↔ j = k := by
  have hdistinct : c.pin .one ≠ c.pin .two := c.distinct
  cases j <;> cases k <;> simp [hdistinct, hdistinct.symm]

theorem view_perform (c : Setup) (k : ThreadId) (s : State) (st : Stmt) :
    view c k (perform c s st) = Alone.perform c k (view c k s) st := by
  cases st with
  | print line => rfl
  | gpioInit j =>
    by_cases h : j = k
    · subst h
      simp [view, perform, Alone.perform, State.setWire]
    · have hpin : c.pin k ≠ c.pin j := fun heq => h ((pin_eq_iff c).mp heq).symm
      simp [view, perform, Alone.perform, State.setWire, h, hpin]
  | gpioClear j =>
    by_cases h : j = k
    · subst h
      simp [view, perform, Alone.perform, State.setWire]
    · have hpin : c.pin k ≠ c.pin j := fun heq => h ((pin_eq_iff c).mp heq).symm
      simp [view, perform, Alone.perform, State.setWire, h, hpin]
  | storePin j =>
    by_cases h : j = k
    · subst h
      simp [view, perform, Alone.perform]
    · simp [view, perform, Alone.perform, h, Ne.symm h]
  | threadCreate j =>
    by_cases h : j = k
    · subst h
      simp [view, perform, Alone.perform, State.setThread]
    · simp [view, perform, Alone.perform, State.setThread, h, Ne.symm h]

/-- The pointers of a thread are NULL or point to its own pin. -/
def OwnPointers (c : Setup) (s : State) : Prop :=
  ∀ k p, (s.infoPin k = some p → p = c.pin k) ∧ ((s.thread k).pin = some p → p = c.pin k)

theorem step_pointer {iter : Nat} {ret : Nat → Int} {infoPin : Option Gpio} {t t' : Thread}
    {e : Effect} (h : t.step iter ret infoPin = some (t', e)) :
    (t'.pin = t.pin ∨ t'.pin = infoPin) ∧ ∀ p high, e = .drive p high → t.pin = some p := by
  obtain ⟨point, pin, calls⟩ := t
  cases point <;> cases pin <;>
    simp only [Thread.step, Thread.drive, Option.some.injEq, Prod.mk.injEq, reduceCtorEq] at h <;>
    obtain ⟨rfl, rfl⟩ := h <;> simp

theorem ownPointers_perform {c : Setup} {s : State} (h : OwnPointers c s) (st : Stmt) :
    OwnPointers c (perform c s st) := by
  intro k p
  have hview := congrArg (fun a : Alone => (a.infoPin, a.thread.pin)) (view_perform c k s st)
  simp only [view, Prod.mk.injEq] at hview
  rw [hview.1, hview.2]
  cases st with
  | storePin j =>
    by_cases hjk : j = k
    · simp only [Alone.perform, hjk, if_true, Option.some.injEq]
      exact ⟨Eq.symm, (h k p).2⟩
    · simpa [Alone.perform, hjk] using h k p
  | _ =>
    simp only [Alone.perform]
    try split
    all_goals exact h k p

/-- A step of one thread, seen in the whole state. -/
theorem threadStep_cases {c : Setup} {j : ThreadId} {s s' : State}
    (h : threadStep c j s = some s') : ∃ t effect,
      (s.thread j).step c.iter (c.ret j) (s.infoPin j) = some (t, effect) ∧
      s' = (s.setThread j t).apply effect := by
  obtain ⟨⟨t, effect⟩, hstep, rfl⟩ := Option.map_eq_some_iff.mp h
  exact ⟨t, effect, hstep, rfl⟩

@[simp] theorem apply_main (s : State) (e : Effect) : (s.apply e).main = s.main := by
  cases e <;> rfl

@[simp] theorem apply_infoPin (s : State) (e : Effect) : (s.apply e).infoPin = s.infoPin := by
  cases e <;> rfl

@[simp] theorem apply_thread (s : State) (e : Effect) : (s.apply e).thread = s.thread := by
  cases e <;> rfl

theorem ownPointers_threadStep {c : Setup} {j : ThreadId} {s s' : State} (h : OwnPointers c s)
    (hstep : threadStep c j s = some s') : OwnPointers c s' := by
  obtain ⟨t, effect, ht, rfl⟩ := threadStep_cases hstep
  intro k p
  simp only [apply_infoPin, apply_thread, State.setThread]
  refine ⟨(h k p).1, ?_⟩
  by_cases hkj : k = j
  · subst hkj
    rw [Function.update_self]
    intro hpin
    rcases (step_pointer ht).1 with hsame | hloaded
    · exact (h k p).2 (hsame ▸ hpin)
    · exact (h k p).1 (hloaded ▸ hpin)
  · rw [Function.update_of_ne hkj]
    exact (h k p).2

theorem ownPointers_reachable {c : Setup} {s : State} (h : (system c).Reachable s) :
    OwnPointers c s := by
  refine h.invariant (fun k p => by simp [system, atRest, Thread.notCreated]) ?_
  intro a s s' hown hstep
  cases a with
  | main =>
    simp only [system, mainStep] at hstep
    cases hmain : s.main with
    | nil => simp [hmain] at hstep
    | cons st rest =>
      rw [hmain] at hstep
      obtain rfl := Option.some.inj hstep
      have hrest : OwnPointers c { s with main := rest } := hown
      exact ownPointers_perform hrest st
  | thread j => exact ownPointers_threadStep hown hstep

/-- A write to its own pin shows on the wire of a thread, one to another pin does not. -/
theorem wire_apply (c : Setup) (k : ThreadId) (s : State) {e : Effect} {j : ThreadId}
    (hown : ∀ p high, e = .drive p high → p = c.pin j) :
    (s.apply e).wire (c.pin k) = if j = k then e.onto (s.wire (c.pin k)) else s.wire (c.pin k) := by
  cases e with
  | quiet => simp [State.apply, Effect.onto]
  | print line => simp [State.apply, State.print, Effect.onto]
  | drive p high =>
    obtain rfl := hown p high rfl
    by_cases hjk : j = k
    · subst hjk
      simp [State.apply, State.setWire, Effect.onto]
    · have hpin : c.pin k ≠ c.pin j := fun heq => hjk ((pin_eq_iff c).mp heq).symm
      simp [State.apply, State.setWire, hjk, hpin]

/-- Every interleaving shows a run of main and thread `k` alone. -/
theorem view_reachable {c : Setup} (k : ThreadId) {s : State} (h : (system c).Reachable s) :
    (alone c k).Reachable (view c k s) := by
  refine h.view (I := OwnPointers c) (fun _ => ownPointers_reachable) rfl ?_
  intro a s s' hown hstep
  cases a with
  | main =>
    right
    refine ⟨.main, ?_⟩
    simp only [system, mainStep] at hstep
    cases hmain : s.main with
    | nil => simp [hmain] at hstep
    | cons st rest =>
      rw [hmain] at hstep
      obtain rfl := Option.some.inj hstep
      rw [view_perform]
      simp [alone, view, hmain]
  | thread j =>
    obtain ⟨t, effect, ht, rfl⟩ := threadStep_cases hstep
    have hwire := wire_apply c k (s.setThread j t) (e := effect) (j := j) fun p high he =>
      (hown j p).2 ((step_pointer ht).2 p high he)
    by_cases hjk : j = k
    · subst hjk
      right
      refine ⟨.thread, ?_⟩
      simp only [alone, view, ht, hwire, if_true, Option.map_some]
      simp [State.setThread]
    · left
      simp only [view, hwire, hjk, if_false]
      simp [State.setThread, Ne.symm hjk]

end Alone

section Progress
variable (c : Setup) (k : ThreadId)

/-- What `n` pulses after `gpio_init` and `gpio_clear` leave. -/
def waveform : Nat → List Bool
  | 0 => [false]
  | n + 1 => false :: true :: waveform n

theorem waveform_head (n : Nat) : (waveform n).head? = some false := by
  cases n <;> rfl

theorem false_mem_waveform (n : Nat) : false ∈ waveform n := by
  cases n <;> simp [waveform]

@[simp] theorem pulsesIn_waveform (n : Nat) : Wire.pulsesIn (waveform n) = n := by
  induction n with
  | zero => rfl
  | succ n ih => simp [waveform, Wire.pulsesIn, ih, false_mem_waveform]

/-- The first `n` calls of the thread succeed. -/
def Succeeded (n : Nat) : Prop := ∀ i, i < n → 0 ≤ c.ret k i

/-- Call `f` is the first to fail. -/
def FirstFailure (f : Nat) : Prop := f < c.iter ∧ c.ret k f < 0 ∧ Succeeded c k f

/-- How many calls the thread makes before it ends. -/
def CallsInAll (n : Nat) : Prop :=
  (n = c.iter ∧ Succeeded c k c.iter) ∨ ∃ f, FirstFailure c k f ∧ n = f + 1

/-- What a thread that has been created has done when it is at a point. -/
def Progress (t : Thread) (w : Wire) : Prop :=
  match t.point with
  | .absent | .faulted => False
  | .loadPin => t.calls = 0 ∧ w = ⟨true, waveform 0⟩
  | .aesInit => t.pin = some (c.pin k) ∧ t.calls = 0 ∧ w = ⟨true, waveform 0⟩
  | .test i => t.pin = some (c.pin k) ∧ t.calls = i ∧ w = ⟨true, waveform i⟩ ∧
      i ≤ c.iter ∧ Succeeded c k i
  | .gpioSet i => t.pin = some (c.pin k) ∧ t.calls = i ∧ w = ⟨true, waveform i⟩ ∧
      i < c.iter ∧ Succeeded c k i
  | .encrypt i => t.pin = some (c.pin k) ∧ t.calls = i ∧ w = ⟨true, true :: waveform i⟩ ∧
      i < c.iter ∧ Succeeded c k i
  | .gpioClear i r => t.pin = some (c.pin k) ∧ t.calls = i + 1 ∧
      w = ⟨true, true :: waveform i⟩ ∧ i < c.iter ∧ r = c.ret k i ∧ Succeeded c k i
  | .checkRet i r => t.pin = some (c.pin k) ∧ t.calls = i + 1 ∧ w = ⟨true, waveform (i + 1)⟩ ∧
      i < c.iter ∧ r = c.ret k i ∧ Succeeded c k i
  | .report _ | .ended => w = ⟨true, waveform t.calls⟩ ∧ CallsInAll c k t.calls

variable {c k}

theorem succeeded_succ {i : Nat} (h : Succeeded c k i) (hi : 0 ≤ c.ret k i) :
    Succeeded c k (i + 1) := by
  intro j hj
  by_cases hji : j = i
  · exact hji ▸ hi
  · exact h j (by omega)

/-- One statement of the thread keeps what it has done in step with its wire. -/
theorem progress_step {t t' : Thread} {w : Wire} {e : Effect} (h : Progress c k t w)
    (hstep : t.step c.iter (c.ret k) (some (c.pin k)) = some (t', e)) :
    Progress c k t' (e.onto w) := by
  obtain ⟨point, pin, calls⟩ := t
  cases point with
  | absent => exact h.elim
  | faulted => exact h.elim
  | ended => simp [Thread.step] at hstep
  | loadPin =>
    obtain ⟨rfl, rfl⟩ := Prod.mk.inj (Option.some.inj hstep)
    exact ⟨rfl, h⟩
  | aesInit =>
    obtain ⟨rfl, rfl⟩ := Prod.mk.inj (Option.some.inj hstep)
    obtain ⟨hpin, hcalls, hwire⟩ := h
    exact ⟨hpin, hcalls, hwire, Nat.zero_le _, fun i hi => by omega⟩
  | test i =>
    obtain ⟨rfl, rfl⟩ := Prod.mk.inj (Option.some.inj hstep)
    obtain ⟨hpin, hcalls, hwire, hle, hok⟩ := h
    by_cases hi : i < c.iter
    · simp only [hi, if_true]
      exact ⟨hpin, hcalls, hwire, hi, hok⟩
    · have hall : i = c.iter := by omega
      simp only [hi, if_false]
      exact ⟨hcalls ▸ hwire, .inl ⟨hcalls.trans hall, hall ▸ hok⟩⟩
  | gpioSet i =>
    obtain ⟨hpin, hcalls, rfl, hi, hok⟩ := h
    simp only at hpin
    simp only [Thread.step, Thread.drive, hpin] at hstep
    obtain ⟨rfl, rfl⟩ := Prod.mk.inj (Option.some.inj hstep)
    exact ⟨rfl, hcalls, rfl, hi, hok⟩
  | encrypt i =>
    obtain ⟨rfl, rfl⟩ := Prod.mk.inj (Option.some.inj hstep)
    obtain ⟨hpin, hcalls, hwire, hi, hok⟩ := h
    exact ⟨hpin, congrArg (· + 1) hcalls, hwire, hi, rfl, hok⟩
  | gpioClear i r =>
    obtain ⟨hpin, hcalls, rfl, hi, hret, hok⟩ := h
    simp only at hpin
    simp only [Thread.step, Thread.drive, hpin] at hstep
    obtain ⟨rfl, rfl⟩ := Prod.mk.inj (Option.some.inj hstep)
    exact ⟨rfl, hcalls, rfl, hi, hret, hok⟩
  | checkRet i r =>
    obtain ⟨rfl, rfl⟩ := Prod.mk.inj (Option.some.inj hstep)
    obtain ⟨hpin, hcalls, hwire, hi, rfl, hok⟩ := h
    by_cases hret : c.ret k i < 0
    · simp only [hret, if_true]
      exact ⟨hcalls ▸ hwire, .inr ⟨i, ⟨hi, hret, hok⟩, hcalls⟩⟩
    · simp only [hret, if_false]
      exact ⟨hpin, hcalls, hwire, hi, succeeded_succ hok (by omega)⟩
  | report r =>
    obtain ⟨rfl, rfl⟩ := Prod.mk.inj (Option.some.inj hstep)
    exact h

end Progress

section SetUp
variable {c : Setup} {k : ThreadId} {rest : List Stmt}

theorem behind_gpioInit (h : .gpioInit k :: rest <:+ aesEcbParallelTest c) :
    .gpioInit k ∉ rest ∧ .gpioClear k ∈ rest := by
  simp [aesEcbParallelTest, List.suffix_cons_iff] at h
  rcases h with ⟨rfl, rfl⟩ | ⟨rfl, rfl⟩ <;> simp

theorem behind_gpioClear (h : .gpioClear k :: rest <:+ aesEcbParallelTest c) :
    .gpioInit k ∉ rest ∧ .gpioClear k ∉ rest := by
  simp [aesEcbParallelTest, List.suffix_cons_iff] at h
  rcases h with ⟨rfl, rfl⟩ | ⟨rfl, rfl⟩ <;> simp

theorem behind_storePin (h : .storePin k :: rest <:+ aesEcbParallelTest c) :
    .storePin k ∉ rest := by
  simp [aesEcbParallelTest, List.suffix_cons_iff] at h
  rcases h with ⟨rfl, rfl⟩ | ⟨rfl, rfl⟩ <;> simp

theorem behind_threadCreate (h : .threadCreate k :: rest <:+ aesEcbParallelTest c) :
    ∀ st ∈ rest, ∃ j, j ≠ k ∧ st = .threadCreate j := by
  simp [aesEcbParallelTest, List.suffix_cons_iff] at h
  rcases h with ⟨rfl, rfl⟩ | ⟨rfl, rfl⟩ <;> simp

/-- The wire of a thread that main has not created, by what main has left to do. -/
def setUpWire (k : ThreadId) (rest : List Stmt) : Wire :=
  if .gpioInit k ∈ rest then ⟨false, []⟩
  else if .gpioClear k ∈ rest then .initialised
  else ⟨true, waveform 0⟩

def setUpInfo (c : Setup) (k : ThreadId) (rest : List Stmt) : Option Gpio :=
  if .storePin k ∈ rest then none else some (c.pin k)

/-- Before main creates the thread everything is as main has set it up, and then
main leaves it alone. -/
def Alone.Sound (c : Setup) (k : ThreadId) (s : Alone) : Prop :=
  s.main <:+ aesEcbParallelTest c ∧
  ((.threadCreate k ∈ s.main ∧ s.thread = .notCreated ∧ s.wire = setUpWire k s.main ∧
      s.infoPin = setUpInfo c k s.main) ∨
    ((∀ st ∈ s.main, ∃ j, j ≠ k ∧ st = .threadCreate j) ∧ s.infoPin = some (c.pin k) ∧
      Progress c k s.thread s.wire))

theorem sound_start (c : Setup) (k : ThreadId) : (alone c k).start.Sound c k := by
  refine ⟨List.suffix_refl _, .inl ?_⟩
  cases k <;> simp [alone, aesEcbParallelTest, setUpWire, setUpInfo]

/-- Main goes on setting up, or creates the thread. -/
theorem sound_setUp {t : Thread} {w : Wire} {p : Option Gpio} {st : Stmt}
    (hsuffix : st :: rest <:+ aesEcbParallelTest c) (hcreate : .threadCreate k ∈ st :: rest)
    (ht : t = .notCreated) (hw : w = setUpWire k (st :: rest))
    (hp : p = setUpInfo c k (st :: rest)) :
    (Alone.perform c k ⟨rest, p, t, w⟩ st).Sound c k := by
  have hrest : rest <:+ aesEcbParallelTest c := (List.suffix_cons st rest).trans hsuffix
  subst ht hw hp
  cases st with
  | print line =>
    refine ⟨hrest, .inl ?_⟩
    simpa [Alone.perform, setUpWire, setUpInfo] using hcreate
  | gpioInit j =>
    by_cases hjk : j = k
    · subst hjk
      obtain ⟨hinit, hclear⟩ := behind_gpioInit hsuffix
      refine ⟨by simpa [Alone.perform] using hrest, .inl ?_⟩
      simpa [Alone.perform, setUpWire, setUpInfo, hinit, hclear] using hcreate
    · refine ⟨by simpa [Alone.perform, hjk] using hrest, .inl ?_⟩
      simpa [Alone.perform, setUpWire, setUpInfo, hjk, Ne.symm hjk] using hcreate
  | gpioClear j =>
    by_cases hjk : j = k
    · subst hjk
      obtain ⟨hinit, hclear⟩ := behind_gpioClear hsuffix
      refine ⟨by simpa [Alone.perform] using hrest, .inl ?_⟩
      simpa [Alone.perform, setUpWire, setUpInfo, hinit, hclear, Wire.write, Wire.initialised,
        waveform] using hcreate
    · refine ⟨by simpa [Alone.perform, hjk] using hrest, .inl ?_⟩
      simpa [Alone.perform, setUpWire, setUpInfo, hjk, Ne.symm hjk] using hcreate
  | storePin j =>
    by_cases hjk : j = k
    · subst hjk
      have hstore : .storePin j ∉ rest := behind_storePin hsuffix
      refine ⟨by simpa [Alone.perform] using hrest, .inl ?_⟩
      simpa [Alone.perform, setUpWire, setUpInfo, hstore] using hcreate
    · refine ⟨by simpa [Alone.perform, hjk] using hrest, .inl ?_⟩
      simpa [Alone.perform, setUpWire, setUpInfo, hjk, Ne.symm hjk] using hcreate
  | threadCreate j =>
    by_cases hjk : j = k
    · subst hjk
      have hothers := behind_threadCreate hsuffix
      have hdone : ∀ st, (∀ i, st ≠ .threadCreate i) → st ∉ rest := by
        intro st hst hmem
        obtain ⟨i, _, heq⟩ := hothers st hmem
        exact hst i heq
      refine ⟨by simpa [Alone.perform] using hrest, .inr ?_⟩
      simpa [Alone.perform, setUpWire, setUpInfo, Progress, Thread.notCreated, hdone] using hothers
    · refine ⟨by simpa [Alone.perform, hjk] using hrest, .inl ?_⟩
      simpa [Alone.perform, setUpWire, setUpInfo, hjk, Ne.symm hjk] using hcreate

theorem sound_reachable {s : Alone} (h : (alone c k).Reachable s) : s.Sound c k := by
  refine h.invariant (sound_start c k) ?_
  rintro a ⟨main, p, t, w⟩ s' ⟨hsuffix, hphase⟩ hstep
  cases a with
  | main =>
    cases main with
    | nil => simp [alone] at hstep
    | cons st rest =>
      obtain rfl := Option.some.inj hstep
      rcases hphase with ⟨hcreate, ht, hw, hp⟩ | ⟨hothers, hp, hprogress⟩
      · exact sound_setUp hsuffix hcreate ht hw hp
      · obtain ⟨j, hjk, rfl⟩ := hothers st List.mem_cons_self
        simp only [Alone.perform, hjk, if_false]
        exact ⟨(List.suffix_cons _ rest).trans hsuffix,
          .inr ⟨fun st' hst' => hothers st' (List.mem_cons_of_mem _ hst'), hp, hprogress⟩⟩
  | thread =>
    obtain ⟨⟨t', effect⟩, hmove, rfl⟩ := Option.map_eq_some_iff.mp hstep
    rcases hphase with ⟨_, ht, _, _⟩ | ⟨hothers, hp, hprogress⟩
    · simp only at ht
      subst ht
      simp [Thread.step, Thread.notCreated] at hmove
    · simp only at hp hmove hprogress
      rw [hp] at hmove
      exact ⟨hsuffix, .inr ⟨hothers, hp, progress_step hprogress hmove⟩⟩

end SetUp

section Pulses

/-- The next statement is `gpio_set(*pin)` or `gpio_clear(*pin)`. -/
def Point.dereferences : Point → Bool
  | .gpioSet _ | .gpioClear _ _ => true
  | _ => false

/-- Between `gpio_set` and `gpio_clear`. -/
def Point.inSection : Point → Bool
  | .encrypt _ | .gpioClear _ _ => true
  | _ => false

variable {c : Setup} {k : ThreadId}

theorem progress_pointer {t : Thread} {w : Wire} (h : Progress c k t w) :
    t.point ≠ .faulted ∧ w.output = true ∧
      (t.point.dereferences = true → t.pin = some (c.pin k)) := by
  obtain ⟨point, pin, calls⟩ := t
  cases point with
  | absent => exact h.elim
  | faulted => exact h.elim
  | loadPin => simp [h.2, Point.dereferences]
  | aesInit => simp [h.2.2, Point.dereferences]
  | report _ => simp [h.1, Point.dereferences]
  | ended => simp [h.1, Point.dereferences]
  | _ =>
    obtain ⟨hpin, _, hwire, _⟩ := h
    exact ⟨by simp, by rw [hwire], fun _ => hpin⟩

theorem progress_level {t : Thread} {w : Wire} (h : Progress c k t w) :
    w.level = some t.point.inSection := by
  obtain ⟨point, pin, calls⟩ := t
  cases point with
  | absent => exact h.elim
  | faulted => exact h.elim
  | loadPin => simp [h.2, Wire.level, waveform_head, Point.inSection]
  | aesInit => simp [h.2.2, Wire.level, waveform_head, Point.inSection]
  | report _ => simp [h.1, Wire.level, waveform_head, Point.inSection]
  | ended => simp [h.1, Wire.level, waveform_head, Point.inSection]
  | _ =>
    obtain ⟨_, _, rfl, _⟩ := h
    simp [Wire.level, waveform_head, Point.inSection]

theorem progress_pulses {t : Thread} {w : Wire} (h : Progress c k t w)
    (houtside : t.point.inSection = false) : w.pulses = t.calls := by
  obtain ⟨point, pin, calls⟩ := t
  cases point with
  | absent => exact h.elim
  | faulted => exact h.elim
  | encrypt i => cases houtside
  | gpioClear i r => cases houtside
  | loadPin =>
    obtain ⟨hcalls, rfl⟩ := h
    exact (pulsesIn_waveform 0).trans hcalls.symm
  | aesInit =>
    obtain ⟨_, hcalls, rfl⟩ := h
    exact (pulsesIn_waveform 0).trans hcalls.symm
  | report _ => simp [h.1, Wire.pulses]
  | ended => simp [h.1, Wire.pulses]
  | _ =>
    obtain ⟨_, hcalls, rfl, _⟩ := h
    simp only [Wire.pulses, pulsesIn_waveform]
    exact hcalls.symm

/-- The number of calls is settled by what they return. -/
theorem callsInAll_eq {n : Nat} (h : CallsInAll c k n) :
    (Succeeded c k c.iter → n = c.iter) ∧ ∀ f, FirstFailure c k f → n = f + 1 := by
  rcases h with ⟨rfl, hok⟩ | ⟨f, ⟨hf, hfails, hbefore⟩, rfl⟩
  · refine ⟨fun _ => rfl, ?_⟩
    rintro f ⟨hf, hfails, _⟩
    have := hok f hf
    omega
  · refine ⟨fun hok => ?_, ?_⟩
    · have := hok f hf
      omega
    · rintro g ⟨_, hfails', hbefore'⟩
      have hle : ¬ f < g := fun hlt => by
        have := hbefore' f hlt
        omega
      have hge : ¬ g < f := fun hlt => by
        have := hbefore g hlt
        omega
      omega

theorem setUpWire_level (k : ThreadId) (rest : List Stmt) :
    (setUpWire k rest).level ≠ some true ∧ (setUpWire k rest).pulses = 0 := by
  simp only [setUpWire]
  split
  · simp [Wire.level, Wire.pulses, Wire.pulsesIn]
  · split <;> simp [Wire.level, Wire.pulses, Wire.pulsesIn, Wire.initialised, waveform]

/-- Main clears a pin behind `gpio_init`. -/
theorem setUpWire_cleared {rest : List Stmt} (hsuffix : rest <:+ aesEcbParallelTest c)
    (hclear : .gpioClear k ∉ rest) : (setUpWire k rest).level = some false := by
  have hinit : .gpioInit k ∉ rest := by
    intro hmem
    obtain ⟨pre, post, rfl⟩ := List.append_of_mem hmem
    have hbehind := behind_gpioInit ((List.suffix_append pre _).trans hsuffix)
    exact hclear (List.mem_append_right pre (List.mem_cons_of_mem _ hbehind.2))
  simp [setUpWire, hinit, hclear, Wire.level, waveform]

/-- In every interleaving a thread uses its pointer only behind the set-up of its
pin, which is high exactly in the section around its encryption calls, low outside
it since it was first cleared, and has one pulse for each call. A thread that has ended
leaves the pin low, after as many pulses as iterations or one for every call up to the
first that failed. -/
theorem pins_trace_calls (c : Setup) (s : State) (hs : (system c).Reachable s) (k : ThreadId) :
    ((s.thread k).point ≠ .faulted ∧ ((s.thread k).point.dereferences = true →
      (s.thread k).pin = some (c.pin k) ∧ s.infoPin k = some (c.pin k) ∧
      (s.wire (c.pin k)).output = true ∧ .gpioInit k ∉ s.main ∧ .gpioClear k ∉ s.main ∧
      .storePin k ∉ s.main)) ∧
    ((s.wire (c.pin k)).level = some true ↔ (s.thread k).point.inSection = true) ∧
    (.gpioClear k ∉ s.main → (s.wire (c.pin k)).level = some (s.thread k).point.inSection) ∧
    ((s.thread k).point.inSection = false →
      (s.wire (c.pin k)).pulses = (s.thread k).calls) ∧
    ((s.thread k).point = .ended → (s.wire (c.pin k)).level = some false ∧
      (Succeeded c k c.iter → (s.wire (c.pin k)).pulses = c.iter) ∧
      ∀ f, FirstFailure c k f → (s.wire (c.pin k)).pulses = f + 1) := by
  obtain ⟨hsuffix, ⟨_, ht, hw, _⟩ | ⟨hothers, hinfo, hprogress⟩⟩ :=
    sound_reachable (view_reachable k hs)
  · simp only [view] at hsuffix ht hw
    obtain ⟨hlevel, hpulses⟩ := setUpWire_level k s.main
    have hcleared : .gpioClear k ∉ s.main → (setUpWire k s.main).level = some false :=
      setUpWire_cleared hsuffix
    rw [ht, hw]
    simpa [Thread.notCreated, Point.dereferences, Point.inSection, hlevel, hpulses] using hcleared
  · simp only [view] at hothers hinfo hprogress
    have hdone : ∀ st, (∀ i, st ≠ .threadCreate i) → st ∉ s.main := by
      intro st hst hmem
      obtain ⟨i, _, heq⟩ := hothers st hmem
      exact hst i heq
    obtain ⟨hnofault, houtput, hpin⟩ := progress_pointer hprogress
    have hlevel := progress_level hprogress
    have hpulses := progress_pulses hprogress
    refine ⟨⟨hnofault, fun hderef => ?_⟩, ?_, fun _ => hlevel, hpulses, fun hended => ?_⟩
    · exact ⟨hpin hderef, hinfo, houtput, hdone _ (by simp), hdone _ (by simp), hdone _ (by simp)⟩
    · simp [hlevel]
    · have houtside : (s.thread k).point.inSection = false := by
        rw [hended]
        rfl
      have hcalls : CallsInAll c k (s.thread k).calls := by
        simp only [Progress, hended] at hprogress
        exact hprogress.2
      rw [hpulses houtside, hlevel, houtside]
      exact ⟨rfl, callsInAll_eq hcalls⟩

/-- A test of one call per thread, with thread 1 at its end before main creates thread 2. -/
def firstThreadEnds : State :=
  ((system (main true false 1 fun _ _ => 0)).run (atRest (main true false 1 fun _ _ => 0))
    (List.replicate 10 .main ++ List.replicate 8 (.thread .one))).getD
      (atRest (main true false 1 fun _ _ => 0))

theorem pins_trace_calls_main :
    (firstThreadEnds.thread .one).point = .ended ∧ (firstThreadEnds.thread .two).point = .absent ∧
      (firstThreadEnds.wire (threadPin .one)).pulses = 1 := by
  have hreached : (system (main true false 1 fun _ _ => 0)).Reachable firstThreadEnds :=
    (System.reachable_iff _).mpr
      ⟨List.replicate 10 .main ++ List.replicate 8 (.thread .one), rfl⟩
  exact ⟨rfl, rfl, ((pins_trace_calls _ _ hreached .one).2.2.2.2 rfl).2.1 fun _ _ => Int.le_refl 0⟩

end Pulses

end ParallelTest
