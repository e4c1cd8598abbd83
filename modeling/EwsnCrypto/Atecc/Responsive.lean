import EwsnCrypto.Atecc.Watchdog

/-!
# When the chip is awake for every command

The wake before the loop lasts for the whole loop unless the trigger wakes the
chip again, which it does in one kind of build only.
-/

open InputProgram

namespace Atecc

/-- The trigger wakes the chip behind the synchronisation. -/
def Build.rewakes (b : Build) : Bool := b.testEnergy && b.wakesInTrigger

section Rounds
variable (b : Build) (replies : Replies)

theorem startTrigger_of_energy (henergy : b.testEnergy = true) :
    startTrigger b = (do whileSyncHigh; whileSyncLow) >>= fun _ =>
      onlyIf b.wakesInTrigger (emit .ateccWake) >>= fun _ => gpioClear .active := by
  simp [startTrigger, henergy]

/-- The trigger waits for ever, or goes on after the next wait of the input. -/
theorem startTrigger_cases (ins : List Reading) (s : Saved) :
    (((startTrigger b).exec ins s).value = none ∧ b.testEnergy = true ∧ waits ins = [] ∧
      ∃ e, Passes ((startTrigger b).exec ins s).trace e) ∨
    (((startTrigger b).exec ins s).value = some () ∧ ∃ e,
      (b.testEnergy = true → waits ins = e :: waits ((startTrigger b).exec ins s).rest) ∧
      (b.testEnergy = false → e = 0) ∧
      ∀ watchdog d, (chip watchdog).Accepts d ((startTrigger b).exec ins s).trace ∧
        (chip watchdog).after d ((startTrigger b).exec ins s).trace =
          if b.rewakes then (d.advance e).wake else d.advance e) := by
  cases henergy : b.testEnergy with
  | false =>
    right
    simp only [startTrigger, henergy, Build.rewakes, Bool.false_and, Bool.false_eq_true, if_false]
    exact ⟨rfl, 0, by simp, fun _ => rfl, fun _ _ => ⟨⟨trivial, trivial⟩, rfl⟩⟩
  | true =>
    rw [startTrigger_of_energy b henergy]
    obtain ⟨e, hpasses, ⟨hvalue, hwaits⟩ | ⟨hvalue, hwaits⟩⟩ := sync_cases ins s
    · left
      rw [bind_exec, andThen_of_stopped hvalue]
      exact ⟨rfl, rfl, hwaits, e, hpasses⟩
    · right
      rw [bind_exec, andThen_of_value hvalue]
      refine ⟨by cases b.wakesInTrigger <;> rfl, e, ?_, by simp, ?_⟩
      · intro _
        rw [hwaits]
        cases b.wakesInTrigger <;> rfl
      · intro watchdog d
        obtain ⟨haccepts, hafter⟩ := hpasses watchdog d
        rw [Monitor.accepts_append, Monitor.after_append, hafter]
        simp only [Build.rewakes, henergy, Bool.true_and]
        cases b.wakesInTrigger with
        | false => exact ⟨⟨haccepts, trivial, trivial⟩, rfl⟩
        | true => exact ⟨⟨haccepts, trivial, trivial, trivial⟩, rfl⟩

/-- One iteration of the loop. -/
def round (i : Nat) : App Unit := do
  startTrigger b
  hash b replies i
  stopTrigger b

theorem round_cases (i : Nat) (ins : List Reading) (s : Saved) (watchdog : Nat) (d : Device)
    {woken : Nat} (hwoken : d.wokenAt = some woken) :
    (((round b replies i).exec ins s).value = none ∧ b.testEnergy = true ∧ waits ins = [] ∧
      (chip watchdog).Accepts d ((round b replies i).exec ins s).trace) ∨
    (((round b replies i).exec ins s).value = some () ∧ ∃ e woken',
      (b.testEnergy = true → waits ins = e :: waits ((round b replies i).exec ins s).rest) ∧
      (b.testEnergy = false → e = 0) ∧
      woken' = (if b.rewakes then d.now + e else woken) ∧
      (chip watchdog).after d ((round b replies i).exec ins s).trace =
        ⟨d.now + e + hashTime b (replies i), some woken'⟩ ∧
      ((chip watchdog).Accepts d ((round b replies i).exec ins s).trace ↔
        d.now + e + lastIssued b (replies i) < woken' + watchdog)) := by
  rcases startTrigger_cases b ins s with
    ⟨hvalue, henergy, hwaits, e, hpasses⟩ | ⟨hvalue, e, hwaits, hzero, htrigger⟩
  · left
    rw [round, bind_exec, andThen_of_stopped hvalue]
    exact ⟨rfl, henergy, hwaits, (hpasses watchdog d).1⟩
  · right
    obtain ⟨_, hhash⟩ := issues_hash b replies i
    obtain ⟨hvalue', hrest, hrun⟩ := hhash ((startTrigger b).exec ins s).rest
      ((startTrigger b).exec ins s).state
    obtain ⟨hstop, hrest', _, hidle⟩ := silent_stopTrigger b ((startTrigger b).exec ins s).rest
      ((hash b replies i).exec ((startTrigger b).exec ins s).rest
        ((startTrigger b).exec ins s).state).state
    rw [round, bind_exec, andThen_of_value hvalue, bind_exec, andThen_of_value hvalue', hrest]
    refine ⟨hstop, e, if b.rewakes then d.now + e else woken, ?_, hzero, rfl, ?_⟩
    · intro henergy
      rw [hwaits henergy, hrest']
    · obtain ⟨haccepts, hafter⟩ := htrigger watchdog d
      obtain ⟨hafter', haccepts'⟩ :=
        hrun watchdog (if b.rewakes then (d.advance e).wake else d.advance e)
      obtain ⟨haccepts'', hafter''⟩ := passes_idle hidle watchdog
        ((if b.rewakes then (d.advance e).wake else d.advance e).advance (hashTime b (replies i)))
      rw [Monitor.after_append, Monitor.after_append, hafter, hafter', hafter'',
        Monitor.accepts_append, Monitor.accepts_append, hafter, hafter']
      cases hrewakes : b.rewakes with
      | false =>
        simp only [hrewakes, Bool.false_eq_true, if_false] at haccepts' haccepts'' ⊢
        refine ⟨by simp [Device.advance, hwoken], ?_⟩
        rw [haccepts' woken hwoken]
        exact ⟨fun h => h.2.1, fun h => ⟨haccepts, h, haccepts''⟩⟩
      | true =>
        simp only [hrewakes, if_true] at haccepts' haccepts'' ⊢
        refine ⟨rfl, ?_⟩
        rw [haccepts' (d.now + e) rfl]
        exact ⟨fun h => h.2.1, fun h => ⟨haccepts, h, haccepts''⟩⟩

/-- The wait before iteration `i`. -/
def waitOf (ins : List Reading) (i : Nat) : Nat :=
  if b.testEnergy then (waits ins)[i]?.getD 0 else 0

/-- The loop gets to the commands of iteration `i`. -/
def Reached (ins : List Reading) (numIter i : Nat) : Prop :=
  i < numIter ∧ (b.testEnergy = true → i < (waits ins).length)

/-- The time from the wake before the loop to the start of iteration `i`. -/
def elapsed (ins : List Reading) (i : Nat) : Nat :=
  ∑ j ∈ Finset.range i, (waitOf b ins j + hashTime b (replies j))

/-- The time from the wake before the loop to the last command of iteration `i`. -/
def issueTime (ins : List Reading) (i : Nat) : Nat :=
  elapsed b replies ins i + waitOf b ins i + lastIssued b (replies i)

/-- The time from the last wake to the last command of iteration `i`. -/
def sinceWake (ins : List Reading) (i : Nat) : Nat :=
  if b.rewakes then lastIssued b (replies i) else issueTime b replies ins i

variable {b replies}

theorem elapsed_succ (ins : List Reading) (i : Nat) :
    elapsed b replies ins (i + 1) =
      elapsed b replies ins i + (waitOf b ins i + hashTime b (replies i)) :=
  Finset.sum_range_succ ..

theorem reached_succ {ins : List Reading} {n : Nat}
    (hn : b.testEnergy = true → n < (waits ins).length) {P : Nat → Prop} :
    (∀ i, Reached b ins (n + 1) i → P i) ↔ (∀ i, Reached b ins n i → P i) ∧ P n := by
  constructor
  · intro h
    exact ⟨fun i hi => h i ⟨by have := hi.1; omega, hi.2⟩, h n ⟨by omega, hn⟩⟩
  · rintro ⟨h, hlast⟩ i ⟨hi, hlen⟩
    by_cases hin : i = n
    · exact hin ▸ hlast
    · exact h i ⟨by omega, hlen⟩

theorem reached_stopped {ins : List Reading} {n : Nat} (henergy : b.testEnergy = true)
    (hn : (waits ins).length ≤ n) {i : Nat} : Reached b ins (n + 1) i ↔ Reached b ins n i := by
  constructor
  · rintro ⟨_, hlen⟩
    exact ⟨by have := hlen henergy; omega, hlen⟩
  · rintro ⟨hi, hlen⟩
    exact ⟨by omega, hlen⟩

theorem drop_eq_cons {α : Type} {xs ys : List α} {n : Nat} {x : α} (h : xs.drop n = x :: ys) :
    xs[n]? = some x ∧ xs.drop (n + 1) = ys := by
  constructor
  · rw [← Nat.add_zero n, ← List.getElem?_drop, h]
    rfl
  · rw [← List.tail_drop, h]
    rfl

theorem waitOf_eq {ins : List Reading} {n e : Nat}
    (hsome : b.testEnergy = true → (waits ins)[n]? = some e)
    (hzero : b.testEnergy = false → e = 0) : waitOf b ins n = e := by
  cases henergy : b.testEnergy with
  | false => simp [waitOf, henergy, hzero henergy]
  | true => simp [waitOf, henergy, hsome henergy]

/-- The last command of an iteration is in time by the clock iff it is in time after
the last wake. -/
theorem sinceWake_lt_iff {ins : List Reading} {n e start woken woken' watchdog : Nat}
    (he : waitOf b ins n = e) (hkept : b.rewakes = false → woken = start)
    (hwoken' : woken' = if b.rewakes then start + elapsed b replies ins n + e else woken) :
    start + elapsed b replies ins n + e + lastIssued b (replies n) < woken' + watchdog ↔
      sinceWake b replies ins n < watchdog := by
  simp only [sinceWake, issueTime, he, hwoken']
  cases hrewakes : b.rewakes with
  | false =>
    rw [hkept hrewakes]
    simp only [Bool.false_eq_true, if_false]
    omega
  | true =>
    simp only [if_true]
    omega

/-- What the chip sees of the loop: every iteration that is reached issues its last
command `sinceWake` after a wake. -/
theorem iterate_cases {watchdog : Nat} {d : Device} (hwoken : d.wokenAt = some d.now)
    (ins : List Reading) (s : Saved) (n : Nat) :
    ((chip watchdog).Accepts d ((forRange n (round b replies)).exec ins s).trace ↔
      ∀ i, Reached b ins n i → sinceWake b replies ins i < watchdog) ∧
    ((((forRange n (round b replies)).exec ins s).value = none ∧ b.testEnergy = true ∧
        (waits ins).length ≤ n) ∨
      (((forRange n (round b replies)).exec ins s).value = some () ∧ ∃ woken,
        (b.testEnergy = true → n ≤ (waits ins).length ∧
          waits ((forRange n (round b replies)).exec ins s).rest = (waits ins).drop n) ∧
        (b.rewakes = false → woken = d.now) ∧
        (chip watchdog).after d ((forRange n (round b replies)).exec ins s).trace =
          ⟨d.now + elapsed b replies ins n, some woken⟩)) := by
  induction n with
  | zero =>
    constructor
    · exact ⟨fun _ i hi => absurd hi.1 (by omega), fun _ => trivial⟩
    · right
      exact ⟨rfl, d.now, fun _ => ⟨by omega, rfl⟩, fun _ => rfl,
        by simp [forRange, elapsed, ← hwoken]⟩
  | succ n ih =>
    obtain ⟨hreached, ⟨hvalue, henergy, hlen⟩ | ⟨hvalue, woken, hwaits, hkept, hafter⟩⟩ := ih
    · have hstop : (forRange (n + 1) (round b replies)).exec ins s = _ :=
        andThen_of_stopped hvalue _
      rw [hstop]
      constructor
      · simp only [reached_stopped henergy hlen]
        exact hreached
      · exact .inl ⟨rfl, henergy, by omega⟩
    · rw [forRange_succ_exec hvalue]
      simp only [Monitor.accepts_append, Monitor.after_append, hafter, hreached]
      rcases round_cases b replies n ((forRange n (round b replies)).exec ins s).rest
          ((forRange n (round b replies)).exec ins s).state watchdog
          ⟨d.now + elapsed b replies ins n, some woken⟩ rfl with
        ⟨hstopped, henergy, hnone, haccepts⟩ |
        ⟨hdone, e, woken', hsome, hzero, hwoken', hafter', haccepts⟩
      · have hlen : (waits ins).length ≤ n := by
          rw [(hwaits henergy).2, List.drop_eq_nil_iff] at hnone
          exact hnone
        constructor
        · simp only [reached_stopped henergy hlen, and_iff_left haccepts]
        · exact .inl ⟨hstopped, henergy, by omega⟩
      · have hnext : b.testEnergy = true → (waits ins)[n]? = some e ∧ (waits ins).drop (n + 1) =
            waits ((round b replies n).exec ((forRange n (round b replies)).exec ins s).rest
              ((forRange n (round b replies)).exec ins s).state).rest := by
          intro henergy
          exact drop_eq_cons ((hwaits henergy).2.symm.trans (hsome henergy))
        have hlt : b.testEnergy = true → n < (waits ins).length := by
          intro henergy
          obtain ⟨h, _⟩ := List.getElem?_eq_some_iff.mp (hnext henergy).1
          exact h
        have he : waitOf b ins n = e := waitOf_eq (fun henergy => (hnext henergy).1) hzero
        constructor
        · rw [reached_succ hlt, haccepts, sinceWake_lt_iff he hkept hwoken']
        · right
          refine ⟨hdone, woken', fun henergy => ⟨hlt henergy, (hnext henergy).2.symm⟩, ?_, ?_⟩
          · intro hrewakes
            simp [hwoken', hrewakes, hkept hrewakes]
          · rw [hafter', elapsed_succ, he]
            simp only [Nat.add_assoc]

end Rounds

section Main
variable {b : Build} {replies : Replies}

theorem timed_accepts (hmanual : b.manualOnOff = true) (numIter : Nat) (watch : Stopwatch)
    (format : String) (body : Nat → App Unit) (watchdog : Nat) (d : Device) (ins : List Reading)
    (s : Saved) :
    (chip watchdog).Accepts d ((timed b numIter watch format body).exec ins s).trace ↔
      (chip watchdog).Accepts d.wake ((iterate b numIter body).exec ins s).trace := by
  simp only [timed, hmanual, onlyIf_true, bind_exec, emit_exec, andThen_some]
  cases hvalue : ((iterate b numIter body).exec ins s).value with
  | none =>
    rw [andThen_of_stopped hvalue]
    simp [chip, Device.next]
  | some u =>
    rw [andThen_of_value hvalue]
    simp [chip, Device.next]

/-- From start to end the chip sees only the wake before the loop, the loop, and
being put to sleep. -/
theorem main_accepts (hmanual : b.manualOnOff = true) (speed : I2cSpeed)
    (shaContextMaxSize numIter : Nat) (watch : Stopwatch) (watchdog : Nat) (d : Device)
    (ins : List Reading) (s : Saved) :
    (chip watchdog).Accepts d
        ((main b speed shaContextMaxSize numIter watch replies).exec ins s).trace ↔
      ∀ i, Reached b ins numIter i → sinceWake b replies ins i < watchdog := by
  have hloop : ∀ s', (chip watchdog).Accepts (Device.wake { d with wokenAt := none })
      ((iterate b numIter (hash b replies)).exec ins s').trace ↔
        ∀ i, Reached b ins numIter i → sinceWake b replies ins i < watchdog :=
    fun s' => (iterate_cases rfl ins s' numIter).1
  simp only [main, hmanual, if_true]
  rw [accepts_silent_bind (silent_initTrigger b), accepts_silent_bind (silent_reportI2c b speed),
    accepts_sleep_bind, accepts_silent_bind (silent_puts _)]
  cases hsave : b.saveCtx with
  | false =>
    have hhash : hash b replies = fun i => hashWithoutCtxSave teststring (replies i) i := by
      funext i
      simp [hash, hsave]
    simp only [Bool.false_eq_true, if_false]
    rw [accepts_silent_bind (silent_puts _), ataWithoutCtxSave, timed_accepts hmanual, ← hhash]
    exact hloop s
  | true =>
    have hhash : hash b replies = fun i => hashWithCtxSave teststring (replies i) := by
      funext i
      simp [hash, hsave]
    simp only [if_true]
    rw [accepts_silent_bind (silent_puts _), ataWithCtxSave, bind_exec, act_exec, andThen_some,
      List.nil_append, timed_accepts hmanual, ← hhash]
    exact hloop (freshContext shaContextMaxSize)

/-- As long as the commands of one iteration fit into the watchdog, the chip is
awake for every command exactly if the trigger wakes it, or the last command of
each iteration comes soon enough after the wake before the loop. -/
theorem commandsAwake_main_iff (hmanual : b.manualOnOff = true) (speed : I2cSpeed)
    (shaContextMaxSize numIter : Nat) (watch : Stopwatch) (watchdog : Nat)
    (hshort : ∀ i, i < numIter → hashTime b (replies i) < watchdog) (d : Device)
    (ins : List Reading) (s : Saved) :
    CommandsAwake watchdog d
        ((main b speed shaContextMaxSize numIter watch replies).exec ins s).trace ↔
      b.rewakes = true ∨
        ∀ i, Reached b ins numIter i → issueTime b replies ins i < watchdog := by
  rw [commandsAwake_iff, main_accepts hmanual]
  cases hrewakes : b.rewakes with
  | false => simp [sinceWake, hrewakes]
  | true =>
    refine ⟨fun _ => .inl rfl, fun _ i hi => ?_⟩
    have hlast : lastIssued b (replies i) ≤ hashTime b (replies i) := (issues_hash b replies i).1
    have hfits : hashTime b (replies i) < watchdog := hshort i hi.1
    simp only [sinceWake, hrewakes, if_true]
    omega

/-- Every command succeeds after 20 ms. -/
def promptReplies : Replies := fun _ _ => ⟨atcaSuccess, 20000, ⟨[], 0⟩⟩

/-- With TEST_ENERGY and NO_I2C_RECONF the trigger does not wake the chip. -/
def slowBusBuild : Build := ⟨true, true, false, true, false⟩

def timingBuild : Build := ⟨false, false, true, true, false⟩

/-- A watchdog of 1.3 s expires during a wait of 2 s, and during ten iterations
of 140 ms without any wait. -/
theorem commands_reach_sleeping_chip :
    ((∀ i, hashTime slowBusBuild (promptReplies i) < 1300000) ∧
      ¬ CommandsAwake 1300000 ⟨0, none⟩ ((main slowBusBuild .normal 99 10 ⟨0, 0⟩ promptReplies).exec
        [⟨false, 0⟩, ⟨true, 2000000⟩] ⟨[], 0⟩).trace) ∧
    ((∀ i, hashTime timingBuild (promptReplies i) < 1300000) ∧
      ¬ CommandsAwake 1300000 ⟨0, none⟩ ((main timingBuild .normal 99 10 ⟨0, 0⟩ promptReplies).exec
        [] ⟨[], 0⟩).trace) := by
  constructor
  · refine ⟨fun _ => show hashTime slowBusBuild (promptReplies 0) < 1300000 by decide, fun h => ?_⟩
    have hfirst := (main_accepts (by rfl) _ _ _ _ _ _ _ _).mp (commandsAwake_iff.mp h) 0
      ⟨by decide, fun _ => by decide⟩
    revert hfirst
    decide
  · refine ⟨fun _ => show hashTime timingBuild (promptReplies 0) < 1300000 by decide, fun h => ?_⟩
    have hlast := (main_accepts (by rfl) _ _ _ _ _ _ _ _).mp (commandsAwake_iff.mp h) 9
      ⟨by decide, fun henergy => by cases henergy⟩
    revert hlast
    decide

theorem commandsAwake_main_iff_rewaking :
    CommandsAwake 1300000 ⟨0, none⟩
        ((main ⟨true, false, false, true, false⟩ .fast 99 10 ⟨0, 0⟩ promptReplies).exec
          [⟨false, 0⟩, ⟨true, 2000000⟩] ⟨[], 0⟩).trace :=
  (commandsAwake_main_iff rfl .fast 99 10 ⟨0, 0⟩ 1300000
    (fun _ _ => show hashTime _ (promptReplies 0) < 1300000 by decide) ⟨0, none⟩
    [⟨false, 0⟩, ⟨true, 2000000⟩] ⟨[], 0⟩).mpr (.inl rfl)

end Main

end Atecc
