import EwsnCrypto.Atecc.Model
import Mathlib.Algebra.Order.BigOperators.Group.Finset

/-!
# The watchdog of the chip

A wake makes the chip awake and starts its watchdog, which no command extends;
the chip is asleep again when the watchdog expires, or after `atecc_sleep`. Time
passes in commands and between the readings of the sync pin.
-/

open InputProgram

namespace Atecc

/-- The time, and when the chip was last woken, unless it was put to sleep since. -/
structure Device where
  now : Nat
  wokenAt : Option Nat

namespace Device

def advance (d : Device) (elapsed : Nat) : Device := { d with now := d.now + elapsed }

def wake (d : Device) : Device := { d with wokenAt := some d.now }

def next (d : Device) : Event → Device
  | .syncRead r => d.advance r.elapsed
  | .command _ duration => d.advance duration
  | .ateccWake => d.wake
  | .ateccSleep => { d with wokenAt := none }
  | _ => d

def Awake (watchdog : Nat) (d : Device) : Prop :=
  ∃ woken, d.wokenAt = some woken ∧ d.now < woken + watchdog

@[simp] theorem advance_now (d : Device) (e : Nat) : (d.advance e).now = d.now + e := rfl

@[simp] theorem advance_zero (d : Device) : d.advance 0 = d := rfl

@[simp] theorem advance_advance (d : Device) (e e' : Nat) :
    (d.advance e).advance e' = d.advance (e + e') := by
  simp [advance, Nat.add_assoc]

theorem awake_iff {watchdog woken : Nat} {d : Device} (h : d.wokenAt = some woken) :
    d.Awake watchdog ↔ d.now < woken + watchdog := by
  simp [Awake, h]

end Device

/-- No command of the trace is issued while the chip is asleep. -/
def CommandsAwake (watchdog : Nat) (d : Device) (tr : List Event) : Prop :=
  ∀ pre c duration post, tr = pre ++ .command c duration :: post →
    (pre.foldl Device.next d).Awake watchdog

/-- The chip as a monitor that admits a command only while it is awake. -/
def chip (watchdog : Nat) : Monitor Device Event where
  next := Device.next
  ok d e := match e with
    | .command _ _ => d.Awake watchdog
    | _ => True
  waits _ := True

theorem commandsAwake_iff {watchdog : Nat} {d : Device} {tr : List Event} :
    CommandsAwake watchdog d tr ↔ (chip watchdog).Accepts d tr := by
  rw [Monitor.accepts_iff]
  constructor
  · intro h pre e post heq
    cases e with
    | command c duration => exact h pre c duration post heq
    | _ => exact trivial
  · intro h pre c duration post heq
    exact h pre (.command c duration) post heq

section Passing

/-- The trace has no command and leaves the chip as it is, `e` later. -/
def Passes (tr : List Event) (e : Nat) : Prop :=
  ∀ watchdog d, (chip watchdog).Accepts d tr ∧ (chip watchdog).after d tr = d.advance e

theorem passes_nil : Passes [] 0 := fun _ _ => ⟨trivial, rfl⟩

theorem passes_append {tr tr' : List Event} {e e' : Nat} (h : Passes tr e) (h' : Passes tr' e') :
    Passes (tr ++ tr') (e + e') := by
  intro watchdog d
  obtain ⟨haccepts, hafter⟩ := h watchdog d
  obtain ⟨haccepts', hafter'⟩ := h' watchdog (d.advance e)
  constructor
  · rw [Monitor.accepts_append, hafter]
    exact ⟨haccepts, haccepts'⟩
  · rw [Monitor.after_append, hafter, hafter', Device.advance_advance]

theorem passes_syncRead (r : Reading) : Passes [.syncRead r] r.elapsed :=
  fun _ _ => ⟨⟨trivial, trivial⟩, rfl⟩

/-- The events that the chip does not notice. -/
def Event.idle : Event → Bool
  | .syncRead _ | .ateccWake | .ateccSleep | .command _ _ => false
  | _ => true

theorem passes_idle {tr : List Event} (h : ∀ e ∈ tr, e.idle = true) : Passes tr 0 := by
  induction tr with
  | nil => exact passes_nil
  | cons e tr ih =>
    have htail : Passes tr 0 := ih fun e' he' => h e' (List.mem_cons_of_mem e he')
    have hhead : Passes [e] 0 := by
      have he : e.idle = true := h e List.mem_cons_self
      intro watchdog d
      cases e <;> first | exact ⟨⟨trivial, trivial⟩, rfl⟩ | cases he
    exact passes_append hhead htail

/-- A program that the chip does not notice. -/
def Silent (p : App Unit) : Prop :=
  ∀ ins s, (p.exec ins s).value = some () ∧ (p.exec ins s).rest = ins ∧
    (p.exec ins s).state = s ∧ ∀ e ∈ (p.exec ins s).trace, e.idle = true

theorem silent_pure : Silent (pure ()) := fun _ _ => by simp

theorem silent_emit {e : Event} (h : e.idle = true) : Silent (emit e) := fun _ _ => by simp [h]

theorem silent_puts (line : String) : Silent (puts line) := silent_emit rfl

theorem silent_bind {p q : App Unit} (hp : Silent p) (hq : Silent q) :
    Silent (p >>= fun _ => q) := by
  intro ins s
  obtain ⟨hvalue, hrest, hstate, hidle⟩ := hp ins s
  obtain ⟨hvalue', hrest', hstate', hidle'⟩ := hq ins s
  rw [bind_exec, andThen_of_value hvalue, hrest, hstate]
  refine ⟨hvalue', hrest', hstate', fun e he => ?_⟩
  rcases List.mem_append.mp he with he | he
  · exact hidle e he
  · exact hidle' e he

theorem silent_onlyIf {c : Bool} {p : App Unit} (h : Silent p) : Silent (onlyIf c p) := by
  cases c with
  | false => exact silent_pure
  | true => exact h

theorem silent_initTrigger (b : Build) : Silent (initTrigger b) := by
  simp only [initTrigger]
  split
  · exact silent_bind (silent_emit rfl) <| silent_bind (silent_emit rfl) <|
      silent_bind (silent_emit rfl) <| silent_bind (silent_emit rfl) (silent_emit rfl)
  · exact silent_bind (silent_emit rfl) (silent_emit rfl)

theorem silent_stopTrigger (b : Build) : Silent (stopTrigger b) := by
  simp only [stopTrigger]
  split
  · exact silent_bind (silent_emit rfl) <| silent_bind (silent_emit rfl) (silent_emit rfl)
  · exact silent_emit rfl

theorem silent_reportI2c (b : Build) (speed : I2cSpeed) : Silent (reportI2c b speed) :=
  silent_bind (silent_emit rfl) <| silent_bind (silent_emit rfl) <|
    silent_bind (silent_onlyIf (silent_emit rfl)) (silent_onlyIf (silent_emit rfl))

theorem accepts_silent_bind {p : App Unit} (hp : Silent p) (q : App Unit) {watchdog : Nat}
    {d : Device} {ins : List Reading} {s : Saved} :
    (chip watchdog).Accepts d ((p >>= fun _ => q).exec ins s).trace ↔
      (chip watchdog).Accepts d (q.exec ins s).trace := by
  obtain ⟨hvalue, hrest, hstate, hidle⟩ := hp ins s
  obtain ⟨haccepts, hafter⟩ := passes_idle hidle watchdog d
  rw [bind_exec, andThen_of_value hvalue, Monitor.accepts_append, hrest, hstate, hafter]
  simp [haccepts]

theorem accepts_sleep_bind (q : App Unit) {watchdog : Nat} {d : Device} {ins : List Reading}
    {s : Saved} :
    (chip watchdog).Accepts d ((emit .ateccSleep >>= fun _ => q).exec ins s).trace ↔
      (chip watchdog).Accepts { d with wokenAt := none } (q.exec ins s).trace :=
  ⟨fun h => h.2, fun h => ⟨trivial, h⟩⟩

end Passing

section Commands

/-- A program that reads no input and issues commands, the last of them `last`
after its start, and takes `total`. -/
def Issues (p : App Unit) (last total : Nat) : Prop :=
  last ≤ total ∧ ∀ ins s, (p.exec ins s).value = some () ∧ (p.exec ins s).rest = ins ∧
    ∀ watchdog d, (chip watchdog).after d (p.exec ins s).trace = d.advance total ∧
      ∀ woken, d.wokenAt = some woken → ((chip watchdog).Accepts d (p.exec ins s).trace ↔
        d.now + last < woken + watchdog)

theorem complaint_idle {a : Answer} {message : Event} (h : message.idle = true) :
    ∀ e ∈ complaint a message, e.idle = true := by
  intro e he
  simp only [complaint] at he
  split at he
  · rw [List.mem_singleton.mp he, h]
  · simp at he

theorem issues_command {c : Saved → Command} {next : Saved → Saved} {a : Answer} {message : Event}
    (h : message.idle = true) :
    Issues (act fun s => ((), next s, .command (c s) a.duration :: complaint a message)) 0
      a.duration := by
  refine ⟨Nat.zero_le _, fun ins s => ⟨rfl, rfl, fun watchdog d => ?_⟩⟩
  obtain ⟨haccepts, hafter⟩ :=
    passes_idle (complaint_idle (a := a) h) watchdog (d.advance a.duration)
  constructor
  · exact hafter
  · intro woken hwoken
    rw [act_exec, Monitor.accepts_cons, Nat.add_zero, ← Device.awake_iff hwoken]
    exact ⟨fun hok => hok.1, fun hok => ⟨hok, haccepts⟩⟩

theorem issues_bind {p q : App Unit} {last total last' total' : Nat} (hp : Issues p last total)
    (hq : Issues q last' total') :
    Issues (p >>= fun _ => q) (total + last') (total + total') := by
  obtain ⟨hle, hp⟩ := hp
  obtain ⟨hle', hq⟩ := hq
  refine ⟨by omega, fun ins s => ?_⟩
  obtain ⟨hvalue, hrest, hrun⟩ := hp ins s
  obtain ⟨hvalue', hrest', hrun'⟩ := hq ins (p.exec ins s).state
  rw [bind_exec, andThen_of_value hvalue, hrest]
  refine ⟨hvalue', hrest', fun watchdog d => ?_⟩
  obtain ⟨hafter, haccepts⟩ := hrun watchdog d
  obtain ⟨hafter', haccepts'⟩ := hrun' watchdog (d.advance total)
  constructor
  · rw [Monitor.after_append, hafter, hafter', Device.advance_advance]
  · intro woken hwoken
    rw [Monitor.accepts_append, hafter, haccepts woken hwoken, haccepts' woken hwoken]
    simp only [Device.advance_now]
    omega

/-- The number of commands of one iteration. -/
def Build.commands (b : Build) : Nat := if b.saveCtx then 7 else 3

/-- How long the commands of an iteration last together. -/
def hashTime (b : Build) (answers : Nat → Answer) : Nat :=
  ∑ k ∈ Finset.range b.commands, (answers k).duration

/-- When the last command of an iteration is issued, from the first one on. -/
def lastIssued (b : Build) (answers : Nat → Answer) : Nat :=
  ∑ k ∈ Finset.range (b.commands - 1), (answers k).duration

/-- The commands of iteration `i` in a build. -/
def hash (b : Build) (replies : Replies) (i : Nat) : App Unit :=
  if b.saveCtx then hashWithCtxSave teststring (replies i)
  else hashWithoutCtxSave teststring (replies i) i

theorem issues_hashWithCtxSave (message : List UInt8) (answers : Nat → Answer) :
    Issues (hashWithCtxSave message answers) (∑ k ∈ Finset.range 6, (answers k).duration)
      (∑ k ∈ Finset.range 7, (answers k).duration) := by
  have h : Issues (hashWithCtxSave message answers) _ _ :=
    issues_bind (issues_command (by rfl)) <| issues_bind (issues_command (by rfl)) <|
    issues_bind (issues_command (by rfl)) <| issues_bind (issues_command (by rfl)) <|
    issues_bind (issues_command (by rfl)) <| issues_bind (issues_command (by rfl))
    (issues_command (by rfl))
  simpa [Finset.sum_range_succ, Nat.add_assoc] using h

theorem issues_hashWithoutCtxSave (message : List UInt8) (answers : Nat → Answer) (i : Nat) :
    Issues (hashWithoutCtxSave message answers i) (∑ k ∈ Finset.range 2, (answers k).duration)
      (∑ k ∈ Finset.range 3, (answers k).duration) := by
  have h : Issues (hashWithoutCtxSave message answers i) _ _ :=
    issues_bind (issues_command (by rfl)) <| issues_bind (issues_command (by rfl))
    (issues_command (by rfl))
  simpa [Finset.sum_range_succ, Nat.add_assoc] using h

theorem issues_hash (b : Build) (replies : Replies) (i : Nat) :
    Issues (hash b replies i) (lastIssued b (replies i)) (hashTime b (replies i)) := by
  cases hsave : b.saveCtx with
  | false =>
    simp only [hash, lastIssued, hashTime, Build.commands, hsave]
    exact issues_hashWithoutCtxSave teststring (replies i) i
  | true =>
    simp only [hash, lastIssued, hashTime, Build.commands, hsave]
    exact issues_hashWithCtxSave teststring (replies i)

end Commands

section Waiting

/-- How long each wait for the sync pin takes: until it is read low and then
high again. -/
def waitsFrom (sawLow : Bool) (spent : Nat) : List Reading → List Nat
  | [] => []
  | r :: rs =>
    if sawLow && r.high then (spent + r.elapsed) :: waitsFrom false 0 rs
    else waitsFrom (sawLow || !r.high) (spent + r.elapsed) rs

def waits (ins : List Reading) : List Nat := waitsFrom false 0 ins

theorem whileSyncHigh_cases (ins : List Reading) (s : Saved) : ∃ e,
    Passes (whileSyncHigh.exec ins s).trace e ∧
    (((whileSyncHigh.exec ins s).value = none ∧ ∀ spent, waitsFrom false spent ins = []) ∨
      ((whileSyncHigh.exec ins s).value = some () ∧ ∀ spent,
        waitsFrom false spent ins =
          waitsFrom true (spent + e) (whileSyncHigh.exec ins s).rest)) := by
  induction ins with
  | nil => exact ⟨0, passes_nil, .inl ⟨rfl, fun _ => rfl⟩⟩
  | cons r rs ih =>
    by_cases hr : r.high = true
    · obtain ⟨e, hpasses, hcases⟩ := ih
      rw [whileSyncHigh, pollWhile_again hr]
      refine ⟨r.elapsed + e, passes_append (passes_syncRead r) hpasses, ?_⟩
      rcases hcases with ⟨hvalue, hwaits⟩ | ⟨hvalue, hwaits⟩
      · exact .inl ⟨hvalue, fun spent => by simp [waitsFrom, hr, hwaits]⟩
      · refine .inr ⟨hvalue, fun spent => ?_⟩
        rw [← Nat.add_assoc, ← whileSyncHigh, ← hwaits]
        simp [waitsFrom, hr]
    · rw [whileSyncHigh, pollWhile_done hr]
      exact ⟨r.elapsed, passes_syncRead r, .inr ⟨rfl, fun spent => by simp [waitsFrom, hr]⟩⟩

theorem whileSyncLow_cases (ins : List Reading) (s : Saved) : ∃ e,
    Passes (whileSyncLow.exec ins s).trace e ∧
    (((whileSyncLow.exec ins s).value = none ∧ ∀ spent, waitsFrom true spent ins = []) ∨
      ((whileSyncLow.exec ins s).value = some () ∧ ∀ spent,
        waitsFrom true spent ins = (spent + e) :: waits (whileSyncLow.exec ins s).rest)) := by
  induction ins with
  | nil => exact ⟨0, passes_nil, .inl ⟨rfl, fun _ => rfl⟩⟩
  | cons r rs ih =>
    by_cases hr : r.low = true
    · obtain ⟨e, hpasses, hcases⟩ := ih
      rw [whileSyncLow, pollWhile_again hr]
      have hlow : r.high = false := by simpa [Reading.low] using hr
      refine ⟨r.elapsed + e, passes_append (passes_syncRead r) hpasses, ?_⟩
      rcases hcases with ⟨hvalue, hwaits⟩ | ⟨hvalue, hwaits⟩
      · exact .inl ⟨hvalue, fun spent => by simp [waitsFrom, hlow, hwaits]⟩
      · refine .inr ⟨hvalue, fun spent => ?_⟩
        rw [← Nat.add_assoc, ← whileSyncLow, ← hwaits]
        simp [waitsFrom, hlow]
    · have hhigh : r.high = true := by simpa [Reading.low] using hr
      rw [whileSyncLow, pollWhile_done hr]
      exact ⟨r.elapsed, passes_syncRead r,
        .inr ⟨rfl, fun spent => by simp [waitsFrom, waits, hhigh]⟩⟩

/-- The wait at the start of a window is the next of the input, or never ends. -/
theorem sync_cases (ins : List Reading) (s : Saved) :
    ∃ e, Passes ((do whileSyncHigh; whileSyncLow : App Unit).exec ins s).trace e ∧
    ((((do whileSyncHigh; whileSyncLow : App Unit).exec ins s).value = none ∧ waits ins = []) ∨
      (((do whileSyncHigh; whileSyncLow : App Unit).exec ins s).value = some () ∧
        waits ins = e :: waits ((do whileSyncHigh; whileSyncLow : App Unit).exec ins s).rest)) := by
  obtain ⟨e, hpasses, ⟨hvalue, hwaits⟩ | ⟨hvalue, hwaits⟩⟩ := whileSyncHigh_cases ins s
  · rw [bind_exec, andThen_of_stopped hvalue]
    exact ⟨e, hpasses, .inl ⟨rfl, hwaits 0⟩⟩
  · obtain ⟨e', hpasses', hcases⟩ :=
      whileSyncLow_cases (whileSyncHigh.exec ins s).rest (whileSyncHigh.exec ins s).state
    rw [bind_exec, andThen_of_value hvalue]
    refine ⟨e + e', passes_append hpasses hpasses', ?_⟩
    rcases hcases with ⟨hvalue', hwaits'⟩ | ⟨hvalue', hwaits'⟩
    · exact .inl ⟨hvalue', by rw [waits, hwaits, hwaits']⟩
    · exact .inr ⟨hvalue', by rw [waits, hwaits, hwaits', Nat.zero_add]⟩

end Waiting

end Atecc
