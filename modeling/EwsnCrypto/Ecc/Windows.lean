import EwsnCrypto.Base.Monitor
import EwsnCrypto.Ecc.Steps
import Mathlib.Data.List.Chain

/-!
# Windows and the CryptoCell in a trace

A measurement window is open while the start pin is at the level opposite to the
one `_init_trigger` gives it, and the CryptoCell is on from an enabling to the
next disabling call. Both are read off the trace. A monitor with the last levels
as its state accepts the traces in which windows and the CryptoCell are opened
and closed in turn and are closed whenever a function returns.
-/

open InputProgram Trigger EccSteps

namespace Windows

variable {C σ : Type}

/-- What a library call has to do with the CryptoCell. -/
inductive CellRole where
  | enable
  | disable
  | use
  | other
deriving DecidableEq

def writtenLevel (p : Pin) : Event C → Option Bool
  | .gpioWrite q high => if q = p then some high else none
  | _ => none

def switchedTo (role : C → CellRole) : Event C → Option Bool
  | .call c _ => match role c with
    | .enable => some true
    | .disable => some false
    | _ => none
  | _ => none

/-- The levels written to a pin, in order. -/
def writes (p : Pin) (tr : List (Event C)) : List Bool := tr.filterMap (writtenLevel p)

def level (p : Pin) (tr : List (Event C)) : Option Bool := (writes p tr).getLast?

/-- The CryptoCell switched on (true) and off (false), in order. -/
def switches (role : C → CellRole) (tr : List (Event C)) : List Bool :=
  tr.filterMap (switchedTo role)

def CellOn (role : C → CellRole) (tr : List (Event C)) : Prop :=
  (switches role tr).getLast? = some true

/-- The level of the start pin outside windows is high with TEST_ENERGY and low
without it. -/
def WindowOpen (energy : Bool) (tr : List (Event C)) : Prop := level .active tr = some (!energy)

/-- The trigger pins are as `_init_trigger` leaves them. -/
def PinsIdle (energy : Bool) (tr : List (Event C)) : Prop :=
  level .active tr = some energy ∧ (energy = true → level .aesKey tr = some false)

/-- After a first write of the idle level windows open and close in turn, and none
is open when a function returns. -/
structure WindowsAlternate (energy : Bool) (tr : List (Event C)) : Prop where
  in_turn : (writes .active tr).IsChain (· ≠ ·)
  idle_first : ∀ high ∈ (writes .active tr).head?, high = energy
  closed_on_return : ∀ pre f post, tr = pre ++ .leave f :: post → ¬ WindowOpen energy pre

/-- The CryptoCell is switched on and off in turn, is on at every call that uses
it, and off when a function returns. -/
structure CellGuarded (role : C → CellRole) (tr : List (Event C)) : Prop where
  in_turn : (switches role tr).IsChain (· ≠ ·)
  on_first : ∀ on ∈ (switches role tr).head?, on = true
  on_in_use : ∀ pre c ok post, tr = pre ++ .call c ok :: post → role c = .use → CellOn role pre
  off_on_return : ∀ pre f post, tr = pre ++ .leave f :: post → ¬ CellOn role pre

/-- The levels of the pins and of the CryptoCell, as far as they are set. -/
structure Levels where
  active : Option Bool
  aesKey : Option Bool
  cell : Option Bool

def levels (role : C → CellRole) (tr : List (Event C)) : Levels :=
  ⟨level .active tr, level .aesKey tr, (switches role tr).getLast?⟩

/-- What may come while the levels are `s`. -/
structure MayCome (energy : Bool) (role : C → CellRole) (s : Levels) (e : Event C) : Prop where
  window : ∀ high, writtenLevel .active e = some high →
    s.active ≠ some high ∧ (s.active = none → high = energy)
  switch : ∀ on, switchedTo role e = some on → s.cell ≠ some on ∧ (s.cell = none → on = true)
  use : ∀ c ok, e = .call c ok → role c = .use → s.cell = some true
  leave : ∀ f, e = .leave f → s.active ≠ some (!energy) ∧ s.cell ≠ some true

def monitor (energy : Bool) (role : C → CellRole) : Monitor Levels (Event C) where
  next s e := ⟨(writtenLevel .active e).or s.active, (writtenLevel .aesKey e).or s.aesKey,
    (switchedTo role e).or s.cell⟩
  ok := MayCome energy role
  waits _ := True

section Soundness
variable {energy : Bool} {role : C → CellRole} {tr : List (Event C)}

theorem writes_concat (p : Pin) (e : Event C) :
    writes p (tr ++ [e]) = writes p tr ++ (writtenLevel p e).toList := by
  cases h : writtenLevel p e <;> simp [writes, h]

theorem switches_concat (e : Event C) :
    switches role (tr ++ [e]) = switches role tr ++ (switchedTo role e).toList := by
  cases h : switchedTo role e <;> simp [switches, h]

theorem getLast?_append_toList (xs : List Bool) (x : Option Bool) :
    (xs ++ x.toList).getLast? = x.or xs.getLast? := by
  cases x <;> simp

/-- The monitor's state is what the trace says of the levels. -/
theorem after_levels : (monitor energy role).after ⟨none, none, none⟩ tr = levels role tr := by
  induction tr using List.reverseRecOn with
  | nil => rfl
  | append_singleton tr e ih =>
    rw [Monitor.after_append, ih]
    simp only [Monitor.after_cons, Monitor.after_nil, monitor, levels, level, writes_concat,
      switches_concat, getLast?_append_toList]

/-- Appending a level other than the last keeps a list alternating. -/
theorem alternating_concat {xs : List Bool} {x : Option Bool} (h : xs.IsChain (· ≠ ·))
    (hx : ∀ y, x = some y → xs.getLast? ≠ some y) : (xs ++ x.toList).IsChain (· ≠ ·) := by
  cases x with
  | none => simpa using h
  | some x =>
    refine h.append (List.isChain_singleton x) ?_
    rintro y hy z hz rfl
    obtain rfl : x = y := by simpa using hz
    exact hx x rfl hy

theorem head?_concat {xs : List Bool} {x : Option Bool} {b : Bool} (h : ∀ y ∈ xs.head?, y = b)
    (hx : ∀ y, x = some y → xs.getLast? = none → y = b) : ∀ y ∈ (xs ++ x.toList).head?, y = b := by
  cases xs with
  | nil =>
    cases x with
    | none => simp
    | some x => simpa using hx x rfl rfl
  | cons a xs => simpa using h

theorem windowsAlternate_of_accepts
    (h : (monitor energy role).Accepts ⟨none, none, none⟩ tr) : WindowsAlternate energy tr := by
  have hturns : (writes .active tr).IsChain (· ≠ ·) ∧
      ∀ high ∈ (writes .active tr).head?, high = energy := by
    refine h.induction (fun tr => (writes .active tr).IsChain (· ≠ ·) ∧
      ∀ high ∈ (writes .active tr).head?, high = energy) ⟨.nil, by simp [writes]⟩ ?_
    rintro tr e ⟨hchain, hfirst⟩ hok
    rw [after_levels] at hok
    rw [writes_concat]
    exact ⟨alternating_concat hchain fun high hhigh => (hok.window high hhigh).1,
      head?_concat hfirst fun high hhigh => (hok.window high hhigh).2⟩
  constructor
  · exact hturns.1
  · exact hturns.2
  · intro pre f post heq
    have hok := h.split heq
    rw [after_levels] at hok
    exact (hok.leave f rfl).1

theorem cellGuarded_of_accepts
    (h : (monitor energy role).Accepts ⟨none, none, none⟩ tr) : CellGuarded role tr := by
  have hturns : (switches role tr).IsChain (· ≠ ·) ∧
      ∀ on ∈ (switches role tr).head?, on = true := by
    refine h.induction (fun tr => (switches role tr).IsChain (· ≠ ·) ∧
      ∀ on ∈ (switches role tr).head?, on = true) ⟨.nil, by simp [switches]⟩ ?_
    rintro tr e ⟨hchain, hfirst⟩ hok
    rw [after_levels] at hok
    rw [switches_concat]
    exact ⟨alternating_concat hchain fun on hon => (hok.switch on hon).1,
      head?_concat hfirst fun on hon => (hok.switch on hon).2⟩
  constructor
  · exact hturns.1
  · exact hturns.2
  · intro pre c ok post heq huse
    have hok := h.split heq
    rw [after_levels] at hok
    exact hok.use c ok rfl huse
  · intro pre f post heq
    have hok := h.split heq
    rw [after_levels] at hok
    exact (hok.leave f rfl).2

end Soundness

/-- The pins have these levels and the CryptoCell is off. -/
def Pins (active aesKey : Option Bool) (s : Levels) : Prop :=
  s.active = active ∧ s.aesKey = aesKey ∧ s.cell ≠ some true

/-- The pins have these levels and the CryptoCell is on. -/
def PinsOn (active aesKey : Option Bool) (s : Levels) : Prop :=
  s.active = active ∧ s.aesKey = aesKey ∧ s.cell = some true

/-- Outside windows: the pins are idle, or untouched where nothing is measured. -/
def Rest (triggered energy : Bool) : Levels → Prop :=
  Pins (if triggered then some energy else none) (if triggered && energy then some false else none)

/-- Inside a window. -/
def Opened (energy : Bool) : Levels → Prop :=
  Pins (some (!energy)) (if energy then some false else none)

/-- The events that the monitor lets pass in every state. -/
def Neutral (role : C → CellRole) : Event C → Prop
  | .gpioWrite _ _ | .leave _ => False
  | .call c _ => role c = .other
  | _ => True

/-- Whatever the levels of the pins, `p` leaves them alone, and it is to be
started and left with the CryptoCell off. -/
structure Steady {α : Type} (energy : Bool) (role : C → CellRole) (p : App C σ α) : Prop where
  quiet : Quiet p
  follows : ∀ active aesKey,
    Follows (monitor energy role) (Pins active aesKey) p (Pins active aesKey)

section Steps
variable {energy : Bool} {role : C → CellRole} {α β ρ : Type} {s : Levels}

theorem Neutral.next {e : Event C} (h : Neutral role e) : (monitor energy role).next s e = s := by
  cases e with
  | call c ok =>
    have hrole : role c = .other := h
    simp [monitor, writtenLevel, switchedTo, hrole]
  | gpioWrite p high => exact False.elim h
  | leave f => exact False.elim h
  | _ => rfl

theorem Neutral.ok {e : Event C} (h : Neutral role e) : (monitor energy role).ok s e := by
  cases e with
  | call c ok =>
    have hrole : role c = .other := h
    constructor
    · simp [writtenLevel]
    · simp [switchedTo, hrole]
    · rintro c' ok' heq huse
      obtain ⟨rfl, rfl⟩ := Event.call.inj heq
      simp [hrole] at huse
    · simp
  | gpioWrite p high => exact False.elim h
  | leave f => exact False.elim h
  | _ => constructor <;> simp [writtenLevel, switchedTo]

theorem steady_pure (a : α) : Steady energy role (pure a : App C σ α) :=
  ⟨.pure a, fun _ _ => follows_pure a⟩

theorem neutral_run {tr : List (Event C)} (h : ∀ e ∈ tr, Neutral role e) :
    (monitor energy role).Accepts s tr ∧ (monitor energy role).after s tr = s := by
  induction tr with
  | nil => exact ⟨trivial, rfl⟩
  | cons e tr ih =>
    obtain ⟨hhead, htail⟩ := List.forall_mem_cons.mp h
    obtain ⟨haccepts, hafter⟩ := ih htail
    rw [Monitor.accepts_cons, Monitor.after_cons, hhead.next]
    exact ⟨⟨hhead.ok, haccepts⟩, hafter⟩

theorem follows_neutral {f : σ → α × σ × List (Event C)} {I : Levels → Prop}
    (h : ∀ m, ∀ e ∈ (f m).2.2, Neutral role e) :
    Follows (monitor energy role) I (act f : App C σ α) I := by
  refine follows_act fun s hs m => ?_
  obtain ⟨haccepts, hafter⟩ := neutral_run (h m)
  rw [hafter]
  exact ⟨haccepts, hs⟩

theorem steady_act {f : σ → α × σ × List (Event C)}
    (h : ∀ m, ∀ e ∈ (f m).2.2, Neutral role e ∧ visible e = true) : Steady energy role (act f) :=
  ⟨.act fun m e he => (h m e he).2, fun _ _ => follows_neutral fun m e he => (h m e he).1⟩

/-- A step of which nothing shows. -/
theorem steady_silent {f : σ → α × σ × List (Event C)} (h : ∀ m, (f m).2.2 = []) :
    Steady energy role (act f) :=
  steady_act fun m e he => by
    rw [h m] at he
    exact False.elim (List.not_mem_nil he)

theorem steady_emit {e : Event C} (h : Neutral role e) (hvisible : visible e = true) :
    Steady energy role (emit e : App C σ Unit) :=
  steady_act fun _ e' he' => by
    rw [List.mem_singleton.mp he']
    exact ⟨h, hvisible⟩

theorem steady_puts (line : String) : Steady energy role (puts line : App C σ Unit) :=
  steady_emit trivial rfl

theorem steady_printf (format : String) (arg : Nat) :
    Steady energy role (printf format arg : App C σ Unit) := steady_emit trivial rfl

theorem steady_diag (format : String) : Steady energy role (diag format : App C σ Unit) :=
  steady_emit trivial rfl

theorem steady_print (report : Report) (code : Nat) :
    Steady energy role (report.print code : App C σ Unit) := by
  simp only [Report.print, Report.event]
  split
  · exact steady_emit trivial rfl
  · exact steady_emit trivial rfl

/-- A call that has nothing to do with the CryptoCell. -/
theorem steady_plainCall {c : C} (hc : role c = .other) :
    Steady energy role (plainCall c : App C σ Unit) := steady_emit hc rfl

theorem Steady.bind {p : App C σ α} {f : α → App C σ β} (hp : Steady energy role p)
    (hf : ∀ a, Steady energy role (f a)) : Steady energy role (p >>= f) :=
  ⟨.bind hp.quiet fun a => (hf a).quiet, fun active aesKey =>
    follows_bind (hp.follows active aesKey) fun a => (hf a).follows active aesKey⟩

theorem steady_forM {γ : Type} {xs : List γ} {f : γ → App C σ Unit}
    (h : ∀ x ∈ xs, Steady energy role (f x)) : Steady energy role (xs.forM f) := by
  induction xs with
  | nil => exact steady_pure ()
  | cons x xs ih =>
    exact (h x List.mem_cons_self).bind fun _ => ih fun y hy => h y (List.mem_cons_of_mem x hy)

theorem steady_libCall {c : σ → C} {reply : σ → Except Nat ρ} {store : ρ → σ → σ}
    (hc : ∀ m, role (c m) = .other) : Steady energy role (libCall c reply store) := by
  refine ⟨quiet_libCall, fun _ _ => follows_neutral fun m e he => ?_⟩
  obtain ⟨ok, rfl⟩ := mem_libCall_trace he
  exact hc m

theorem mayCome_call {c : C} {ok : Bool} (hswitch : ∀ on,
    switchedTo role (.call c ok) = some on → s.cell ≠ some on ∧ (s.cell = none → on = true))
    (huse : role c = .use → s.cell = some true) : MayCome energy role s (.call c ok) := by
  constructor
  · simp [writtenLevel]
  · exact hswitch
  · rintro c' ok' heq
    obtain ⟨rfl, rfl⟩ := Event.call.inj heq
    exact huse
  · simp

theorem follows_enable {c : C} {active aesKey : Option Bool} (hc : role c = .enable) :
    Follows (monitor energy role) (Pins active aesKey) (plainCall c : App C σ Unit)
      (PinsOn active aesKey) := by
  refine follows_emit fun s hs => ?_
  obtain ⟨hactive, haesKey, hcell⟩ := hs
  constructor
  · refine mayCome_call (fun on hon => ?_) (by simp [hc])
    obtain rfl : true = on := by simpa [switchedTo, hc] using hon
    exact ⟨hcell, fun _ => rfl⟩
  · exact ⟨hactive, haesKey, by simp [monitor, switchedTo, hc]⟩

theorem follows_disable {c : C} {active aesKey : Option Bool} (hc : role c = .disable) :
    Follows (monitor energy role) (PinsOn active aesKey) (plainCall c : App C σ Unit)
      (Pins active aesKey) := by
  refine follows_emit fun s hs => ?_
  obtain ⟨hactive, haesKey, hcell⟩ := hs
  constructor
  · refine mayCome_call (fun on hon => ?_) (by simp [hc])
    obtain rfl : false = on := by simpa [switchedTo, hc] using hon
    simp [hcell]
  · exact ⟨hactive, haesKey, by simp [monitor, switchedTo, hc]⟩

/-- A library call that needs the CryptoCell. -/
theorem follows_use {c : σ → C} {reply : σ → Except Nat ρ} {store : ρ → σ → σ}
    {active aesKey : Option Bool} (hc : ∀ m, role (c m) = .use) :
    Follows (monitor energy role) (PinsOn active aesKey) (libCall c reply store)
      (PinsOn active aesKey) := by
  refine follows_act fun s hs m => ?_
  have hcall (ok : Bool) : MayCome energy role s (.call (c m) ok) :=
    mayCome_call (by simp [switchedTo, hc m]) fun _ => hs.2.2
  have hnext (ok : Bool) : (monitor energy role).next s (.call (c m) ok) = s := by
    simp [monitor, writtenLevel, switchedTo, hc m]
  cases reply m with
  | ok r => exact ⟨⟨hcall true, trivial⟩, by simpa [hnext] using hs⟩
  | error code => exact ⟨⟨hcall false, trivial⟩, by simpa [hnext] using hs⟩

theorem steady_enclosed {enable disable : C} {p : App C σ α} (henable : role enable = .enable)
    (hdisable : role disable = .disable) (hquiet : Quiet p)
    (hp : ∀ active aesKey, Follows (monitor energy role) (PinsOn active aesKey) p
      (PinsOn active aesKey)) : Steady energy role (enclosed enable disable p) := by
  constructor
  · exact .bind (.emit rfl) fun _ => .bind hquiet fun r => .bind (.emit rfl) fun _ => .pure r
  · intro active aesKey
    exact follows_bind (follows_enable henable) fun _ => follows_bind (hp active aesKey) fun r =>
      follows_bind (follows_disable hdisable) fun _ => follows_pure r

/-- A write of the start pin to the level it does not have. -/
theorem follows_write {high : Bool} {active aesKey : Option Bool} (hne : active ≠ some high)
    (hfirst : active = none → high = energy) :
    Follows (monitor energy role) (Pins active aesKey)
      (emit (.gpioWrite .active high) : App C σ Unit) (Pins (some high) aesKey) := by
  refine follows_emit fun s hs => ?_
  obtain ⟨rfl, haesKey, hcell⟩ := hs
  constructor
  · constructor
    · intro high' hhigh
      obtain rfl : high = high' := by simpa [writtenLevel] using hhigh
      exact ⟨hne, hfirst⟩
    · simp [switchedTo]
    · simp
    · simp
  · exact ⟨rfl, haesKey, hcell⟩

theorem follows_writeAesKey {high : Bool} {active aesKey : Option Bool} :
    Follows (monitor energy role) (Pins active aesKey)
      (emit (.gpioWrite .aesKey high) : App C σ Unit) (Pins active (some high)) := by
  refine follows_emit fun s hs => ?_
  obtain ⟨hactive, _, hcell⟩ := hs
  constructor
  · constructor <;> simp [writtenLevel, switchedTo]
  · exact ⟨hactive, rfl, hcell⟩

theorem follows_pollSync (again : Bool → Bool) {I : Levels → Prop} :
    Follows (monitor energy role) I (pollWhile again (.gpioRead .sync) : App C σ Unit) I := by
  have hneutral (high : Bool) : Neutral role (.gpioRead .sync high : Event C) := trivial
  refine follows_pollWhile (fun _ _ => trivial) (fun s i _ => (hneutral i).ok) ?_ ?_
  · intro s i hs _
    rwa [(hneutral i).next]
  · intro s i hs _
    rwa [(hneutral i).next]

section Trigger
variable {b : Build}

theorem follows_initTrigger : Follows (monitor b.testEnergy role) (Rest false b.testEnergy)
    (initTrigger b : App C σ Unit) (Rest true b.testEnergy) := by
  have hinit (p : Pin) (mode : PinMode) (I : Levels → Prop) :
      Follows (monitor b.testEnergy role) I (gpioInit p mode : App C σ Unit) I :=
    follows_neutral fun _ e he => by rw [List.mem_singleton.mp he]; trivial
  cases hb : b.testEnergy with
  | false =>
    simp only [initTrigger, hb, Bool.false_eq_true, if_false]
    rw [hb] at hinit
    exact follows_bind (hinit _ _ _) fun _ => follows_write (by simp) fun _ => rfl
  | true =>
    simp only [initTrigger, hb, if_true]
    rw [hb] at hinit
    exact follows_bind (hinit _ _ _) fun _ => follows_bind (hinit _ _ _) fun _ =>
      follows_bind (hinit _ _ _) fun _ =>
      follows_bind (follows_write (by simp) fun _ => rfl) fun _ => follows_writeAesKey

theorem follows_startTrigger : Follows (monitor b.testEnergy role) (Rest true b.testEnergy)
    (startTrigger b : App C σ Unit) (Opened b.testEnergy) := by
  cases hb : b.testEnergy with
  | false =>
    simp only [startTrigger, hb, Bool.false_eq_true, if_false]
    exact follows_write (by simp) (by simp)
  | true =>
    simp only [startTrigger, hb, if_true]
    exact follows_bind (follows_pollSync id) fun _ =>
      follows_bind (follows_pollSync not) fun _ => follows_write (by simp) (by simp)

theorem follows_stopTrigger : Follows (monitor b.testEnergy role) (Opened b.testEnergy)
    (stopTrigger b : App C σ Unit) (Rest true b.testEnergy) := by
  cases hb : b.testEnergy with
  | false =>
    simp only [stopTrigger, hb, Bool.false_eq_true, if_false]
    exact follows_write (by simp) (by simp)
  | true =>
    simp only [stopTrigger, hb, if_true]
    exact follows_bind follows_writeAesKey fun _ =>
      follows_bind (follows_write (by simp) (by simp)) fun _ => follows_writeAesKey

theorem follows_measured {p : App C σ α} (hp : Steady b.testEnergy role p) :
    Follows (monitor b.testEnergy role) (Rest true b.testEnergy) (measured b p)
      (Rest true b.testEnergy) :=
  follows_bind follows_startTrigger fun _ => follows_bind (hp.follows _ _) fun r =>
    follows_bind follows_stopTrigger fun _ => follows_pure r

/-- Functions return at rest. -/
theorem follows_func {pre : Levels → Prop} {triggered : Bool} {f : Fn} {body : App C σ Unit}
    (h : Follows (monitor energy role) pre body (Rest triggered energy)) :
    Follows (monitor energy role) pre (func f body) (Rest triggered energy) := by
  refine follows_bind h fun _ => follows_emit fun s hs => ⟨?_, hs⟩
  obtain ⟨hactive, _, hcell⟩ := hs
  constructor
  · simp [writtenLevel]
  · simp [switchedTo]
  · simp
  · intro _ _
    refine ⟨?_, hcell⟩
    rw [hactive]
    cases triggered <;> simp

/-- The programs whose windows each enclose one steady step. -/
inductive Windowed (b : Build) (triggered : Bool) (role : C → CellRole) :
    {α : Type} → App C σ α → Prop
  | steady {α : Type} {p : App C σ α} (h : Steady b.testEnergy role p) : Windowed b triggered role p
  | measured {α : Type} {p : App C σ α} (htriggered : triggered = true)
      (h : Steady b.testEnergy role p) : Windowed b triggered role (measured b p)
  | bind {α β : Type} {p : App C σ α} {f : α → App C σ β} (hp : Windowed b triggered role p)
      (hf : ∀ a, Windowed b triggered role (f a)) : Windowed b triggered role (p >>= f)
  | func {f : Fn} {body : App C σ Unit} (h : Windowed b triggered role body) :
      Windowed b triggered role (func f body)

namespace Windowed
variable {triggered : Bool}

/-- Windows and the CryptoCell are opened and closed in turn. -/
theorem follows {p : App C σ α} (h : Windowed b triggered role p) :
    Follows (monitor b.testEnergy role) (Rest triggered b.testEnergy) p
      (Rest triggered b.testEnergy) := by
  induction h with
  | steady h => exact h.follows _ _
  | measured htriggered h =>
    subst htriggered
    exact follows_measured h
  | bind _ _ hp hf => exact follows_bind hp hf
  | func _ h => exact follows_func h

theorem pure (a : α) : Windowed b triggered role (Pure.pure a : App C σ α) :=
  .steady (steady_pure a)

theorem forRange {n : Nat} {body : Nat → App C σ Unit}
    (h : ∀ i, Windowed b triggered role (body i)) :
    Windowed b triggered role (InputProgram.forRange n body) := by
  induction n with
  | zero => exact pure ()
  | succ n ih => exact bind ih fun _ => h n

theorem forM {γ : Type} {xs : List γ} {f : γ → App C σ Unit}
    (h : ∀ x ∈ xs, Windowed b triggered role (f x)) : Windowed b triggered role (xs.forM f) := by
  induction xs with
  | nil => exact pure ()
  | cons x xs ih =>
    exact bind (h x List.mem_cons_self) fun _ => ih fun y hy => h y (List.mem_cons_of_mem x hy)

theorem onlyIf {c : Bool} {p : App C σ Unit} (h : Windowed b triggered role p) :
    Windowed b triggered role (InputProgram.onlyIf c p) := by
  cases c with
  | false => exact pure ()
  | true => exact h

theorem checkedPair {first second : App C σ (Except Nat ρ)}
    {failed1 failed2 : Nat → App C σ Unit} {finish : App C σ Unit} (htriggered : triggered = true)
    (hfirst : Steady b.testEnergy role first)
    (hfailed1 : ∀ code, Steady b.testEnergy role (failed1 code))
    (hsecond : Steady b.testEnergy role second)
    (hfailed2 : ∀ code, Steady b.testEnergy role (failed2 code))
    (hfinish : Steady b.testEnergy role finish) :
    Windowed b triggered role (checkedPair b first failed1 second failed2 finish) := by
  refine bind (measured htriggered hfirst) fun r => ?_
  cases r with
  | error code => exact steady (hfailed1 code)
  | ok _ =>
    refine bind (steady hsecond) fun r => ?_
    cases r with
    | error code => exact steady (hfailed2 code)
    | ok _ => exact steady hfinish

end Windowed

end Trigger

end Steps

end Windows
