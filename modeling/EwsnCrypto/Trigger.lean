import EwsnCrypto.Base.ProgramLogic

/-!
# Pins, events and the measurement trigger

The three trigger functions are the same text in all eight applications of
section 6. With TEST_ENERGY a window is the time the start pin is low, and it
opens on a pulse of the sync pin; without it the start pin is high in a window.
The inputs of a program are the successive readings of the sync pin.
-/

open InputProgram

namespace Trigger

/-- `active_gpio`, `gpio_aes_key` and `gpio_sync_pin`. -/
inductive Pin where
  | active
  | aesKey
  | sync
deriving DecidableEq

inductive PinMode where
  | input
  | output
deriving DecidableEq

/-- The build macros. COSY_TEST occurs in one application only. -/
structure Build where
  testMem : Bool
  testStack : Bool
  cosyTest : Bool
  testEnergy : Bool
deriving DecidableEq

/-- The measured build, `!defined(TEST_MEM) && !defined(TEST_STACK)`. -/
def Build.isMeasured (b : Build) : Bool := !b.testMem && !b.testStack

def Build.measured (energy : Bool) : Build := ⟨false, false, false, energy⟩

/-- The application functions whose returns the trace records. -/
inductive Fn where
  | initCurve
  | genKeypair
  | deriveSharedSecret
  | signVerify
  | main
deriving DecidableEq

/-- What a run shows: pin accesses, library calls with their success, printed
lines, and the returns of the application's own functions. A `diag` line prints
figures of the build, such as `sizeof` or the stack use. -/
inductive Event (C : Type) where
  | gpioInit (p : Pin) (mode : PinMode)
  | gpioWrite (p : Pin) (high : Bool)
  | gpioRead (p : Pin) (high : Bool)
  | call (c : C) (ok : Bool)
  | puts (line : String)
  | printf (format : String) (arg : Nat)
  | diag (format : String)
  | led0On
  | leave (f : Fn)
deriving DecidableEq

/-- A program of an application with calls `C` and memory `σ`. -/
abbrev App (C σ α : Type) : Type := Prog Bool (Event C) σ α

variable {C σ α : Type}

def gpioInit (p : Pin) (mode : PinMode) : App C σ Unit := emit (.gpioInit p mode)

def gpioSet (p : Pin) : App C σ Unit := emit (.gpioWrite p true)

def gpioClear (p : Pin) : App C σ Unit := emit (.gpioWrite p false)

def puts (line : String) : App C σ Unit := emit (.puts line)

def printf (format : String) (arg : Nat) : App C σ Unit := emit (.printf format arg)

def diag (format : String) : App C σ Unit := emit (.diag format)

/-- `while (gpio_read(gpio_sync_pin)) {};` -/
def whileSyncHigh : App C σ Unit := pollWhile id (.gpioRead .sync)

/-- `while (!gpio_read(gpio_sync_pin)) {};` -/
def whileSyncLow : App C σ Unit := pollWhile not (.gpioRead .sync)

def initTrigger (b : Build) : App C σ Unit := do
  if b.testEnergy then
    gpioInit .active .output
    gpioInit .aesKey .output
    gpioInit .sync .input
    gpioSet .active
    gpioClear .aesKey
  else
    gpioInit .active .output
    gpioClear .active

def startTrigger (b : Build) : App C σ Unit := do
  if b.testEnergy then
    whileSyncHigh
    whileSyncLow
    gpioClear .active
  else
    gpioSet .active

def stopTrigger (b : Build) : App C σ Unit := do
  if b.testEnergy then
    gpioSet .aesKey
    gpioSet .active
    gpioClear .aesKey
  else
    gpioClear .active

/-- A function body, followed by the record of its return. -/
def func (f : Fn) (body : App C σ Unit) : App C σ Unit := do
  body
  emit (.leave f)

/-- The events that do not belong to the measurement: calls, lines, returns. -/
def visible : Event C → Bool
  | .gpioInit _ _ | .gpioWrite _ _ | .gpioRead _ _ => false
  | _ => true

@[simp] theorem visible_gpioInit (p : Pin) (mode : PinMode) :
    visible (.gpioInit p mode : Event C) = false := rfl

@[simp] theorem visible_gpioWrite (p : Pin) (high : Bool) :
    visible (.gpioWrite p high : Event C) = false := rfl

@[simp] theorem visible_gpioRead (p : Pin) (high : Bool) :
    visible (.gpioRead p high : Event C) = false := rfl

@[simp] theorem visible_call (c : C) (ok : Bool) : visible (.call c ok) = true := rfl

@[simp] theorem visible_puts (line : String) : visible (.puts line : Event C) = true := rfl

@[simp] theorem visible_printf (format : String) (arg : Nat) :
    visible (.printf format arg : Event C) = true := rfl

@[simp] theorem visible_diag (format : String) : visible (.diag format : Event C) = true := rfl

@[simp] theorem visible_leave (f : Fn) : visible (.leave f : Event C) = true := rfl

section Kept
variable {P : Event C → Prop} (hpins : ∀ e, visible e = false → P e)
include hpins

theorem keeps_startTrigger (b : Build) {Q : Unit → σ → Prop} {m : σ} (hQ : Q () m) :
    Keeps P (startTrigger b) Q m := by
  cases hb : b.testEnergy with
  | false =>
    simp only [startTrigger, hb, Bool.false_eq_true, if_false]
    exact keeps_emit (hpins _ rfl) hQ
  | true =>
    simp only [startTrigger, hb, if_true]
    exact keeps_bind (keeps_pollWhile (fun _ => hpins _ rfl)
      (keeps_bind (keeps_pollWhile (fun _ => hpins _ rfl) (keeps_emit (hpins _ rfl) hQ))))

theorem keeps_stopTrigger (b : Build) {Q : Unit → σ → Prop} {m : σ} (hQ : Q () m) :
    Keeps P (stopTrigger b) Q m := by
  cases hb : b.testEnergy with
  | false =>
    simp only [stopTrigger, hb, Bool.false_eq_true, if_false]
    exact keeps_emit (hpins _ rfl) hQ
  | true =>
    simp only [stopTrigger, hb, if_true]
    exact keeps_bind (keeps_emit (hpins _ rfl) (keeps_bind (keeps_emit (hpins _ rfl)
      (keeps_emit (hpins _ rfl) hQ))))

theorem emits_initTrigger (b : Build) : Emits P (initTrigger b : App C σ Unit) := by
  cases hb : b.testEnergy with
  | false =>
    simp only [initTrigger, hb, Bool.false_eq_true, if_false]
    exact .bind (.emit (hpins _ rfl)) fun _ => .emit (hpins _ rfl)
  | true =>
    simp only [initTrigger, hb, if_true]
    exact .bind (.emit (hpins _ rfl)) fun _ => .bind (.emit (hpins _ rfl)) fun _ =>
      .bind (.emit (hpins _ rfl)) fun _ => .bind (.emit (hpins _ rfl)) fun _ =>
      .emit (hpins _ rfl)

end Kept

theorem emits_func {P : Event C → Prop} {f : Fn} {body : App C σ Unit} (hbody : Emits P body)
    (hleave : P (.leave f)) : Emits P (func f body) := .bind hbody fun _ => .emit hleave

/-- One pulse on the sync pin opens the window. -/
theorem startTrigger_finishes (b : Build) : Finishes (startTrigger b : App C σ Unit) := by
  cases hb : b.testEnergy with
  | false =>
    simp only [startTrigger, hb, Bool.false_eq_true, if_false]
    exact .emit _
  | true =>
    simp only [startTrigger, hb, if_true]
    have hlow : ¬ id false = true := by decide
    have hhigh : ¬ (!true) = true := by decide
    exact .bind (.pollWhile hlow _) fun _ => .bind (.pollWhile hhigh _) fun _ => .emit _

theorem stopTrigger_finishes (b : Build) : Finishes (stopTrigger b : App C σ Unit) := by
  simp only [stopTrigger]
  split
  · exact .bind (.emit _) fun _ => .bind (.emit _) fun _ => .emit _
  · exact .emit _

theorem initTrigger_finishes (b : Build) : Finishes (initTrigger b : App C σ Unit) := by
  simp only [initTrigger]
  split
  · exact .bind (.emit _) fun _ => .bind (.emit _) fun _ => .bind (.emit _) fun _ =>
      .bind (.emit _) fun _ => .emit _
  · exact .bind (.emit _) fun _ => .emit _

theorem func_finishes {f : Fn} {body : App C σ Unit} (h : Finishes body) :
    Finishes (func f body) := .bind h fun _ => .emit _

/-- A program that leaves the pins alone and always finishes. -/
structure Quiet (p : App C σ α) : Prop where
  visible : ∀ ins st, ∀ e ∈ (p.exec ins st).trace, visible e = true
  rest : ∀ ins st, (p.exec ins st).rest = ins
  finishes : ∀ ins st, ∃ a, (p.exec ins st).value = some a

namespace Quiet
variable {β : Type}

theorem pure (a : α) : Quiet (Pure.pure a : App C σ α) :=
  ⟨fun _ _ => by simp, fun _ _ => rfl, fun _ _ => ⟨a, rfl⟩⟩

theorem act {f : σ → α × σ × List (Event C)}
    (h : ∀ st, ∀ e ∈ (f st).2.2, Trigger.visible e = true) :
    Quiet (InputProgram.act f : App C σ α) :=
  ⟨fun _ st => h st, fun _ _ => rfl, fun _ st => ⟨(f st).1, rfl⟩⟩

theorem emit {e : Event C} (h : Trigger.visible e = true) :
    Quiet (InputProgram.emit e : App C σ Unit) :=
  act fun _ e' he' => by rwa [List.mem_singleton.mp he']

theorem bind {p : App C σ α} {f : α → App C σ β} (hp : Quiet p) (hf : ∀ a, Quiet (f a)) :
    Quiet (p >>= f) := by
  have hexec (ins : List Bool) (st : σ) : ∃ a, (p >>= f).exec ins st =
      ⟨(p.exec ins st).trace ++ ((f a).exec ins (p.exec ins st).state).trace,
        ((f a).exec ins (p.exec ins st).state).state, ((f a).exec ins (p.exec ins st).state).rest,
        ((f a).exec ins (p.exec ins st).state).value⟩ := by
    obtain ⟨a, ha⟩ := hp.finishes ins st
    refine ⟨a, ?_⟩
    rw [bind_exec, andThen_of_value ha, hp.rest]
  constructor
  · intro ins st e he
    obtain ⟨a, ha⟩ := hexec ins st
    rw [ha] at he
    rcases List.mem_append.mp he with hfirst | hnext
    · exact hp.visible _ _ e hfirst
    · exact (hf a).visible _ _ e hnext
  · intro ins st
    obtain ⟨a, ha⟩ := hexec ins st
    rw [ha]
    exact (hf a).rest _ _
  · intro ins st
    obtain ⟨a, ha⟩ := hexec ins st
    rw [ha]
    exact (hf a).finishes _ _

theorem onlyIf {c : Bool} {p : App C σ Unit} (h : Quiet p) : Quiet (InputProgram.onlyIf c p) := by
  cases c with
  | false => exact pure ()
  | true => exact h

end Quiet

end Trigger
