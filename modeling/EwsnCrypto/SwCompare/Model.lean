import EwsnCrypto.Base.SharedStore

/-!
# The software comparison applications of section 4

Both programs measure the enabled libraries one after another. The libraries write
to the same output buffers, which are checked behind each of them, and the status
of every call is dropped. The inputs are the readings of the timer.
-/

open InputProgram SharedStore

namespace SwCompare

inductive Library where
  | riot
  | relic
  | tinycrypt
  | wolfssl
  | cifra
deriving DecidableEq

/-- The order of the program. -/
def Library.all : List Library := [.riot, .relic, .tinycrypt, .wolfssl, .cifra]

/-- The line before the measurements of a library. -/
def Library.name : Library → String
  | .riot => "RIOT"
  | .relic => "RELIC"
  | .tinycrypt => "TINYCRYPT"
  | .wolfssl => "WOLFSSL"
  | .cifra => "CIFRA"

/-- The build macros. `enabled` stands for the TEST_* options of the libraries,
which the Makefiles let be set in any combination. The pins are declared where the timer
is not used, so no build has both. -/
structure Build where
  useXtimer : Bool
  modeGpio : Bool
  testStack : Bool
  testTim : Bool
  enabled : Library → Bool
  compiles : (useXtimer && modeGpio) = false

def Build.libraries (b : Build) : List Library := Library.all.filter b.enabled

/-- The build that enables one library alone. -/
def Build.only (b : Build) (l : Library) : Build := { b with enabled := fun k => k = l }

/-- What a run shows. A `diag` line prints the size of a context. -/
inductive Event (C : Type) where
  | gpioInit
  | gpioWrite (high : Bool)
  | xtimerNow (usec : UInt32)
  | call (c : C)
  | puts (line : String)
  | printf (format : String) (args : List Nat)
  | diag (format : String)
  | ps
deriving DecidableEq

/-- `start` and `stop`, and the output buffers of `main`. -/
structure Memory (B : Type) where
  start : UInt32
  stop : UInt32
  buffers : B

abbrev App (C B α : Type) : Type := Prog UInt32 (Event C) (Memory B) α

variable {C B : Type}

def startMeas (b : Build) : App C B Unit :=
  if b.useXtimer then do
    let now ← readNext .xtimerNow
    act fun m => ((), { m with start := now }, [])
  else onlyIf b.modeGpio (emit (.gpioWrite true))

def stopMeas (b : Build) : App C B Unit := do
  if b.useXtimer then
    let now ← readNext .xtimerNow
    act fun m => ((), { m with stop := now, start := 0 },
      [.printf "%u\n" [(now - m.start).toNat]])
  else onlyIf b.modeGpio (emit (.gpioWrite false))
  onlyIf b.testStack (emit .ps)

/-- A call, and what it does to the buffers. -/
structure Step (C B : Type) where
  call : C
  effect : B → B

/-- A call that does not write to the buffers. -/
def Step.plain (c : C) : Step C B := ⟨c, id⟩

def Step.run (s : Step C B) : App C B Unit :=
  act fun m => ((), { m with buffers := s.effect m.buffers }, [.call s.call])

/-- The printed lines that are no figures. -/
def lineOf : Event C → Option String
  | .puts line => some line
  | .printf format _ => if format = "ERROR\n" then some "ERROR" else none
  | _ => none

/-- The block of one library: the contexts whose size TEST_TIM prints, the calls
around the measurements, the calls inside each of them, and the line printed when
the check fails. -/
structure Block (C B : Type) where
  contexts : List String
  setup : List C
  phases : List (List (Step C B))
  cleanup : List C
  error : Event C
  closing : List C
  error_line : lineOf error = some "ERROR"

def Block.phase (b : Build) (steps : List (Step C B)) : App C B Unit := do
  startMeas b
  steps.forM Step.run
  stopMeas b

/-- The calls, and the check of the buffers behind them. -/
def Block.body (block : Block C B) (b : Build) (passes : B → Bool) : App C B Unit := do
  (block.setup.map .call).forM emit
  block.phases.forM (Block.phase b)
  (block.cleanup.map .call).forM emit
  act fun m => ((), m, if passes m.buffers then [] else [block.error])
  (block.closing.map .call).forM emit

def Block.program (block : Block C B) (b : Build) (l : Library) (passes : B → Bool) :
    App C B Unit := do
  emit (.puts l.name)
  onlyIf b.testTim ((block.contexts.map .diag).forM emit)
  block.body b passes

/-- What the calls of a block do to the buffers. -/
def Block.effect (block : Block C B) (s : B) : B :=
  block.phases.flatten.foldl (fun s step => step.effect s) s

/-- An application: its blocks, what the declarations of the buffers make of the
memory, and the comparison behind every block. -/
structure Application (C B : Type) where
  block : Library → Block C B
  declare : B → B
  passes : B → Bool

namespace Application
variable (app : Application C B)

/-- The blocks of the enabled libraries among `libs`. -/
def blocks (b : Build) (libs : List Library) : App C B Unit :=
  libs.forM fun l => onlyIf (b.enabled l) ((app.block l).program b l app.passes)

def main (b : Build) : App C B Unit := do
  act fun m => ((), { m with buffers := app.declare m.buffers }, [])
  onlyIf b.modeGpio (emit .gpioInit)
  onlyIf b.modeGpio (emit (.gpioWrite false))
  app.blocks b Library.all
  emit (.puts "DONE")

def effect (l : Library) (s : B) : B := (app.block l).effect s

end Application

/-- Behind the line that names the library, and before the next one, ERROR is
printed. -/
def ReportedFor (l : Library) (tr : List (Event C)) : Prop :=
  [l.name, "ERROR"] <:+: tr.filterMap lineOf

instance (l : Library) (tr : List (Event C)) : Decidable (ReportedFor l tr) :=
  inferInstanceAs (Decidable ([l.name, "ERROR"] <:+: tr.filterMap lineOf))

/-- Every enabled library gets the verdict that it gets alone, on buffers with the
same contents; and a library that does not deliver is reported. -/
def Application.Independent (app : Application C B) (delivers : Library → Prop) (b : Build)
    (s : B) : Prop :=
  ∀ l, b.enabled l = true → ∀ (ins ins' : List UInt32) (m m' : Memory B),
    m.buffers = s → m'.buffers = s →
    let all := (app.main b).exec ins m
    let alone := (app.main (b.only l)).exec ins' m'
    all.value = some () → alone.value = some () →
      (ReportedFor l all.trace ↔ ReportedFor l alone.trace) ∧
        (¬ delivers l → ReportedFor l all.trace)

end SwCompare
