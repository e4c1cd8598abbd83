import EwsnCrypto.Base.Interleaving
import Mathlib.Logic.Function.Basic
import Mathlib.Data.List.Basic

/-!
# The parallel AES test

`aes_ecb_parallel_test` initialises two pins, stores a pointer to each in the
info record of a thread and creates the two threads, which run the same
function. Each marks its encryption calls on its own pin. Every statement is an
atomic step, and the three actors take turns in any order.
-/

open Interleaving

namespace ParallelTest

structure Gpio where
  port : Nat
  pin : Nat
deriving DecidableEq

inductive ThreadId where
  | one
  | two
deriving DecidableEq

/-- The macros, the pins that are passed, and what the encryption calls of each
thread return. -/
structure Setup where
  nonblocking : Bool
  input512 : Bool
  iter : Nat
  pin : ThreadId → Gpio
  ret : ThreadId → Nat → Int
  distinct : pin .one ≠ pin .two

def Setup.ecbPlainLen (c : Setup) : Nat := if c.input512 then 512 else 32

/-- A printed line with its figures. -/
structure Line where
  format : String
  args : List Int
deriving DecidableEq

/-- A pin, and what was written to it since `gpio_init`, the last write first. -/
structure Wire where
  output : Bool
  writes : List Bool
deriving DecidableEq

namespace Wire

/-- `gpio_init` says nothing about the level, the first write does. -/
def level (w : Wire) : Option Bool := w.writes.head?

def initialised : Wire := ⟨true, []⟩

def write (w : Wire) (high : Bool) : Wire := { w with writes := high :: w.writes }

/-- The falling edges that end what a rising edge began. -/
def pulsesIn : List Bool → Nat
  | [] => 0
  | w :: ws => pulsesIn ws + if w = false ∧ ws.head? = some true ∧ false ∈ ws then 1 else 0

def pulses (w : Wire) : Nat := pulsesIn w.writes

end Wire

/-- The next statement of `aes_ecb_thread`. The section between `gpio_set` and
`gpio_clear` is `encrypt` and `gpioClear`. -/
inductive Point where
  | absent
  | loadPin
  | aesInit
  | test (i : Nat)
  | gpioSet (i : Nat)
  | encrypt (i : Nat)
  | gpioClear (i : Nat) (ret : Int)
  | checkRet (i : Nat) (ret : Int)
  | report (ret : Int)
  | ended
  | faulted
deriving DecidableEq

/-- A thread with its local `pin`, a pointer that may be NULL, and the number of
encryption calls it has made. -/
structure Thread where
  point : Point
  pin : Option Gpio
  calls : Nat
deriving DecidableEq

def Thread.notCreated : Thread := ⟨.absent, none, 0⟩

/-- What a statement of a thread does to what it shares. -/
inductive Effect where
  | quiet
  | drive (p : Gpio) (high : Bool)
  | print (line : Line)

/-- `gpio_set(*pin)` and `gpio_clear(*pin)` with the statement behind them. -/
def Thread.drive (t : Thread) (high : Bool) (behind : Point) : Thread × Effect :=
  match t.pin with
  | none => ({ t with point := .faulted }, .quiet)
  | some p => ({ t with point := behind }, .drive p high)

/-- One statement of `aes_ecb_thread`, with `info->pin` as it is now. -/
def Thread.step (iter : Nat) (ret : Nat → Int) (infoPin : Option Gpio) (t : Thread) :
    Option (Thread × Effect) :=
  match t.point with
  | .absent | .ended | .faulted => none
  | .loadPin => some ({ t with point := .aesInit, pin := infoPin }, .quiet)
  | .aesInit => some ({ t with point := .test 0 }, .quiet)
  | .test i => some ({ t with point := if i < iter then .gpioSet i else .ended }, .quiet)
  | .gpioSet i => some (t.drive true (.encrypt i))
  | .encrypt i => some ({ t with point := .gpioClear i (ret i), calls := t.calls + 1 }, .quiet)
  | .gpioClear i r => some (t.drive false (.checkRet i r))
  | .checkRet i r => some ({ t with point := if r < 0 then .report r else .test (i + 1) }, .quiet)
  | .report r =>
    some ({ t with point := .ended }, .print ⟨"AES ECB Enryption failed: %d\n", [r]⟩)

/-- The statements of `aes_ecb_parallel_test`. Those on a pin and on a thread name
the thread: `gpioInit k` is `gpio_init(*thread<k>_pin, GPIO_OUT)`. -/
inductive Stmt where
  | print (line : Line)
  | gpioInit (k : ThreadId)
  | gpioClear (k : ThreadId)
  | storePin (k : ThreadId)
  | threadCreate (k : ThreadId)
deriving DecidableEq

def aesEcbParallelTest (c : Setup) : List Stmt :=
  [.print ⟨"== Performing parallel test ==", []⟩,
    .print ⟨"=> Encrypting [%d] blocks of [%d] bytes\n", [c.iter, c.ecbPlainLen]⟩,
    .print ⟨if c.nonblocking then "=> Using DMA" else "=> NOT using DMA", []⟩,
    .gpioInit .one,
    .gpioClear .one,
    .gpioInit .two,
    .gpioClear .two,
    .storePin .one,
    .storePin .two,
    .threadCreate .one,
    .threadCreate .two]

/-- `main` is what is left of `aes_ecb_parallel_test`, `infoPin` are the pointers
in `info1` and `info2`. -/
structure State where
  main : List Stmt
  infoPin : ThreadId → Option Gpio
  thread : ThreadId → Thread
  wire : Gpio → Wire
  out : List Line

namespace State

def setWire (s : State) (p : Gpio) (w : Wire) : State :=
  { s with wire := Function.update s.wire p w }

def setThread (s : State) (k : ThreadId) (t : Thread) : State :=
  { s with thread := Function.update s.thread k t }

def print (s : State) (line : Line) : State := { s with out := s.out ++ [line] }

def apply (s : State) : Effect → State
  | .quiet => s
  | .drive p high => s.setWire p ((s.wire p).write high)
  | .print line => s.print line

end State

/-- A statement of the main thread. -/
def perform (c : Setup) (s : State) : Stmt → State
  | .print line => s.print line
  | .gpioInit k => s.setWire (c.pin k) .initialised
  | .gpioClear k => s.setWire (c.pin k) ((s.wire (c.pin k)).write false)
  | .storePin k => { s with infoPin := Function.update s.infoPin k (some (c.pin k)) }
  | .threadCreate k => s.setThread k { s.thread k with point := .loadPin }

def mainStep (c : Setup) (s : State) : Option State :=
  match s.main with
  | [] => none
  | st :: rest => some (perform c { s with main := rest } st)

def threadStep (c : Setup) (k : ThreadId) (s : State) : Option State :=
  ((s.thread k).step c.iter (c.ret k) (s.infoPin k)).map fun (t, effect) =>
    (s.setThread k t).apply effect

inductive Actor where
  | main
  | thread (k : ThreadId)
deriving DecidableEq

/-- `info1`, `info2` before the test, with NULL pins, and pins no one has touched. -/
def atRest (c : Setup) : State where
  main := aesEcbParallelTest c
  infoPin _ := none
  thread _ := .notCreated
  wire _ := ⟨false, []⟩
  out := []

def system (c : Setup) : System Actor State where
  start := atRest c
  step
    | .main => mainStep c
    | .thread k => threadStep c k

/-- `gpio_t thread1_pin = GPIO_PIN(2, 9);` and `gpio_t thread2_pin = GPIO_PIN(3, 9);` -/
def threadPin : ThreadId → Gpio
  | .one => ⟨2, 9⟩
  | .two => ⟨3, 9⟩

/-- `aes_ecb_parallel_test(&thread1_pin, &thread2_pin);` -/
def main (nonblocking input512 : Bool) (iter : Nat) (ret : ThreadId → Nat → Int) : Setup where
  nonblocking := nonblocking
  input512 := input512
  iter := iter
  pin := threadPin
  ret := ret
  distinct := by decide

end ParallelTest
