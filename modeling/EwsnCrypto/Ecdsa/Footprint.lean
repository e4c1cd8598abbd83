import EwsnCrypto.Ecdsa.Effects
import EwsnCrypto.Ecdsa.Progress

/-!
# What the stack and memory builds compute

The builds for stack and memory figures have no loop and no trigger, and their
copy of the calls is maintained by hand. They describe the measured program only
if they make the calls of one of its iterations, with the same arguments.
-/

open InputProgram Trigger EccSteps

namespace Ecdsa

/-- `#define ITERATIONS (50)` -/
def iterations : Nat := 50

/-- TEST_STACK or TEST_MEM; the Makefiles never set both. -/
inductive Footprint where
  | stack
  | mem
deriving DecidableEq

def Footprint.build (energy : Bool) : Footprint → Build
  | .stack => ⟨false, true, false, energy⟩
  | .mem => ⟨true, false, false, energy⟩

variable {Priv Pub Sig : Type}

def callOf : Event (Call Priv Pub Sig) → Option (Call Priv Pub Sig)
  | .call c _ => some c
  | _ => none

/-- The calls of a run with their arguments, in order. -/
def calls (trace : List (Event (Call Priv Pub Sig))) : List (Call Priv Pub Sig) :=
  trace.filterMap callOf

/-- The outputs of a library none of whose calls fails. They may depend on every
argument of a call, and so on its flags. -/
structure Outputs (Priv Pub Sig : Type) where
  gen : Priv × Pub
  hash : Call Priv Pub Sig → Digest
  sign : Call Priv Pub Sig → Sig × Nat
  isVerified : Call Priv Pub Sig → Bool
  blank : Priv × Pub
  locals : Digest × Sig

def Outputs.replies (o : Outputs Priv Pub Sig) : Replies Priv Pub Sig where
  gen := .ok o.gen
  hash c := .ok (o.hash c)
  sign c := .ok (o.sign c)
  verify _ := .ok ()
  isVerified := o.isVerified
  blank := o.blank
  locals := o.locals

/-- The calls of one iteration. The flag is the one that RELIC's program passes, the size the
`ecdsa_sig_size` with which the iteration starts. -/
def Library.sequence (lib : Library) (flag size : Nat) (o : Outputs Priv Pub Sig)
    (msg : Message) : List (Call Priv Pub Sig) :=
  match lib with
  | .microEcc =>
    let hash := (o.hash (.sha256 msg.toList messageSize)).toList
    let sign := .uECCSign .userPrivKey1 o.gen.1 hash digestSize
    [.uECCSecp256r1, .genKeyPair .userPrivKey1 .userPubKey1, .sha256 msg.toList messageSize, sign,
      .uECCVerify .userPubKey1 o.gen.2 hash digestSize (o.sign sign).1]
  | .cryptocell =>
    let sign := .crysEcdsaSign .userPrivKey o.gen.1 .sha256 msg.toList messageSize size
    [.getEcDomain, .cryptocellEnable, .genKeyPair .userPrivKey .userPubKey, .cryptocellDisable,
      .cryptocellEnable, sign, .cryptocellDisable, .cryptocellEnable,
      .crysEcdsaVerify .userPubKey o.gen.2 .sha256 (o.sign sign).1 (o.sign sign).2 msg.toList
        messageSize, .cryptocellDisable]
  | .atecc608a =>
    let sign := .atcabSign (.slot Atecc608a.keyId) o.gen.1 msg.toList
    [.genKeyPair (.slot Atecc608a.keyId) .userPubKey, .atcabHwSha2 msg.toList messageSize, sign,
      .atcabVerifyExtern msg.toList (o.sign sign).1 .userPubKey o.gen.2]
  | .relic =>
    let hash := (o.hash (.mdMapSh256 msg.toList messageSize)).toList
    let sign := .cpEcdsaSig hash digestSize flag .keyA o.gen.1
    [.epParamSet, .initMem .keyA .keyA, .genKeyPair .keyA .keyA, .bnNew, .bnNew,
      .mdMapSh256 msg.toList messageSize, sign,
      .cpEcdsaVer (o.sign sign).1 hash digestSize flag .keyA o.gen.2]

/-- `ecdsa_sig_size` behind an iteration that starts with `size`: only the CryptoCell program
passes its address to the library. -/
def Library.sizeAfter (lib : Library) (o : Outputs Priv Pub Sig) (msg : Message) (size : Nat) :
    Nat :=
  match lib with
  | .cryptocell =>
    (o.sign (.crysEcdsaSign .userPrivKey o.gen.1 .sha256 msg.toList messageSize size)).2
  | _ => size

/-- `ecdsa_sig_size` before iteration `i` of a loop that starts with `size`. -/
def Library.sizeBefore (lib : Library) (o : Nat → Outputs Priv Pub Sig) (msg : Message)
    (size : Nat) : Nat → Nat
  | 0 => size
  | i + 1 => lib.sizeAfter (o i) msg (lib.sizeBefore o msg size i)

/-- Every finished run of the footprint build makes the calls of a finished
measured iteration, between those that `main` makes once. Both start with the same
`ecdsa_sig_size`, as its initialiser has it in either build. -/
def SameCryptography (lib : Library) (f : Footprint) : Prop :=
  ∀ (Priv Pub Sig : Type) (o : Nat → Outputs Priv Pub Sig) (msg : Message) (energy energy' : Bool)
    (m m' : Memory Priv Pub Sig) (ins ins' : List Bool), m.sigSize = m'.sigSize →
    let program := lib.application.main (f.build energy) iterations (fun i => (o i).replies) msg
    let iteration := lib.application.iteration (.measured energy') (o 0).replies msg
    (program.exec ins m).value = some () → (iteration.exec ins' m').value = some () →
      calls (program.exec ins m).trace =
        calls (lib.application.setup (f.build energy)) ++ calls (iteration.exec ins' m').trace ++
          calls lib.application.teardown

section Calls
variable {msg : Message} {energy : Bool} {m : Memory Priv Pub Sig} {ins : List Bool}

theorem calls_append (tr tr' : List (Event (Call Priv Pub Sig))) :
    calls (tr ++ tr') = calls tr ++ calls tr' := List.filterMap_append

theorem calls_filter_visible (tr : List (Event (Call Priv Pub Sig))) :
    calls (tr.filter visible) = calls tr := by
  rw [calls, List.filterMap_filter]
  exact List.filterMap_congr fun e _ => by cases e <;> rfl

/-- A measured iteration that finishes. -/
theorem iteration_calls (lib : Library) (o : Outputs Priv Pub Sig)
    (hfinished :
      ((lib.application.iteration (.measured energy) o.replies msg).exec ins m).value = some ()) :
    calls ((lib.application.iteration (.measured energy) o.replies msg).exec ins m).trace =
        lib.sequence 1 m.sigSize o msg ∧
      ((lib.application.iteration (.measured energy) o.replies msg).exec ins m).state.sigSize =
        lib.sizeAfter o msg m.sigSize := by
  have hdoes : Does (.puts "VALID")
      (lib.application.iteration (.measured energy) o.replies msg) m () _ _ := does_iteration lib
  rcases hdoes ins with ⟨_, hstate, htr⟩ | ⟨hwaiting, _⟩
  · rw [← calls_filter_visible, htr, hstate]
    cases lib <;> exact ⟨rfl, rfl⟩
  · rw [hfinished] at hwaiting
    exact False.elim (Option.some_ne_none _ hwaiting)

/-- The measured loop repeats the sequence, with the size that the signature before has left. -/
theorem rounds_calls (lib : Library) (n : Nat) (o : Nat → Outputs Priv Pub Sig)
    (hfinished : ((lib.application.rounds (.measured energy) n (fun i => (o i).replies) msg).exec
      ins m).value = some ()) :
    calls ((lib.application.rounds (.measured energy) n (fun i => (o i).replies) msg).exec
        ins m).trace =
        ((List.range n).flatMap fun i =>
          lib.sequence 1 (lib.sizeBefore o msg m.sigSize i) (o i) msg) ∧
      ((lib.application.rounds (.measured energy) n (fun i => (o i).replies) msg).exec
        ins m).state.sigSize = lib.sizeBefore o msg m.sigSize n := by
  induction n with
  | zero => exact ⟨rfl, rfl⟩
  | succ n ih =>
    obtain ⟨_, hprev, hround⟩ := andThen_value_some hfinished
    obtain ⟨htrace, hsize⟩ := ih hprev
    obtain ⟨htrace', hsize'⟩ := iteration_calls lib (o n) hround
    rw [Application.rounds, forRange_succ_exec hprev, calls_append, List.range_succ,
      List.flatMap_append, List.flatMap_singleton, Library.sizeBefore, ← hsize]
    exact ⟨congrArg₂ _ htrace htrace', hsize'⟩

/-- A build without the loop runs the sequence once, with RELIC's other flag. -/
theorem main_calls (lib : Library) (f : Footprint) (n : Nat) (o : Nat → Outputs Priv Pub Sig)
    (hunmeasured : lib.application.isMeasured (f.build energy) = false) :
    calls ((lib.application.main (f.build energy) n (fun i => (o i).replies) msg).exec
        ins m).trace =
      calls (lib.application.setup (f.build energy)) ++ lib.sequence 0 m.sigSize (o 0) msg ++
        calls lib.application.teardown := by
  cases lib <;> cases f
  case cryptocell.mem => exact Bool.noConfusion hunmeasured
  all_goals rfl

/-- The memory build of the CryptoCell program runs the whole measured loop. -/
theorem cryptocell_mem_calls (n : Nat) (o : Nat → Outputs Priv Pub Sig)
    (hfinished : ((Library.cryptocell.application.main (Footprint.mem.build energy) n
      (fun i => (o i).replies) msg).exec ins m).value = some ()) :
    calls ((Library.cryptocell.application.main (Footprint.mem.build energy) n
        (fun i => (o i).replies) msg).exec ins m).trace =
      (List.range n).flatMap fun i => Library.cryptocell.sequence 1
        (Library.cryptocell.sizeBefore o msg m.sigSize i) (o i) msg := by
  have hmain : Library.cryptocell.application.main (Footprint.mem.build energy) n
      (fun i => (o i).replies) msg =
      func .main (pure () >>= fun _ => (puts Cryptocell.application.banner >>= fun _ =>
        initTrigger (.measured energy) >>= fun _ => Library.cryptocell.application.rounds
          (.measured energy) n (fun i => (o i).replies) msg) >>= fun _ => pure () >>= fun _ =>
        pure () >>= fun _ => puts "DONE") := rfl
  have htrigger : ∃ tr, (initTrigger (.measured energy) : EcdsaApp Priv Pub Sig Unit).exec ins m =
      ⟨tr, m, ins, some ()⟩ ∧ calls tr = [] := by
    cases energy <;> exact ⟨_, rfl, rfl⟩
  obtain ⟨tr, htrigger, hnone⟩ := htrigger
  simp only [hmain, func, puts, pure_bind, bind_assoc, bind_exec, emit_exec, andThen_some,
    htrigger] at hfinished ⊢
  obtain ⟨_, hrounds, _⟩ := andThen_value_some hfinished
  rw [andThen_of_value hrounds, ← (rounds_calls .cryptocell n o hrounds).1]
  simp only [calls_append, hnone]
  exact List.append_nil _

end Calls

section Counterexample

/-- A library that answers everything with the same values. -/
def plainOutputs : Outputs Unit Unit Unit :=
  ⟨((), ()), fun _ => Vector.replicate digestSize 0, fun _ => ((), 64), fun _ => true, ((), ()),
    (Vector.replicate digestSize 0, ())⟩

/-- `uint32_t ecdsa_sig_size = 64;` -/
def plainMemory : Memory Unit Unit Unit := ⟨(), (), Vector.replicate digestSize 0, (), 64⟩

/-- The stack build of the RELIC program hashes a digest again, the measured one does not. -/
theorem relic_stack_differs : ¬ SameCryptography .relic .stack := by
  intro hsame
  have hcalls := hsame Unit Unit Unit (fun _ => plainOutputs) ecdsaMessage false false plainMemory
    plainMemory [] [] rfl rfl rfl
  revert hcalls
  decide +kernel

end Counterexample

/-- The two copies of RELIC's calls pass different flags. -/
theorem relic_differs (f : Footprint) : ¬ SameCryptography .relic f := by
  intro hsame
  have hcalls := hsame Unit Unit Unit (fun _ => plainOutputs) ecdsaMessage false false
    plainMemory plainMemory [] [] rfl (by cases f <;> rfl) rfl
  rw [main_calls .relic f _ _ (by cases f <;> rfl), (iteration_calls .relic plainOutputs rfl).1]
    at hcalls
  have hflags : Library.relic.sequence 0 plainMemory.sigSize plainOutputs ecdsaMessage =
      Library.relic.sequence 1 plainMemory.sigSize plainOutputs ecdsaMessage := by
    simpa using hcalls
  exact absurd hflags (by decide +kernel)

/-- The memory build of the CryptoCell program makes fifty times as many calls. -/
theorem cryptocell_mem_differs : ¬ SameCryptography .cryptocell .mem := by
  intro hsame
  have hfinishes : Finishes (Library.cryptocell.application.main (Footprint.mem.build false)
      iterations (fun _ => plainOutputs.replies) ecdsaMessage) := main_finishes _ _ _
  obtain ⟨ins, tr, st, a, hexec⟩ := hfinishes plainMemory
  have hfinished := congrArg Run.value (hexec [])
  have hcalls := hsame Unit Unit Unit (fun _ => plainOutputs) ecdsaMessage false false
    plainMemory plainMemory (ins ++ []) [] rfl hfinished rfl
  rw [cryptocell_mem_calls _ _ hfinished, (iteration_calls .cryptocell plainOutputs rfl).1]
    at hcalls
  have hlength := congrArg List.length hcalls
  revert hlength
  decide +kernel

/-- The condition: not RELIC, and not the memory build of the CryptoCell program,
which tests COSY_TEST instead of TEST_MEM and so remains a measured build. -/
theorem sameCryptography_iff (lib : Library) (f : Footprint) :
    SameCryptography lib f ↔ lib ≠ .relic ∧ ¬ (lib = .cryptocell ∧ f = .mem) := by
  constructor
  · intro hsame
    constructor
    · rintro rfl
      exact relic_differs f hsame
    · rintro ⟨rfl, rfl⟩
      exact cryptocell_mem_differs hsame
  · rintro ⟨hrelic, hcell⟩ Priv Pub Sig o msg energy energy' m m' ins ins' hsize program iteration
      _ hfinished
    have hunmeasured : lib.application.isMeasured (f.build energy) = false := by
      cases lib <;> cases f
      case cryptocell.mem => exact False.elim (hcell ⟨rfl, rfl⟩)
      all_goals rfl
    have hflag : lib.sequence 0 m'.sigSize (o 0) msg = lib.sequence 1 m'.sigSize (o 0) msg := by
      cases lib with
      | relic => exact False.elim (hrelic rfl)
      | _ => rfl
    rw [main_calls lib f iterations o hunmeasured, (iteration_calls lib (o 0) hfinished).1, hsize,
      hflag]

end Ecdsa
