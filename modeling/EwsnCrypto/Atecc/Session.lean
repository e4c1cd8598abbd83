import EwsnCrypto.Atecc.Responsive
import EwsnCrypto.Base.Dialogue

/-!
# A session with the chip

A run of the optimisation application, up to the polls of the sync pin: what it shows
first, one round for every wait that has ended, and what it shows last. Commands that
fail are reported, and nothing else changes.
-/

open InputProgram

namespace Atecc

/-- A command with its answer, and the message that is shown if it fails. -/
structure Exchange where
  answer : Answer
  command : Command
  message : Event

namespace Exchange
variable (x : Exchange)

def failed : Bool := x.answer.status ≠ atcaSuccess

def events : List Event := .command x.command x.answer.duration :: complaint x.answer x.message

end Exchange

section Events
variable (b : Build)

/-- An iteration. Each write sends what the read before it has left. -/
def exchanges (i : Nat) (answers : Nat → Answer) : List Exchange :=
  if b.saveCtx then
    [⟨answers 0, .hwSha2Init, .puts "atcab_hw_sha2_256_initERROR"⟩,
      ⟨answers 1, .shaReadContext, .puts "1atcab_sha_read_contextERROR"⟩,
      ⟨answers 2, .shaWriteContext (answers 1).saved, .puts "atcab_sha_write_contextERROR"⟩,
      ⟨answers 3, .hwSha2Update teststring, .puts "atcab_hw_sha2_256_updateERROR"⟩,
      ⟨answers 4, .shaReadContext, .puts "2atcab_sha_read_contextERROR"⟩,
      ⟨answers 5, .shaWriteContext (answers 4).saved, .puts "atcab_sha_write_contextERROR"⟩,
      ⟨answers 6, .hwSha2Finish, .puts "atcab_hw_sha2_256_finishERROR"⟩]
  else
    [⟨answers 0, .hwSha2Init,
        .printf "atcab_hw_sha2_256_init ERROR: %x, %i\n" [(answers 0).status, i]⟩,
      ⟨answers 1, .hwSha2Update teststring,
        .printf "atcab_hw_sha2_256_update ERROR: %x, %i\n" [(answers 1).status, i]⟩,
      ⟨answers 2, .hwSha2Finish,
        .printf "atcab_hw_sha2_256_finish ERROR: %x, %i\n" [(answers 2).status, i]⟩]

def openEvents : List Event :=
  if b.testEnergy then
    (if b.wakesInTrigger then [.ateccWake] else []) ++ [.gpioWrite .active false]
  else [.gpioWrite .active true]

def closeEvents : List Event :=
  if b.testEnergy then
    [.gpioWrite .aesKey true, .gpioWrite .active true, .gpioWrite .aesKey false]
  else [.gpioWrite .active false]

def roundEvents (i : Nat) (answers : Nat → Answer) : List Event :=
  openEvents b ++ ((exchanges b i answers).flatMap Exchange.events ++ closeEvents b)

def pinEvents : List Event :=
  if b.testEnergy then
    [.gpioInit .active .output, .gpioInit .aesKey .output, .gpioInit .sync .input,
      .gpioWrite .active true, .gpioWrite .aesKey false]
  else [.gpioInit .active .output, .gpioWrite .active false]

def speedEvents : I2cSpeed → List Event
  | .normal => [.puts "I2C_SPEED_NORMAL"]
  | .fast => [.puts "I2C_SPEED_FAST"]
  | .other => []

def powerEvents : List Event :=
  if b.manualOnOff then [.ateccSleep, .puts "ATCA_MANUAL_ON"] else [.puts "ATCA_MANUAL_OFF"]

/-- What a run shows before its loop. -/
def startEvents (speed : I2cSpeed) (watch : Stopwatch) : List Event :=
  pinEvents b ++ (.puts (if b.noI2cReconf then "SLOW I2C" else "FAST I2C") ::
    .puts (if b.periphI2cReconfigure then "GPIO WAKEUP" else "I2C WAKEUP") ::
    (speedEvents speed ++ (powerEvents b ++
      (.puts (if b.saveCtx then "SAVE CTX" else "NO SAVE CTX") ::
        .xtimerNow watch.start :: if b.manualOnOff then [.ateccWake] else []))))

/-- What it shows behind its loop. -/
def stopEvents (numIter : Nat) (watch : Stopwatch) : List Event :=
  (if b.manualOnOff then [.ateccSleep] else []) ++ [.xtimerNow watch.stop,
    .printf (if b.saveCtx then "ata_with_ctx_save: %i Bytes int %u us\n"
      else "ata_without_ctx_save: %i Bytes int %u us\n")
      [numIter * sha256HashSize, (watch.stop - watch.start).toNat]]

/-- The iterations that are made: with the synchronisation, one for each wait that ends. -/
def started (numIter : Nat) (ins : List Reading) : Nat :=
  if b.testEnergy then min (waits ins).length numIter else numIter

/-- `context` and `context_size` before iteration `i`. -/
def heldAt (shaContextMaxSize : Nat) (replies : Replies) (saved : Saved) : Nat → Saved
  | 0 => if b.saveCtx then freshContext shaContextMaxSize else saved
  | i + 1 => if b.saveCtx then (replies i 4).saved else saved

end Events

/-- Everything but the polls. -/
def shown : Event → Bool
  | .syncRead _ => false
  | _ => true

section Rounds
variable {b : Build} {replies : Replies} {saved : Saved} {max : Nat}

theorem hash_exec (i : Nat) (ins : List Reading) :
    (hash b replies i).exec ins (heldAt b max replies saved i) =
      ⟨(exchanges b i (replies i)).flatMap Exchange.events, heldAt b max replies saved (i + 1), ins,
        some ()⟩ := by
  cases hsave : b.saveCtx with
  | true =>
    simp [hash, hashWithCtxSave, exchanges, heldAt, hsave, command, shaReadContext, shaWriteContext,
      Exchange.events]
  | false =>
    have hheld (i : Nat) : heldAt b max replies saved i = saved := by
      cases i <;> simp [heldAt, hsave]
    simp [hash, hashWithoutCtxSave, exchanges, hheld, hsave, command, Exchange.events]

theorem stopTrigger_exec (ins : List Reading) (s : Saved) :
    (stopTrigger b).exec ins s = ⟨closeEvents b, s, ins, some ()⟩ := by
  cases henergy : b.testEnergy <;> simp [stopTrigger, closeEvents, henergy, gpioSet, gpioClear]

/-- The wait at the start of a round is a request. -/
theorem holds_sync (s : Saved) :
    Holds (fun ins => (waits ins).length) shown (do whileSyncHigh; whileSyncLow) ⟨[], [[]]⟩ () s
      s := by
  have hpolls : Keeps (fun e => shown e = false) (do whileSyncHigh; whileSyncLow)
      (fun _ s' => s' = s) s := by
    have hpoll (r : Reading) : shown (.syncRead r) = false := rfl
    apply keeps_bind
    apply keeps_pollWhile hpoll
    exact keeps_pollWhile hpoll rfl
  refine holds_wait (fun ins => (hpolls ins).1) (fun ins hpos => ?_) fun ins hzero => ?_
  · obtain ⟨e, _, ⟨_, hwaits⟩ | ⟨hvalue, hwaits⟩⟩ := sync_cases ins s
    · simp [hwaits] at hpos
    · exact ⟨hvalue, (hpolls ins).2 () hvalue, by rw [hwaits, List.length_cons]⟩
  · obtain ⟨e, _, ⟨hvalue, _⟩ | ⟨_, hwaits⟩⟩ := sync_cases ins s
    · exact hvalue
    · simp [hwaits] at hzero

theorem shown_message {i : Nat} {answers : Nat → Answer} :
    ∀ x ∈ exchanges b i answers, shown x.message = true := by
  cases hsave : b.saveCtx <;> simp [exchanges, hsave, shown]

theorem shown_roundEvents (i : Nat) :
    (roundEvents b i (replies i)).filter shown = roundEvents b i (replies i) := by
  have hopen : ∀ e ∈ openEvents b, shown e = true := by
    cases henergy : b.testEnergy <;> cases hwakes : b.wakesInTrigger <;>
      simp [openEvents, henergy, hwakes, shown]
  have hclose : ∀ e ∈ closeEvents b, shown e = true := by
    cases henergy : b.testEnergy <;> simp [closeEvents, henergy, shown]
  have hhash : ∀ e ∈ (exchanges b i (replies i)).flatMap Exchange.events, shown e = true := by
    intro e he
    obtain ⟨x, hx, he⟩ := List.mem_flatMap.mp he
    rcases List.mem_cons.mp he with rfl | he
    · rfl
    · rw [complaint] at he
      split at he
      · rw [List.mem_singleton.mp he, shown_message x hx]
      · simp at he
  refine List.filter_eq_self.mpr fun e he => ?_
  rcases List.mem_append.mp he with he | he
  · exact hopen e he
  · rcases List.mem_append.mp he with he | he
    · exact hhash e he
    · exact hclose e he

/-- A round behind the wait. -/
theorem window_exec (i : Nat) (ins : List Reading) :
    (do onlyIf b.wakesInTrigger (emit .ateccWake)
        gpioClear .active
        hash b replies i
        stopTrigger b : App Unit).exec ins (heldAt b max replies saved i) =
      ⟨(if b.wakesInTrigger then [.ateccWake] else []) ++ ([.gpioWrite .active false] ++
        ((exchanges b i (replies i)).flatMap Exchange.events ++ closeEvents b)),
        heldAt b max replies saved (i + 1), ins, some ()⟩ := by
  cases hwakes : b.wakesInTrigger <;>
    simp [gpioClear, hash_exec, stopTrigger_exec]

theorem round_exec (henergy : b.testEnergy = false) (i : Nat) (ins : List Reading) :
    (round b replies i).exec ins (heldAt b max replies saved i) =
      ⟨roundEvents b i (replies i), heldAt b max replies saved (i + 1), ins, some ()⟩ := by
  simp [round, startTrigger, roundEvents, openEvents, henergy, gpioSet, hash_exec, stopTrigger_exec]

theorem holds_round (henergy : b.testEnergy = true) (i : Nat) :
    Holds (fun ins => (waits ins).length) shown (round b replies i)
      ⟨[], [roundEvents b i (replies i)]⟩ () (heldAt b max replies saved i)
      (heldAt b max replies saved (i + 1)) := by
  have hround : round b replies i = (do whileSyncHigh; whileSyncLow) >>= fun _ => (do
      onlyIf b.wakesInTrigger (emit .ateccWake)
      gpioClear .active
      hash b replies i
      stopTrigger b) := by
    simp [round, startTrigger_of_energy b henergy]
  have hopen : (if b.wakesInTrigger then [.ateccWake] else []) ++ ([.gpioWrite .active false] ++
      ((exchanges b i (replies i)).flatMap Exchange.events ++ closeEvents b)) =
        roundEvents b i (replies i) := by
    simp [roundEvents, openEvents, henergy]
  have hwindow : Holds (fun ins => (waits ins).length) shown _ _ () (heldAt b max replies saved i)
      (heldAt b max replies saved (i + 1)) := holds_of_exec (window_exec i)
  rw [hopen, shown_roundEvents] at hwindow
  rw [hround]
  exact holds_bind (holds_sync _) (f := fun _ => _) hwindow

end Rounds

section Session
variable (b : Build) (speed : I2cSpeed) (max numIter : Nat) (watch : Stopwatch)

def sessionStart : App Unit := do
  initTrigger b
  reportI2c b speed
  if b.manualOnOff then
    emit .ateccSleep
    puts "ATCA_MANUAL_ON"
  else
    puts "ATCA_MANUAL_OFF"
  puts (if b.saveCtx then "SAVE CTX" else "NO SAVE CTX")
  onlyIf b.saveCtx (act fun _ => ((), freshContext max, []))
  emit (.xtimerNow watch.start)
  onlyIf b.manualOnOff (emit .ateccWake)

def sessionStop : App Unit := do
  onlyIf b.manualOnOff (emit .ateccSleep)
  emit (.xtimerNow watch.stop)
  emit (.printf (if b.saveCtx then "ata_with_ctx_save: %i Bytes int %u us\n"
    else "ata_without_ctx_save: %i Bytes int %u us\n")
    [numIter * sha256HashSize, (watch.stop - watch.start).toNat])

theorem main_eq (replies : Replies) : main b speed max numIter watch replies = (do
    sessionStart b speed max watch
    forRange numIter (round b replies)
    sessionStop b numIter watch) := by
  have hiterate : iterate b numIter (hash b replies) = forRange numIter (round b replies) := rfl
  cases hsave : b.saveCtx with
  | true =>
    have hhash : hash b replies = fun i => hashWithCtxSave teststring (replies i) := by
      funext i
      simp [hash, hsave]
    cases hmanual : b.manualOnOff <;>
      simp [main, sessionStart, sessionStop, ataWithCtxSave, timed, hsave, hmanual, ← hiterate,
        hhash]
  | false =>
    have hhash : hash b replies = fun i => hashWithoutCtxSave teststring (replies i) i := by
      funext i
      simp [hash, hsave]
    cases hmanual : b.manualOnOff <;>
      simp [main, sessionStart, sessionStop, ataWithoutCtxSave, timed, hsave, hmanual, ← hiterate,
        hhash]

theorem sessionStart_exec (replies : Replies) (saved : Saved) (ins : List Reading) :
    (sessionStart b speed max watch).exec ins saved =
      ⟨startEvents b speed watch, heldAt b max replies saved 0, ins, some ()⟩ := by
  cases henergy : b.testEnergy <;> cases hmanual : b.manualOnOff <;> cases hsave : b.saveCtx <;>
    cases speed <;>
    simp [sessionStart, startEvents, pinEvents, speedEvents, powerEvents, heldAt, initTrigger,
      reportI2c, gpioInit, gpioSet, gpioClear, puts, henergy, hmanual, hsave]

theorem sessionStop_exec (saved : Saved) (ins : List Reading) :
    (sessionStop b numIter watch).exec ins saved =
      ⟨stopEvents b numIter watch, saved, ins, some ()⟩ := by
  cases hmanual : b.manualOnOff <;> simp [sessionStop, stopEvents, hmanual]

variable {b speed max numIter watch}

theorem shown_startEvents :
    (startEvents b speed watch).filter shown = startEvents b speed watch := by
  refine List.filter_eq_self.mpr ?_
  cases henergy : b.testEnergy <;> cases hmanual : b.manualOnOff <;> cases speed <;>
    simp [startEvents, pinEvents, speedEvents, powerEvents, henergy, hmanual, shown]

theorem shown_stopEvents :
    (stopEvents b numIter watch).filter shown = stopEvents b numIter watch := by
  refine List.filter_eq_self.mpr ?_
  cases hmanual : b.manualOnOff <;> simp [stopEvents, hmanual, shown]

variable (b speed max numIter watch) (replies : Replies) (saved : Saved) (ins : List Reading)

theorem session_run :
    let run := (do
      sessionStart b speed max watch
      forRange numIter (round b replies)
      sessionStop b numIter watch : App Unit).exec ins saved
    run.trace.filter shown = startEvents b speed watch ++
        (List.range (started b numIter ins)).flatMap (fun i => roundEvents b i (replies i)) ++
        (if started b numIter ins = numIter then stopEvents b numIter watch else []) ∧
      (run.value = some () ↔ started b numIter ins = numIter) := by
  dsimp only
  cases henergy : b.testEnergy with
  | false =>
    have hall : started b numIter ins = numIter := by simp [started, henergy]
    have hrounds := forRange_exec (n := numIter) (heldAt b max replies saved) _
      (round_exec henergy) ins
    have hshown : ((List.range numIter).flatMap fun i => roundEvents b i (replies i)).filter shown =
        (List.range numIter).flatMap fun i => roundEvents b i (replies i) := by
      rw [List.filter_flatMap]
      exact congrArg (List.range numIter).flatMap (funext fun i => shown_roundEvents i)
    rw [bind_exec, sessionStart_exec b speed max watch replies, andThen_some, bind_exec, hrounds,
      andThen_some, sessionStop_exec, hall, if_pos rfl, List.filter_append, List.filter_append,
      shown_startEvents, hshown, shown_stopEvents, List.append_assoc]
    exact ⟨rfl, fun _ => rfl, fun _ => rfl⟩
  | true =>
    have hfirst : Holds (fun ins => (waits ins).length) shown (sessionStart b speed max watch)
        ⟨startEvents b speed watch, []⟩ () saved (heldAt b max replies saved 0) := by
      have h : Holds (fun ins => (waits ins).length) shown _ _ () saved _ :=
        holds_of_exec (sessionStart_exec b speed max watch replies saved)
      rwa [shown_startEvents] at h
    have hlast : Holds (fun ins => (waits ins).length) shown (sessionStop b numIter watch)
        ⟨stopEvents b numIter watch, []⟩ () (heldAt b max replies saved numIter)
        (heldAt b max replies saved numIter) := by
      have h : Holds (fun ins => (waits ins).length) shown _ _ () _ _ :=
        holds_of_exec (sessionStop_exec b numIter watch (heldAt b max replies saved numIter))
      rwa [shown_stopEvents] at h
    have hrun := rounds_run hfirst (holds_round henergy) hlast ins
    have hstarted : started b numIter ins = min (waits ins).length numIter := by
      simp [started, henergy]
    have hend : min (waits ins).length numIter = numIter ↔ numIter ≤ (waits ins).length := by omega
    simp only [hstarted, hend]
    exact hrun

/-- In every build, whatever the chip answers: a run shows its start, an iteration for each
wait that has ended, and its end behind the last of them. Nothing else ends it. -/
theorem session_exact :
    let run := (main b speed max numIter watch replies).exec ins saved
    run.trace.filter shown = startEvents b speed watch ++
        (List.range (started b numIter ins)).flatMap (fun i => roundEvents b i (replies i)) ++
        (if started b numIter ins = numIter then stopEvents b numIter watch else []) ∧
      (run.value = some () ↔ started b numIter ins = numIter) := by
  rw [main_eq]
  exact session_run b speed max numIter watch replies saved ins

end Session

section Failures

def commandOf : Event → Option Command
  | .command c _ => some c
  | _ => none

/-- The lines about commands that have failed. -/
def complaints : List String :=
  ["atcab_hw_sha2_256_initERROR", "1atcab_sha_read_contextERROR", "atcab_sha_write_contextERROR",
    "atcab_hw_sha2_256_updateERROR", "2atcab_sha_read_contextERROR",
    "atcab_hw_sha2_256_finishERROR", "atcab_hw_sha2_256_init ERROR: %x, %i\n",
    "atcab_hw_sha2_256_update ERROR: %x, %i\n", "atcab_hw_sha2_256_finish ERROR: %x, %i\n"]

def complaintOf : Event → Option Event
  | .puts line => if line ∈ complaints then some (.puts line) else none
  | .printf format args => if format ∈ complaints then some (.printf format args) else none
  | _ => none

variable {b : Build} {δ : Type} {read : Event → Option δ}

/-- A reading that only sees the exchanges with the chip. -/
structure ReadsExchanges (read : Event → Option δ) (out : Exchange → List δ) : Prop where
  shown : ∀ e, shown e = false → read e = none
  start : ∀ b speed watch, (startEvents b speed watch).filterMap read = []
  opening : ∀ b, (openEvents b).filterMap read = []
  closing : ∀ b, (closeEvents b).filterMap read = []
  stop : ∀ b numIter watch, (stopEvents b numIter watch).filterMap read = []
  exchange : ∀ b i answers, ∀ x ∈ exchanges b i answers, x.events.filterMap read = out x

theorem filterMap_main {out : Exchange → List δ} (h : ReadsExchanges read out) (speed : I2cSpeed)
    (max numIter : Nat) (watch : Stopwatch) (replies : Replies) (saved : Saved)
    (ins : List Reading) :
    ((main b speed max numIter watch replies).exec ins saved).trace.filterMap read =
      (List.range (started b numIter ins)).flatMap fun i =>
        (exchanges b i (replies i)).flatMap out := by
  obtain ⟨htrace, _⟩ := session_run b speed max numIter watch replies saved ins
  rw [← main_eq] at htrace
  have hfilter (tr : List Event) : (tr.filter shown).filterMap read = tr.filterMap read := by
    rw [List.filterMap_filter]
    refine List.filterMap_congr fun e _ => ?_
    cases hshown : shown e with
    | true => rfl
    | false => exact (h.shown e hshown).symm
  have hround (i : Nat) : (roundEvents b i (replies i)).filterMap read =
      (exchanges b i (replies i)).flatMap out := by
    rw [roundEvents, List.filterMap_append, List.filterMap_append, h.opening, h.closing,
      List.filterMap_flatMap, List.nil_append, List.append_nil]
    exact List.flatMap_congr (h.exchange b i (replies i))
  have hstop : (if started b numIter ins = numIter then stopEvents b numIter watch
      else []).filterMap
      read = [] := by
    split
    · exact h.stop b numIter watch
    · rfl
  rw [← hfilter, htrace, List.filterMap_append, List.filterMap_append, h.start, hstop,
    List.filterMap_flatMap, List.nil_append, List.append_nil]
  exact congrArg (List.range _).flatMap (funext hround)

theorem complaintOf_message {i : Nat} {answers : Nat → Answer} :
    ∀ x ∈ exchanges b i answers, complaintOf x.message = some x.message := by
  cases hsave : b.saveCtx <;> simp [exchanges, hsave, complaintOf, complaints]

theorem readsCommands : ReadsExchanges commandOf fun x => [x.command] where
  shown e h := by cases e <;> simp [Atecc.shown, commandOf] at h ⊢
  start b speed watch := by
    cases henergy : b.testEnergy <;> cases hmanual : b.manualOnOff <;> cases speed <;>
      simp [startEvents, pinEvents, speedEvents, powerEvents, henergy, hmanual, commandOf]
  opening b := by
    cases henergy : b.testEnergy <;> cases hwakes : b.wakesInTrigger <;>
      simp [openEvents, henergy, hwakes, commandOf]
  closing b := by cases henergy : b.testEnergy <;> simp [closeEvents, henergy, commandOf]
  stop b numIter watch := by
    cases hmanual : b.manualOnOff <;> simp [stopEvents, hmanual, commandOf]
  exchange b i answers x hx := by
    have hmessage : commandOf x.message = none := by
      have hline := complaintOf_message x hx
      revert hline
      cases x.message <;> simp [complaintOf, commandOf]
    have hnone : (complaint x.answer x.message).filterMap commandOf = [] := by
      rw [complaint]
      split
      · rw [List.filterMap_cons_none hmessage, List.filterMap_nil]
      · rfl
    have hcommand : commandOf (.command x.command x.answer.duration) = some x.command := rfl
    rw [Exchange.events, List.filterMap_cons_some hcommand, hnone]

theorem readsComplaints : ReadsExchanges complaintOf
    fun x => if x.failed then [x.message] else [] where
  shown e h := by cases e <;> simp [Atecc.shown, complaintOf] at h ⊢
  start b speed watch := by
    have hslow : (if b.noI2cReconf then "SLOW I2C" else "FAST I2C") ∉ complaints := by
      cases b.noI2cReconf <;> decide
    have hwakeup : (if b.periphI2cReconfigure then "GPIO WAKEUP" else "I2C WAKEUP") ∉
        complaints := by
      cases b.periphI2cReconfigure <;> decide
    have hsave : (if b.saveCtx then "SAVE CTX" else "NO SAVE CTX") ∉ complaints := by
      cases b.saveCtx <;> decide
    rw [List.filterMap_eq_nil_iff, startEvents]
    simp only [List.forall_mem_append, List.forall_mem_cons]
    refine ⟨?_, if_neg hslow, if_neg hwakeup, ?_, ?_, if_neg hsave, rfl, ?_⟩
    · cases henergy : b.testEnergy <;> simp [pinEvents, henergy, complaintOf]
    · cases speed <;> decide
    · cases hmanual : b.manualOnOff <;> simp [powerEvents, hmanual, complaintOf, complaints]
    · cases b.manualOnOff <;> decide
  opening b := by
    cases henergy : b.testEnergy <;> cases hwakes : b.wakesInTrigger <;>
      simp [openEvents, henergy, hwakes, complaintOf]
  closing b := by cases henergy : b.testEnergy <;> simp [closeEvents, henergy, complaintOf]
  stop b numIter watch := by
    rw [List.filterMap_eq_nil_iff, stopEvents, List.forall_mem_append]
    refine ⟨?_, List.forall_mem_cons.mpr ⟨rfl, List.forall_mem_singleton.mpr ?_⟩⟩
    · cases b.manualOnOff <;> decide
    · have hline : (if b.saveCtx then "ata_with_ctx_save: %i Bytes int %u us\n"
          else "ata_without_ctx_save: %i Bytes int %u us\n") ∉ complaints := by
        cases b.saveCtx <;> decide
      exact if_neg hline
  exchange b i answers x hx := by
    have hmessage := complaintOf_message x hx
    have hcommand : complaintOf (.command x.command x.answer.duration) = none := rfl
    rw [Exchange.events, List.filterMap_cons_none hcommand, complaint]
    by_cases hfailed : x.answer.status = atcaSuccess <;> simp [hmessage, hfailed, Exchange.failed]

/-- In any run, ended or not, the commands are those of the iterations that are made,
with the contexts that the chip has given, and the complaints are the messages of those
that failed, in order. -/
theorem failures_reported (b : Build) (speed : I2cSpeed) (max numIter : Nat) (watch : Stopwatch)
    (replies : Replies) (saved : Saved) (ins : List Reading) :
    let run := (main b speed max numIter watch replies).exec ins saved
    let made := List.range (started b numIter ins)
    run.trace.filterMap commandOf =
        made.flatMap (fun i => (exchanges b i (replies i)).map Exchange.command) ∧
      run.trace.filterMap complaintOf = made.flatMap fun i =>
        ((exchanges b i (replies i)).filter Exchange.failed).map Exchange.message := by
  have hfailed (xs : List Exchange) : xs.flatMap (fun x => if x.failed then [x.message] else []) =
      (xs.filter Exchange.failed).map Exchange.message := by
    induction xs with
    | nil => rfl
    | cons x xs ih =>
      rw [List.flatMap_cons, ih, List.filter_cons]
      split <;> rfl
  constructor
  · rw [filterMap_main readsCommands]
    exact congrArg (List.range _).flatMap (funext fun i => List.flatMap_pure_eq_map _ _)
  · rw [filterMap_main readsComplaints]
    simp only [hfailed]

end Failures

end Atecc
