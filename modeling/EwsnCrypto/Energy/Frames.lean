import EwsnCrypto.Energy.Masking
import EwsnCrypto.Energy.Pulses
import EwsnCrypto.Energy.Waveform
import EwsnCrypto.Hashes.Model

/-!
# What the energy measurements of section 5 show

A run shows its initialisation, one whole round for every pulse that came, and the
last line if there were pulses for all rounds. The timer builds do not wait, and show
all rounds. LED0 tells of the round whose output is wrong, for the cipher tests
of the bytes that earlier rounds have left as well.
-/

open InputProgram Trigger EccSteps EnergyHandshake Section5 Waveform Masking Pulses Hashes

namespace Frames

variable {C σ : Type}

/-- The events of a round around its calls. -/
def roundEvents (calls : List (Event C)) (differs : Bool) : List (Event C) :=
  .gpioWrite .active false :: calls ++ [.gpioWrite .aesKey true, .gpioWrite .active true,
    .gpioWrite .aesKey false] ++ if differs then [.led0On] else []

/-- The rounds that are made where the sync pin reads `ins`. -/
def answered (b : EnergyBuild) (n : Nat) (ins : List Bool) : Nat :=
  if b.useXtimer then n else min (rises ins) n

/-- Runs of `p` show `init`, the rounds that are answered, and the last line behind the
last of them, where they end. -/
structure ShowsRounds (b : EnergyBuild) (p : App C σ Unit) (st : σ) (init : List (Event C))
    (round : Nat → List (Event C)) (n : Nat) : Prop where
  trace : ∀ ins, (p.exec ins st).trace.filter shown =
    init ++ (List.range (answered b n ins)).flatMap round ++
      if answered b n ins = n then [.puts "DONE"] else []
  finishes : ∀ ins, (p.exec ins st).value = some () ↔ answered b n ins = n

section Rounds
variable {b : EnergyBuild} {st st' st'' : σ}

/-- A round behind its pulse. -/
theorem window_exec {op check : App C σ Unit} {calls : List (Event C)} {differs : Bool}
    (hop : ∀ ins, op.exec ins st = ⟨calls, st', ins, some ()⟩)
    (hcheck : ∀ ins, check.exec ins st' = ⟨if differs then [.led0On] else [], st'', ins, some ()⟩)
    (ins : List Bool) :
    (do gpioClear .active
        op
        gpioSet .aesKey
        gpioSet .active
        gpioClear .aesKey
        check : App C σ Unit).exec ins st = ⟨roundEvents calls differs, st'', ins, some ()⟩ := by
  simp [gpioClear, gpioSet, hop, hcheck, roundEvents]

/-- With a timer nothing is waited for. -/
theorem timedRound_exec (hb : b.useXtimer = true) {op check : App C σ Unit}
    {calls : List (Event C)} {differs : Bool}
    (hop : ∀ ins, op.exec ins st = ⟨calls, st', ins, some ()⟩)
    (hcheck : ∀ ins, check.exec ins st' = ⟨if differs then [.led0On] else [], st'', ins, some ()⟩)
    (ins : List Bool) :
    (frameRound b op check).exec ins st = ⟨roundEvents calls differs, st'', ins, some ()⟩ := by
  simp only [frameRound, hb, Bool.not_true, onlyIf_false, pure_bind]
  exact window_exec hop hcheck ins

theorem shown_roundEvents {calls : List (Event C)} (hcalls : ∀ e ∈ calls, visible e = true)
    (differs : Bool) : (roundEvents calls differs).filter shown = roundEvents calls differs := by
  refine List.filter_eq_self.mpr fun e he => ?_
  simp only [roundEvents, List.mem_cons, List.mem_append, List.not_mem_nil, or_false] at he
  rcases he with ((rfl | hcall) | rfl | rfl | rfl) | hled
  · rfl
  · have hvisible := hcalls e hcall
    cases e <;> first | rfl | simp at hvisible
  · rfl
  · rfl
  · rfl
  · cases differs with
    | false => simp at hled
    | true =>
      rw [if_pos rfl, List.mem_singleton] at hled
      rw [hled]
      rfl

/-- A round waits for a pulse and answers it. -/
theorem holds_round (hb : b.useXtimer = false) {op check : App C σ Unit} {calls : List (Event C)}
    {differs : Bool} (hop : ∀ ins, op.exec ins st = ⟨calls, st', ins, some ()⟩)
    (hcheck : ∀ ins, check.exec ins st' = ⟨if differs then [.led0On] else [], st'', ins, some ()⟩)
    (hcalls : ∀ e ∈ calls, visible e = true) :
    Holds rises shown (frameRound b op check) ⟨[], [roundEvents calls differs]⟩ () st st'' := by
  have hframe : frameRound b op check = (whileSyncHigh >>= fun _ => whileSyncLow) >>= fun _ => (do
      gpioClear .active
      op
      gpioSet .aesKey
      gpioSet .active
      gpioClear .aesKey
      check) := by
    simp [frameRound, hb]
  have hwindow : Holds rises shown _ _ () st st'' := holds_of_exec (window_exec hop hcheck)
  rw [shown_roundEvents hcalls] at hwindow
  rw [hframe]
  exact holds_bind (holds_pulse st) (f := fun _ => _) hwindow

end Rounds

section Runs
variable {b : EnergyBuild} {first : App C σ Unit} {init : List (Event C)}
variable {op check : Nat → App C σ Unit} {calls : Nat → List (Event C)} {differs : Nat → Bool}
variable {s mid : Nat → σ}

theorem finish_exec (hb : b.testStack = false) (st : σ) (ins : List Bool) :
    (finish b : App C σ Unit).exec ins st = ⟨[.puts "DONE"], st, ins, some ()⟩ := by
  simp [finish, hb, puts]

section Checked
variable (hb : b.testStack = false)
  (hfirst : ∀ ins, first.exec ins (s 0) = ⟨init, s 0, ins, some ()⟩)
  (hinit : ∀ e ∈ init, shown e = true)
  (hop : ∀ i ins, (op i).exec ins (s i) = ⟨calls i, mid i, ins, some ()⟩)
  (hcheck : ∀ i ins, (check i).exec ins (mid i) =
    ⟨if differs i then [.led0On] else [], s (i + 1), ins, some ()⟩)
  (hcalls : ∀ i, ∀ e ∈ calls i, visible e = true)
include hb hfirst hinit hop hcheck hcalls

theorem showsRounds_timed (htimer : b.useXtimer = true) (n : Nat) :
    ShowsRounds b (do first; forRange n (fun i => frameRound b (op i) (check i)); finish b)
      (s 0) init (fun i => roundEvents (calls i) (differs i)) n := by
  have hrounds (ins : List Bool) := forRange_exec (n := n) s _
    (fun i => timedRound_exec htimer (hop i) (hcheck i)) ins
  have hexec (ins : List Bool) :
      (do first; forRange n (fun i => frameRound b (op i) (check i)); finish b).exec ins (s 0) =
        ⟨init ++ ((List.range n).flatMap (fun i => roundEvents (calls i) (differs i)) ++
          [.puts "DONE"]), s n, ins, some ()⟩ := by
    rw [bind_exec, hfirst, andThen_some, bind_exec, hrounds, andThen_some, finish_exec hb]
  have hall (ins : List Bool) : answered b n ins = n := by rw [answered, htimer, if_pos rfl]
  constructor
  · intro ins
    have hshown : ((List.range n).flatMap fun i => roundEvents (calls i) (differs i)).filter
        shown = (List.range n).flatMap fun i => roundEvents (calls i) (differs i) := by
      rw [List.filter_flatMap]
      exact congrArg (List.range n).flatMap (funext fun i => shown_roundEvents (hcalls i) _)
    rw [hexec, hall, if_pos rfl, List.filter_append, List.filter_append,
      List.filter_eq_self.mpr hinit, hshown, List.append_assoc]
    rfl
  · intro ins
    rw [hexec, hall]
    exact ⟨fun _ => rfl, fun _ => rfl⟩

theorem showsRounds_synchronised (htimer : b.useXtimer = false) (n : Nat) :
    ShowsRounds b (do first; forRange n (fun i => frameRound b (op i) (check i)); finish b)
      (s 0) init (fun i => roundEvents (calls i) (differs i)) n := by
  have hstart : Holds rises shown first ⟨init, []⟩ () (s 0) (s 0) := by
    have h : Holds rises shown first _ () (s 0) (s 0) := holds_of_exec hfirst
    rwa [List.filter_eq_self.mpr hinit] at h
  have hdone : Holds rises shown (finish b : App C σ Unit) ⟨[.puts "DONE"], []⟩ () (s n) (s n) :=
    holds_of_exec (finish_exec hb (s n))
  have hrun := rounds_run hstart
    (fun i => holds_round htimer (hop i) (hcheck i) (hcalls i)) hdone
  have hanswered (ins : List Bool) : answered b n ins = min (rises ins) n := by
    rw [answered, htimer]
    rfl
  have hend (ins : List Bool) : min (rises ins) n = n ↔ n ≤ rises ins := by omega
  constructor
  · intro ins
    simp only [hanswered, hend]
    exact (hrun ins).1
  · intro ins
    rw [hanswered, hend]
    exact (hrun ins).2

theorem showsRounds (n : Nat) :
    ShowsRounds b (do first; forRange n (fun i => frameRound b (op i) (check i)); finish b)
      (s 0) init (fun i => roundEvents (calls i) (differs i)) n := by
  cases htimer : b.useXtimer with
  | true => exact showsRounds_timed hb hfirst hinit hop hcheck hcalls htimer n
  | false => exact showsRounds_synchronised hb hfirst hinit hop hcheck hcalls htimer n

end Checked

end Runs

/-- What a measured build does before its loop; `before` is what `exp_frame` does there
besides pins. -/
def startEvents (useXtimer : Bool) (sleep : C) (before : List (Event C)) : List (Event C) :=
  [.gpioInit .active .output, .gpioWrite .active false, .gpioInit .aesKey .output,
    .gpioWrite .aesKey false] ++ (before ++ [.gpioWrite .active true,
      if useXtimer then .call sleep true else .gpioInit .sync .input])

theorem shown_startEvents {useXtimer : Bool} {sleep : C} {before : List (Event C)}
    (hbefore : ∀ e ∈ before, shown e = true) :
    ∀ e ∈ startEvents useXtimer sleep before, shown e = true := by
  intro e he
  simp only [startEvents, List.mem_append, List.mem_cons, List.not_mem_nil, or_false] at he
  rcases he with (rfl | rfl | rfl | rfl) | hbefore' | rfl | rfl
  · rfl
  · rfl
  · rfl
  · rfl
  · exact hbefore e hbefore'
  · rfl
  · cases useXtimer <;> rfl

/-- The LED is switched on once in each round that is answered and differs. -/
theorem ShowsRounds.led_count [DecidableEq C] {b : EnergyBuild} {p : App C σ Unit} {st : σ}
    {init : List (Event C)} {calls : Nat → List (Event C)} {differs : Nat → Bool} {n : Nat}
    (h : ShowsRounds b p st init (fun i => roundEvents (calls i) (differs i)) n)
    (hinit : .led0On ∉ init) (hcalls : ∀ i, .led0On ∉ calls i) (ins : List Bool) :
    (p.exec ins st).trace.count .led0On = (List.range (answered b n ins)).countP differs := by
  have hround (i : Nat) : (roundEvents (calls i) (differs i)).count .led0On =
      if differs i then 1 else 0 := by
    have hnone : (calls i).count .led0On = 0 := List.count_eq_zero_of_not_mem (hcalls i)
    cases hd : differs i <;> simp [roundEvents, List.count_append, hnone]
  have hrounds (k : Nat) : ((List.range k).flatMap fun i => roundEvents (calls i) (differs i)).count
      .led0On = (List.range k).countP differs := by
    induction k with
    | zero => rfl
    | succ k ih =>
      rw [List.range_succ, List.flatMap_append, List.count_append, ih, List.countP_append]
      simp [hround]
  have hline : (if answered b n ins = n then [.puts "DONE"] else [] : List (Event C)).count
      .led0On = 0 := by
    split <;> simp
  have hfilter : (p.exec ins st).trace.count .led0On =
      ((p.exec ins st).trace.filter shown).count .led0On := (List.count_filter rfl).symm
  rw [hfilter, h.trace, List.count_append, List.count_append, hrounds, hline,
    List.count_eq_zero_of_not_mem hinit, Nat.zero_add, Nat.add_zero]

section Aes
open Aes
variable {len : Nat}

/-- The library function that is measured, and its input. -/
def request (v : TestVectors len) : CipherTest → Call
  | .cbcEnc => .aesEncryptCbc v.cbcIv.toList v.cbcPlain.toList
  | .cbcDec => .aesDecryptCbc v.cbcIv.toList v.cbcCipher.toList
  | .ecbEnc => .aesEncryptEcb v.ecbPlain.toList
  | .ecbDec => .aesDecryptEcb v.ecbCipher.toList

/-- The calls of a round of `exp_frame`. Without MODULE_CRYPTOAUTHLIB the key is set in the
window. -/
def aesCalls (cryptoauthlib : Bool) (v : TestVectors len) (t : CipherTest) (r : Replies len) :
    List (Event Call) :=
  (if cryptoauthlib then [] else [.call (.aesInit v.key.toList) (decide (1 ≤ r.init))]) ++
    [.call (request v t) (decide (0 ≤ (t.answer r).code))]

theorem operation_exec (useXtimer cryptoauthlib : Bool) (v : TestVectors len) (t : CipherTest)
    (r : Replies len) (data : Buffer len) (ins : List Bool) :
    (operation (.measured useXtimer cryptoauthlib) v t r).exec ins data =
      ⟨aesCalls cryptoauthlib v t r, patch (t.answer r).writes data, ins, some ()⟩ := by
  cases t <;> cases cryptoauthlib <;> rfl

/-- The four cipher tests: a round sets the LED iff the buffer, which all rounds share,
does not hold the expected bytes behind it. -/
theorem aes_frames (useXtimer cryptoauthlib : Bool) (v : TestVectors len) (t : CipherTest) (n : Nat)
    (replies : Nat → Replies len) (data : Buffer len) :
    ShowsRounds (.measured useXtimer cryptoauthlib)
      (aesMain (.measured useXtimer cryptoauthlib) v t n replies) data
      (startEvents useXtimer (.xtimerSleep 5) (beforeLoop cryptoauthlib v (replies 0)))
      (fun i => roundEvents (aesCalls cryptoauthlib v t (replies i))
        (decide (bufferAfter t replies data (i + 1) ≠ t.expected v))) n := by
  have hbefore : ∀ e ∈ beforeLoop cryptoauthlib v (replies 0), shown e = true := by
    intro e he
    cases cryptoauthlib with
    | false => simp [beforeLoop] at he
    | true =>
      rw [beforeLoop, if_pos rfl, List.mem_singleton] at he
      rw [he]
      rfl
  have hcalls (i : Nat) : ∀ e ∈ aesCalls cryptoauthlib v t (replies i), visible e = true := by
    cases cryptoauthlib <;> simp [aesCalls]
  have hstart (ins : List Bool) :
      (aesStart (.measured useXtimer cryptoauthlib) v (replies 0)).exec ins data =
        ⟨startEvents useXtimer (.xtimerSleep 5) (beforeLoop cryptoauthlib v (replies 0)), data, ins,
          some ()⟩ := by
    cases useXtimer <;> cases cryptoauthlib <;> rfl
  have hcheck (i : Nat) (ins : List Bool) :
      (checkData (t.expected v)).exec ins (bufferAfter t replies data (i + 1)) =
        ⟨if decide (bufferAfter t replies data (i + 1) ≠ t.expected v) then [.led0On] else [],
          bufferAfter t replies data (i + 1), ins, some ()⟩ := by
    simp [checkData]
  rw [aesMain_measured]
  exact showsRounds (s := bufferAfter t replies data) rfl hstart (shown_startEvents hbefore)
    (fun i => operation_exec useXtimer cryptoauthlib v t (replies i) _) hcheck hcalls n

end Aes

section Hash
variable {n : Nat} {results : Nat → Digest} {result : Digest}

/-- The digest behind `i` rounds. -/
def digestAfter (results : Nat → Digest) (result : Digest) : Nat → Digest
  | 0 => result
  | i + 1 => results i

def sha256Calls (v : ShaVectors) : List (Event HashCall) :=
  [.call .sha256Init true, .call (.sha256Update v.input v.size) true, .call .sha256Final true]

def hmacCalls (v : HmacVectors) : List (Event HmacCall) :=
  [.call (.hmacSha256Init v.key v.keySize) true, .call (.hmacSha256Update v.input v.size) true,
    .call .hmacSha256Final true]

theorem sha256_frames (useXtimer : Bool) (v : ShaVectors) (n : Nat) (results : Nat → Digest)
    (result : Digest) :
    ShowsRounds (.measured useXtimer false) (sha256Main (.measured useXtimer false) v n results)
      result (startEvents useXtimer (.xtimerSleep 5) [])
      (fun i => roundEvents (sha256Calls v) (decide (results i ≠ v.expected))) n := by
  have hmain : sha256Main (.measured useXtimer false) v n results = (do
      (do initPins
          prepare (.measured useXtimer false) (.xtimerSleep 5))
      sha256Rounds (.measured useXtimer false) v n results
      finish (.measured useXtimer false)) := by
    simp [sha256Main, sha256TestEnergy, EnergyBuild.measured, EnergyBuild.isMeasured]
  have hstart (ins : List Bool) : (do
      initPins
      prepare (.measured useXtimer false) (.xtimerSleep 5) : HashApp Unit).exec ins result =
        ⟨startEvents useXtimer (.xtimerSleep 5) [], result, ins, some ()⟩ := by
    cases useXtimer <;> rfl
  have hcheck (i : Nat) (ins : List Bool) :
      (checkDigest v.expected).exec ins (digestAfter results result (i + 1)) =
        ⟨if decide (results i ≠ v.expected) then [.led0On] else [],
          digestAfter results result (i + 1), ins, some ()⟩ := by
    simp [checkDigest, digestAfter]
  rw [hmain]
  exact showsRounds (s := digestAfter results result) rfl hstart (shown_startEvents (by simp))
    (fun i _ => rfl) hcheck (fun i => by simp [sha256Calls]) n

theorem hmac_frames (useXtimer : Bool) (v : HmacVectors) (n : Nat) (results : Nat → Digest)
    (result : Digest) :
    ShowsRounds (.measured useXtimer false)
      (hmacSha256Main (.measured useXtimer false) v n results) result
      (startEvents useXtimer (.xtimerSleep 5) [])
      (fun i => roundEvents (hmacCalls v) (decide (results i ≠ v.expected))) n := by
  have hmain : hmacSha256Main (.measured useXtimer false) v n results = (do
      (do initPins
          prepare (.measured useXtimer false) (.xtimerSleep 5))
      hmacSha256Rounds (.measured useXtimer false) v n results
      finish (.measured useXtimer false)) := by
    simp [hmacSha256Main, hmacSha256TestEnergy, EnergyBuild.measured, EnergyBuild.isMeasured]
  have hstart (ins : List Bool) : (do
      initPins
      prepare (.measured useXtimer false) (.xtimerSleep 5) : HmacApp Unit).exec ins result =
        ⟨startEvents useXtimer (.xtimerSleep 5) [], result, ins, some ()⟩ := by
    cases useXtimer <;> rfl
  have hcheck (i : Nat) (ins : List Bool) :
      (checkHmac v.expected).exec ins (digestAfter results result (i + 1)) =
        ⟨if decide (results i ≠ v.expected) then [.led0On] else [],
          digestAfter results result (i + 1), ins, some ()⟩ := by
    simp [checkHmac, digestAfter]
  rw [hmain]
  exact showsRounds (s := digestAfter results result) rfl hstart (shown_startEvents (by simp))
    (fun i _ => rfl) hcheck (fun i => by simp [hmacCalls]) n

/-- A call of a run is one of its start or of a round. -/
theorem ShowsRounds.call_mem {b : EnergyBuild} {p : App C σ Unit} {st : σ} {init : List (Event C)}
    {calls : Nat → List (Event C)} {differs : Nat → Bool} {n : Nat}
    (h : ShowsRounds b p st init (fun i => roundEvents (calls i) (differs i)) n) {ins : List Bool}
    {c : C} {ok : Bool} (hmem : .call c ok ∈ (p.exec ins st).trace) :
    .call c ok ∈ init ∨ ∃ i, .call c ok ∈ calls i := by
  have hround (i : Nat) (hcall : .call c ok ∈ roundEvents (calls i) (differs i)) :
      .call c ok ∈ calls i := by
    cases hd : differs i <;> simpa [roundEvents, hd] using hcall
  have hshown : .call c ok ∈ (p.exec ins st).trace.filter shown :=
    List.mem_filter.mpr ⟨hmem, rfl⟩
  rw [h.trace, List.mem_append, List.mem_append] at hshown
  rcases hshown with (hinit | hrounds) | hline
  · exact .inl hinit
  · obtain ⟨i, _, hcall⟩ := List.mem_flatMap.mp hrounds
    exact .inr ⟨i, hround i hcall⟩
  · split at hline <;> simp at hline

/-- The call reads no byte behind its input. -/
def sha256InBounds : HashCall → Prop
  | .sha256Update data size => size ≤ data.length
  | _ => True

/-- The call reads no byte behind its key or its input. -/
def hmacInBounds : HmacCall → Prop
  | .hmacSha256Init key keySize => keySize ≤ key.length
  | .hmacSha256Update data size => size ≤ data.length
  | _ => True

/-- With the vectors of the source, which give each size beside its data, no run of a hash
measurement reads behind them. -/
theorem hashes_in_bounds (useXtimer hmac64 input512 : Bool) (n : Nat) (results : Nat → Digest)
    (result : Digest) (ins : List Bool) :
    (∀ c ok, .call c ok ∈ ((sha256Main (.measured useXtimer false) (shaVectors input512) n
        results).exec ins result).trace → sha256InBounds c) ∧
      ∀ c ok, .call c ok ∈ ((hmacSha256Main (.measured useXtimer false)
        (hmacVectors hmac64 input512) n results).exec ins result).trace → hmacInBounds c := by
  obtain ⟨hsha, hinput, hkey⟩ := sizes_fit hmac64 input512
  constructor
  · intro c ok hmem
    rcases (sha256_frames useXtimer _ n results result).call_mem hmem with hinit | ⟨_, hcall⟩
    · cases useXtimer <;> simp [startEvents] at hinit
      rw [hinit.1]
      trivial
    · simp only [sha256Calls, List.mem_cons, Event.call.injEq, List.not_mem_nil, or_false] at hcall
      rcases hcall with ⟨rfl, _⟩ | ⟨rfl, _⟩ | ⟨rfl, _⟩
      · trivial
      · exact hsha.le
      · trivial
  · intro c ok hmem
    rcases (hmac_frames useXtimer _ n results result).call_mem hmem with hinit | ⟨_, hcall⟩
    · cases useXtimer <;> simp [startEvents] at hinit
      rw [hinit.1]
      trivial
    · simp only [hmacCalls, List.mem_cons, Event.call.injEq, List.not_mem_nil, or_false] at hcall
      rcases hcall with ⟨rfl, _⟩ | ⟨rfl, _⟩ | ⟨rfl, _⟩
      · exact hkey
      · exact hinput.le
      · trivial

/-- In the hash tests no round hides a fault of another one: in any run, ended or not, as
many rounds have switched the LED on as had a wrong digest. -/
theorem hash_led_exact (useXtimer : Bool) (v : ShaVectors) (w : HmacVectors) (n : Nat)
    (results : Nat → Digest) (result : Digest) (ins : List Bool) :
    ((sha256Main (.measured useXtimer false) v n results).exec ins result).trace.count .led0On =
        (List.range (answered (.measured useXtimer false) n ins)).countP
          (fun i => decide (results i ≠ v.expected)) ∧
      ((hmacSha256Main (.measured useXtimer false) w n results).exec ins result).trace.count
          .led0On =
        (List.range (answered (.measured useXtimer false) n ins)).countP
          fun i => decide (results i ≠ w.expected) := by
  constructor
  · refine (sha256_frames useXtimer v n results result).led_count ?_ ?_ ins
    · cases useXtimer <;> simp [startEvents]
    · simp [sha256Calls]
  · refine (hmac_frames useXtimer w n results result).led_count ?_ ?_ ins
    · cases useXtimer <;> simp [startEvents]
    · simp [hmacCalls]

end Hash

end Frames
