import EwsnCrypto.Energy.Applications
import EwsnCrypto.Energy.Section5

/-!
# The two implementations of the handshake

The loop of section 5 and the trigger functions of section 6 keep the handshake
for every operation they may measure, and on the same readings of the sync pin
they produce the same pin accesses, reads and writes alike.
-/

open InputProgram Trigger EccSteps Windows EnergyHandshake EnergyApplications Section5

namespace Waveform

/-- A pin access without the calls and lines around it. -/
inductive PinEvent where
  | write (p : Pin) (high : Bool)
  | read (p : Pin) (high : Bool)
deriving DecidableEq

variable {C C' σ σ' α α' β β' : Type}

def pinEvent : Event C → Option PinEvent
  | .gpioWrite p high => some (.write p high)
  | .gpioRead p high => some (.read p high)
  | _ => none

def pinEvents (tr : List (Event C)) : List PinEvent := tr.filterMap pinEvent

/-- On the same readings both programs access the pins alike, read as far, and
finish or stop together. -/
def SamePins (p : App C σ α) (q : App C' σ' β) : Prop :=
  ∀ ins st st', pinEvents (p.exec ins st).trace = pinEvents (q.exec ins st').trace ∧
    (p.exec ins st).rest = (q.exec ins st').rest ∧
    (p.exec ins st).value.isSome = (q.exec ins st').value.isSome

/-- The rounds of the trigger pair around operations `op`, with `rest` behind each. -/
def pairRounds (b : Build) (n : Nat) (op : Nat → Operation C σ α)
    (rest : Nat → α → Operation C σ Unit) : App C σ Unit :=
  forRange n fun i => do
    let r ← measured b (op i).1
    (rest i r).1

section Congruence

theorem samePins_bind {p : App C σ α} {q : App C' σ' β} {f : α → App C σ α'}
    {g : β → App C' σ' β'} (hp : SamePins p q) (hf : ∀ a b, SamePins (f a) (g b)) :
    SamePins (p >>= f) (q >>= g) := by
  intro ins st st'
  obtain ⟨hpins, hrest, hvalue⟩ := hp ins st st'
  cases hv : (p.exec ins st).value with
  | none =>
    have hq : (q.exec ins st').value = none := by simpa [hv] using hvalue.symm
    rw [bind_exec, bind_exec, andThen_of_stopped hv, andThen_of_stopped hq]
    exact ⟨hpins, hrest, rfl⟩
  | some a =>
    cases hq : (q.exec ins st').value with
    | none => simp [hv, hq] at hvalue
    | some b =>
      rw [bind_exec, bind_exec, andThen_of_value hv, andThen_of_value hq, hrest]
      obtain ⟨hpins', hrest', hvalue'⟩ :=
        hf a b (q.exec ins st').rest (p.exec ins st).state (q.exec ins st').state
      refine ⟨?_, hrest', hvalue'⟩
      simp only [pinEvents, List.filterMap_append] at hpins hpins' ⊢
      rw [hpins, hpins']

theorem samePins_emit {e : Event C} {e' : Event C'} (h : pinEvent e = pinEvent e') :
    SamePins (emit e : App C σ Unit) (emit e' : App C' σ' Unit) := by
  intro ins st st'
  simp [pinEvents, List.filterMap_cons, h]

theorem samePins_pollWhile (again : Bool → Bool) :
    SamePins (pollWhile again (.gpioRead .sync) : App C σ Unit)
      (pollWhile again (.gpioRead .sync) : App C' σ' Unit) := by
  intro ins st st'
  induction ins with
  | nil => exact ⟨rfl, rfl, rfl⟩
  | cons i ins ih =>
    by_cases hi : again i = true
    · obtain ⟨hpins, hrest, hvalue⟩ := ih
      rw [pollWhile_again hi, pollWhile_again hi]
      refine ⟨?_, hrest, hvalue⟩
      simp only [pinEvents, List.filterMap_cons, pinEvent] at hpins ⊢
      rw [hpins]
    · rw [pollWhile_done hi, pollWhile_done hi]
      exact ⟨rfl, rfl, rfl⟩

theorem samePins_quiet {p : App C σ α} {q : App C' σ' β} (hp : Quiet p) (hq : Quiet q) :
    SamePins p q := by
  have hsilent {D ρ γ : Type} {p : App D ρ γ} (hp : Quiet p) (ins : List Bool) (st : ρ) :
      pinEvents (p.exec ins st).trace = [] := by
    refine filterMap_visible (fun e he => ?_) (hp.visible ins st)
    cases e <;> simp_all [pinEvent]
  intro ins st st'
  obtain ⟨a, ha⟩ := hp.finishes ins st
  obtain ⟨b, hb⟩ := hq.finishes ins st'
  refine ⟨?_, ?_, ?_⟩
  · rw [hsilent hp, hsilent hq]
  · rw [hp.rest, hq.rest]
  · rw [ha, hb]
    rfl

theorem samePins_forRange {n : Nat} {body : Nat → App C σ Unit} {body' : Nat → App C' σ' Unit}
    (h : ∀ i, SamePins (body i) (body' i)) : SamePins (forRange n body) (forRange n body') := by
  induction n with
  | zero => exact fun _ _ _ => ⟨rfl, rfl, rfl⟩
  | succ n ih => exact samePins_bind ih fun _ _ => h n

end Congruence

/-- The loop body of section 5 is the trigger pair of section 6 written out. -/
theorem frameRound_eq_measured {b : EnergyBuild} (hb : b.useXtimer = false)
    (op check : App C σ Unit) :
    frameRound b op check = (do measured (.measured true) op; check) := by
  simp [frameRound, measured, startTrigger, stopTrigger, Build.measured, hb]

section Quiet
variable {len : Nat}

theorem quiet_cipherCall (c : Aes.Call) (answer : Aes.Answer len) : Quiet (cipherCall c answer) :=
  .act fun _ e he => by rw [List.mem_singleton.mp he]; rfl

theorem quiet_operation (b : EnergyBuild) (v : Aes.TestVectors len) (t : CipherTest)
    (r : Aes.Replies len) : Quiet (operation b v t r) := by
  have hcall : Quiet (t.call v r) := by
    cases t with
    | cbcEnc => exact quiet_cipherCall _ _
    | cbcDec => exact quiet_cipherCall _ _
    | ecbEnc => exact quiet_cipherCall _ _
    | ecbDec => exact quiet_cipherCall _ _
  exact .bind (.onlyIf (.emit rfl)) fun _ => hcall

theorem quiet_checkData (dataExp : Aes.Buffer len) : Quiet (checkData dataExp) := by
  refine .act fun data e he => ?_
  split at he
  · rw [List.mem_singleton.mp he]
    rfl
  · simp at he

theorem quiet_sha256 (v : ShaVectors) (result : Digest) : Quiet (sha256 v result) :=
  .bind (.emit rfl) fun _ => .bind (.emit rfl) fun _ =>
    .act fun _ e he => by rw [List.mem_singleton.mp he]; rfl

theorem quiet_checkDigest (expected : Digest) : Quiet (checkDigest expected) := by
  refine .act fun data e he => ?_
  split at he
  · rw [List.mem_singleton.mp he]
    rfl
  · simp at he

theorem quiet_finish (b : EnergyBuild) : Quiet (finish b : App C σ Unit) :=
  .bind (.onlyIf (.bind (.emit rfl) fun _ => .emit rfl)) fun _ => .emit rfl

end Quiet

section Rounds
variable {init : List (Event C)} {b : EnergyBuild} {n : Nat}

theorem follows_round (hb : b.useXtimer = false) {op check : App C σ Unit} (hop : Quiet op)
    (hcheck : Quiet check) :
    Follows (monitor init) (Between init) (frameRound b op check) (Between init) := by
  rw [frameRound_eq_measured hb]
  exact follows_bind (follows_measured rfl hop) fun _ =>
    quiet_follows hcheck fun _ _ => Between.append

/-- The initialisation of section 5: `main`, `exp_frame` and `sha256_test_energy`. -/
def initEvents (before : List (Event C)) : List (Event C) :=
  [.gpioInit .active .output, .gpioWrite .active false, .gpioInit .aesKey .output,
    .gpioWrite .aesKey false] ++ (before ++ [.gpioWrite .active true, .gpioInit .sync .input])

theorem initEvents_idle {before : List (Event C)} (hbefore : ∀ e ∈ before, visible e = true) :
    PinsIdle true (initEvents before) := by
  have hwritten (p : Pin) : before.filterMap (writtenLevel p) = [] := by
    refine filterMap_visible (fun e he => ?_) hbefore
    cases e <;> simp_all [writtenLevel]
  have hactive : writes .active (initEvents before) = [false, true] := by
    simp [writes, initEvents, hwritten, List.filterMap_cons, writtenLevel]
  have haesKey : writes .aesKey (initEvents before) = [false] := by
    simp [writes, initEvents, hwritten, List.filterMap_cons, writtenLevel]
  simp [PinsIdle, level, hactive, haesKey]

/-- A program that emits `tr` and goes on with `p` on the same state. -/
theorem exec_after {init : List (Event C)} {first : App C σ Unit} {p : App C σ α}
    (hfirst : ∀ ins st, first.exec ins st = ⟨init, st, ins, some ()⟩) (ins : List Bool) (st : σ) :
    ((first >>= fun _ => p).exec ins st).trace = init ++ (p.exec ins st).trace := by
  rw [bind_exec, hfirst, andThen_some]

/-- What `exp_frame` does before its loop besides pins: with MODULE_CRYPTOAUTHLIB
the key is set there. -/
def beforeLoop {len : Nat} (cryptoauthlib : Bool) (v : Aes.TestVectors len)
    (r : Aes.Replies len) : List (Event Aes.Call) :=
  if cryptoauthlib then [.call (.aesInit v.key.toList) (decide (1 ≤ r.init))] else []

variable {len : Nat}

theorem aesMain_handshake (cryptoauthlib : Bool) (v : Aes.TestVectors len) (t : CipherTest)
    (n : Nat) (replies : Nat → Aes.Replies len) (ins : List Bool) (data : Aes.Buffer len) :
    ∃ tr, ((aesMain (.synchronised cryptoauthlib) v t n replies).exec ins data).trace =
        initEvents (beforeLoop cryptoauthlib v (replies 0)) ++ tr ∧
      Handshake (initEvents (beforeLoop cryptoauthlib v (replies 0))) tr := by
  have hbefore : ∀ e ∈ beforeLoop cryptoauthlib v (replies 0), visible e = true := by
    intro e he
    cases cryptoauthlib with
    | false => simp [beforeLoop] at he
    | true =>
      rw [beforeLoop, if_pos rfl, List.mem_singleton] at he
      rw [he]
      rfl
  have hrounds : Follows (monitor (initEvents (beforeLoop cryptoauthlib v (replies 0))))
      (Between _) (do expRounds (.synchronised cryptoauthlib) v t n replies
                      finish (.synchronised cryptoauthlib)) (Between _) :=
    follows_bind (follows_forRange fun i => follows_round rfl (quiet_operation _ v t (replies i))
      (quiet_checkData _)) fun _ => quiet_follows (quiet_finish _) fun _ _ => Between.append
  refine ⟨_, ?_, handshake_of_follows (initEvents_idle hbefore) hrounds ins data⟩
  rw [EnergyBuild.synchronised, aesMain_measured]
  refine exec_after (fun ins st => ?_) ins data
  cases cryptoauthlib <;> rfl

theorem sha256Main_handshake (v : ShaVectors) (n : Nat) (results : Nat → Digest)
    (ins : List Bool) (result : Digest) :
    ∃ tr, ((sha256Main (.synchronised false) v n results).exec ins result).trace =
        initEvents [] ++ tr ∧ Handshake (initEvents []) tr := by
  have hrounds : Follows (monitor (initEvents [])) (Between _)
      (do sha256Rounds (.synchronised false) v n results
          finish (.synchronised false)) (Between _) :=
    follows_bind (follows_forRange fun i => follows_round rfl (quiet_sha256 v (results i))
      (quiet_checkDigest _)) fun _ => quiet_follows (quiet_finish _) fun _ _ => Between.append
  have hmain : sha256Main (.synchronised false) v n results = (do
      (do initPins
          gpioSet .active
          gpioInit .sync .input)
      (do sha256Rounds (.synchronised false) v n results
          finish (.synchronised false))) := by
    simp [sha256Main, sha256TestEnergy, EnergyBuild.synchronised, EnergyBuild.measured,
      EnergyBuild.isMeasured, prepare]
  refine ⟨_, ?_, handshake_of_follows (initEvents_idle (by simp)) hrounds ins result⟩
  rw [hmain]
  exact exec_after (fun _ _ => rfl) ins result

theorem pairRounds_handshake (n : Nat) (op : Nat → Operation C σ α)
    (rest : Nat → α → Operation C σ Unit) (ins : List Bool) (st : σ) :
    ∃ tr, ((do initTrigger (.measured true)
               pairRounds (.measured true) n op rest : App C σ Unit).exec ins st).trace =
        triggerEvents ++ tr ∧ Handshake triggerEvents tr := by
  have hrounds : Follows (monitor triggerEvents) (Between _)
      (pairRounds (.measured true) n op rest) (Between _) :=
    follows_forRange fun i => follows_bind (follows_measured rfl (op i).2) fun r =>
      quiet_follows (rest i r).2 fun _ _ => Between.append
  have hidle : PinsIdle true ([] ++ triggerEvents : List (Event C)) := triggerEvents_idle (by simp)
  exact ⟨_, exec_after (initTrigger_exec rfl) ins st, handshake_of_follows hidle hrounds ins st⟩

end Rounds

section Operation

/-- A finished polling loop has logged the inputs that it has read. -/
theorem pollWhile_finished {again : Bool → Bool} {log : Bool → Event C} {ins : List Bool} {st : σ}
    (h : ((pollWhile again log : App C σ Unit).exec ins st).value = some ()) :
    ∃ xs ins', ins = xs ++ ins' ∧
      (pollWhile again log : App C σ Unit).exec ins st = ⟨xs.map log, st, ins', some ()⟩ := by
  induction ins with
  | nil => simp at h
  | cons i ins ih =>
    by_cases hi : again i = true
    · rw [pollWhile_again hi] at h
      obtain ⟨xs, ins', rfl, hexec⟩ := ih h
      exact ⟨i :: xs, ins', rfl, by rw [pollWhile_again hi, hexec, List.map_cons]⟩
    · exact ⟨[i], ins, rfl, pollWhile_done hi log ins st⟩

/-- A finished measurement: readings, start-low, the operation, stop-high,
start-high, stop-low. -/
theorem measured_trace {op : App C σ α} (hop : Quiet op) {ins : List Bool} {st : σ} {r : α}
    (h : ((measured (.measured true) op).exec ins st).value = some r) :
    ∃ xs ins', ins = xs ++ ins' ∧ ((measured (.measured true) op).exec ins st).trace =
      xs.map (.gpioRead .sync) ++ .gpioWrite .active false :: ((op.exec ins' st).trace ++
        [.gpioWrite .aesKey true, .gpioWrite .active true, .gpioWrite .aesKey false]) := by
  have hmeasured : measured (.measured true) op = (do
      whileSyncHigh
      whileSyncLow
      gpioClear .active
      let r ← op
      gpioSet .aesKey
      gpioSet .active
      gpioClear .aesKey
      pure r) := by
    simp [measured, startTrigger, stopTrigger, Build.measured]
  rw [hmeasured] at h ⊢
  obtain ⟨_, hhigh, hnext⟩ := andThen_value_some h
  obtain ⟨xs, ins₁, rfl, hexec⟩ := pollWhile_finished hhigh
  have hexec₁ : (whileSyncHigh : App C σ Unit).exec (xs ++ ins₁) st = _ := hexec
  rw [hexec₁] at hnext
  obtain ⟨_, hlow, _⟩ := andThen_value_some hnext
  obtain ⟨ys, ins₂, rfl, hexec'⟩ := pollWhile_finished hlow
  have hexec₂ : (whileSyncLow : App C σ Unit).exec (ys ++ ins₂) st = _ := hexec'
  obtain ⟨a, ha⟩ := hop.finishes ins₂ st
  refine ⟨xs ++ ys, ins₂, by rw [List.append_assoc], ?_⟩
  rw [bind_exec, hexec₁, andThen_some, bind_exec, hexec₂, andThen_some]
  simp [gpioClear, gpioSet, andThen_of_value ha]

end Operation

/-- Both implementations keep the handshake in every run, that of section 6 in the
eight applications and around any operations; the loop body of section 5 is the
trigger pair written out, around which the operation lies between the falling edge
of start and the rising edge of stop; and the same readings yield the same pin
accesses. -/
theorem implementations_agree {C σ α Priv Pub Secret Sig : Type} [DecidableEq Secret] {len : Nat}
    (n : Nat) (ins : List Bool) (op : Nat → Operation C σ α)
    (rest : Nat → α → Operation C σ Unit) (st : σ)
    (cryptoauthlib : Bool) (v : Aes.TestVectors len) (t : CipherTest)
    (replies : Nat → Aes.Replies len) (data : Aes.Buffer len) (w : ShaVectors)
    (results : Nat → Digest) (result : Digest) :
    (∃ tr, ((aesMain (.synchronised cryptoauthlib) v t n replies).exec ins data).trace =
        initEvents (beforeLoop cryptoauthlib v (replies 0)) ++ tr ∧
      Handshake (initEvents (beforeLoop cryptoauthlib v (replies 0))) tr) ∧
    (∃ tr, ((sha256Main (.synchronised false) w n results).exec ins result).trace =
        initEvents [] ++ tr ∧ Handshake (initEvents []) tr) ∧
    (∃ tr, ((do initTrigger (.measured true)
                pairRounds (.measured true) n op rest : App C σ Unit).exec ins st).trace =
        triggerEvents ++ tr ∧ Handshake triggerEvents tr) ∧
    (∀ (lib : Ecdh.Library) (replies : Nat → Ecdh.Replies Priv Pub Secret)
      (m : Ecdh.Memory Priv Pub Secret),
      KeepsHandshake ((lib.application.main (.measured true) n replies).exec ins m).trace) ∧
    (∀ (lib : Ecdsa.Library) (replies : Nat → Ecdsa.Replies Priv Pub Sig) (msg : Ecdsa.Message)
      (m : Ecdsa.Memory Priv Pub Sig),
      KeepsHandshake ((lib.application.main (.measured true) n replies msg).exec ins m).trace) ∧
    (∀ body check : App C σ Unit, frameRound (.synchronised cryptoauthlib) body check =
      (do measured (.measured true) body; check)) ∧
    (∀ i r, ((measured (.measured true) (op i).1).exec ins st).value = some r →
      ∃ xs ins', ins = xs ++ ins' ∧ ((measured (.measured true) (op i).1).exec ins st).trace =
        xs.map (.gpioRead .sync) ++ .gpioWrite .active false :: (((op i).1.exec ins' st).trace ++
          [.gpioWrite .aesKey true, .gpioWrite .active true, .gpioWrite .aesKey false])) ∧
    SamePins (expRounds (.synchronised cryptoauthlib) v t n replies)
      (pairRounds (.measured true) n op rest) ∧
    SamePins (sha256Rounds (.synchronised false) w n results)
      (pairRounds (.measured true) n op rest) := by
  have hround {C' σ' : Type} {b : EnergyBuild} (hb : b.useXtimer = false) (i : Nat)
      {body check : App C' σ' Unit} (hbody : Quiet body) (hcheck : Quiet check) :
      SamePins (frameRound b body check)
        (do let r ← measured (.measured true) (op i).1; (rest i r).1) := by
    have hop : SamePins (measured (.measured true) body) (measured (.measured true) (op i).1) := by
      simp only [measured, startTrigger, stopTrigger, Build.measured, if_true]
      refine samePins_bind (samePins_bind (samePins_pollWhile id) fun _ _ =>
        samePins_bind (samePins_pollWhile not) fun _ _ => samePins_emit rfl) fun _ _ => ?_
      refine samePins_bind (samePins_quiet hbody (op i).2) fun _ _ => ?_
      refine samePins_bind (samePins_bind (samePins_emit rfl) fun _ _ =>
        samePins_bind (samePins_emit rfl) fun _ _ => samePins_emit rfl) fun _ _ => ?_
      exact samePins_quiet (.pure _) (.pure _)
    rw [frameRound_eq_measured hb]
    exact samePins_bind hop fun _ r => samePins_quiet hcheck (rest i r).2
  refine ⟨aesMain_handshake _ _ _ _ _ _ _, sha256Main_handshake _ _ _ _ _,
    pairRounds_handshake _ _ _ _ _,
    fun lib replies m => ecdhMain_handshake lib rfl rfl n replies ins m,
    fun lib replies msg m => ecdsaMain_handshake lib (by cases lib <;> rfl) rfl n replies msg ins m,
    fun _ _ => frameRound_eq_measured rfl _ _, fun i _ => measured_trace (op i).2, ?_, ?_⟩
  · exact samePins_forRange fun i =>
      hround rfl i (quiet_operation _ v t (replies i)) (quiet_checkData _)
  · exact samePins_forRange fun i => hround rfl i (quiet_sha256 w (results i))
      (quiet_checkDigest _)

end Waveform
