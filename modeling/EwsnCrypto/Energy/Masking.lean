import EwsnCrypto.Ecc.Steps
import EwsnCrypto.Energy.Section5

/-!
# What a dark LED says about an AES energy measurement

The rounds of `exp_frame` share one output buffer that nobody clears, and no return
code is looked at. The only check compares the buffer with the expected bytes, so
that a call which fails after a good one is not seen.
-/

open InputProgram Trigger EccSteps Section5 Aes

namespace Masking

variable {len n : Nat}

/-- The cipher call of a round succeeds and writes all the expected bytes itself. -/
def Genuine (v : TestVectors len) (t : CipherTest) (r : Replies len) : Prop :=
  0 ≤ (t.answer r).code ∧ Produces (t.answer r).writes (t.expected v)

/-- If a run ends and LED0 was never switched on, every round was genuine. -/
def Sound (b : EnergyBuild) (v : TestVectors len) (t : CipherTest) (n : Nat)
    (replies : Nat → Replies len) (data : Buffer len) : Prop :=
  ∀ ins, ((aesMain b v t n replies).exec ins data).value = some () →
    .led0On ∉ ((aesMain b v t n replies).exec ins data).trace → ∀ i < n, Genuine v t (replies i)

/-- No call writes a wrong byte, and what the first call does not write is right
already. -/
structure Undetected (v : TestVectors len) (t : CipherTest) (n : Nat) (replies : Nat → Replies len)
    (data : Buffer len) : Prop where
  first : 0 < n → Covered (t.answer (replies 0)).writes data (t.expected v)
  harmless : ∀ i < n, Harmless (t.answer (replies i)).writes (t.expected v)

/-- The buffer after `i` rounds. -/
def bufferAfter (t : CipherTest) (replies : Nat → Replies len) (data : Buffer len) :
    Nat → Buffer len
  | 0 => data
  | i + 1 => patch (t.answer (replies i)).writes (bufferAfter t replies data i)

section Buffer
variable {v : TestVectors len} {t : CipherTest} {replies : Nat → Replies len} {data : Buffer len}

/-- Every comparison finds the expected bytes iff nothing gives a faulty call away. -/
theorem matches_iff : (∀ i < n, bufferAfter t replies data (i + 1) = t.expected v) ↔
    Undetected v t n replies data := by
  constructor
  · intro hmatch
    constructor
    · intro hn
      exact (patch_eq_iff.mp (hmatch 0 hn)).2
    · intro i hi
      exact (patch_eq_iff.mp (hmatch i hi)).1
  · rintro ⟨hfirst, hharmless⟩ i hi
    induction i with
    | zero => exact patch_eq_iff.mpr ⟨hharmless 0 hi, hfirst hi⟩
    | succ i ih =>
      rw [bufferAfter, ih (by omega)]
      exact patch_self_iff.mpr (hharmless (i + 1) hi)

end Buffer

section Rounds
variable {C σ : Type} {b : EnergyBuild} {e : Event C} {m m' m'' : σ} {tr tr' : List (Event C)}

/-- A round does its operation and its check, or waits before both. -/
theorem does_round {op check : App C σ Unit} (he : visible e = true)
    (hop : Atomic op m () m' tr) (hcheck : Atomic check m' () m'' tr') :
    Does e (frameRound b op check) m () m'' (tr ++ tr') := by
  have hwrite (p : Pin) (high : Bool) (s : σ) :
      Atomic (emit (.gpioWrite p high) : App C σ Unit) s () s [] := atomic_emit _
  have hwindow : Atomic (do
      gpioClear .active; op; gpioSet .aesKey; gpioSet .active; gpioClear .aesKey; check) m () m''
      ([] ++ (tr ++ ([] ++ ([] ++ ([] ++ tr'))))) :=
    (hwrite _ _ m).bind (hop.bind ((hwrite _ _ m').bind ((hwrite _ _ m').bind
      ((hwrite _ _ m').bind hcheck))))
  have hwait : Does e (onlyIf (!b.useXtimer) (do whileSyncHigh; whileSyncLow) : App C σ Unit)
      m () m [] := by
    cases b.useXtimer with
    | false =>
      exact does_pins he (keeps_bind (keeps_pollWhile (fun _ => rfl)
        (keeps_pollWhile (fun _ => rfl) rfl)))
    | true => exact (atomic_pure ()).does
  have h : Does e (frameRound b op check) m () m''
      ([] ++ ([] ++ (tr ++ ([] ++ ([] ++ ([] ++ tr')))))) := hwait.bind_atomic hwindow
  simpa using h

end Rounds

section Runs
variable {b : EnergyBuild} {v : TestVectors len} {t : CipherTest} {replies : Nat → Replies len}
variable {data : Buffer len} {ins : List Bool}

theorem atomic_checkData (dataExp : Buffer len) : Atomic (checkData dataExp) data () data
    (if data ≠ dataExp then [.led0On] else []) := by
  intro ins
  by_cases hdata : data = dataExp
  · simp [checkData, hdata]
  · refine ⟨rfl, rfl, ?_⟩
    simp only [checkData, act_exec, ne_eq, hdata, not_false_iff, if_true]
    rfl

/-- One operation patches the buffer and switches no LED. -/
theorem atomic_operation (r : Replies len) : ∃ tr, .led0On ∉ tr ∧
    Atomic (operation b v t r) data () (patch (t.answer r).writes data) tr := by
  have hcall : ∃ tr, .led0On ∉ tr ∧
      Atomic (t.call v r) data () (patch (t.answer r).writes data) tr := by
    cases t with
    | cbcEnc => exact ⟨_, by simp, atomic_act _⟩
    | cbcDec => exact ⟨_, by simp, atomic_act _⟩
    | ecbEnc => exact ⟨_, by simp, atomic_act _⟩
    | ecbDec => exact ⟨_, by simp, atomic_act _⟩
  have hinit : ∃ tr, .led0On ∉ tr ∧
      Atomic (onlyIf (!b.cryptoauthlib) (aesInit v r)) data () data tr := by
    cases b.cryptoauthlib with
    | false => exact ⟨_, by simp, atomic_emit _⟩
    | true => exact ⟨[], by simp, atomic_pure ()⟩
  obtain ⟨tr, hdark, hcall⟩ := hcall
  obtain ⟨tr', hdark', hinit⟩ := hinit
  exact ⟨tr' ++ tr, by simp [hdark, hdark'], hinit.bind hcall⟩

/-- A finished round patches the buffer, and the LED tells whether it differs. -/
theorem round_finished {r : Replies len}
    (h : ((expRound b v t r).exec ins data).value = some ()) :
    ((expRound b v t r).exec ins data).state =
        patch (t.answer r).writes data ∧
      (.led0On ∈ ((expRound b v t r).exec ins data).trace ↔
        patch (t.answer r).writes data ≠ t.expected v) := by
  obtain ⟨tr, hdark, hop⟩ : ∃ tr, .led0On ∉ tr ∧
      Atomic (operation b v t r) data () (patch (t.answer r).writes data) tr := atomic_operation r
  have hround : Does .led0On (expRound b v t r) data () _ _ :=
    does_round rfl hop (atomic_checkData (t.expected v))
  rcases hround ins with ⟨_, hstate, htrace⟩ | ⟨hnone, _⟩
  · refine ⟨hstate, ?_⟩
    have hled : .led0On ∈
        ((expRound b v t r).exec ins data).trace ↔
        .led0On ∈ ((expRound b v t r).exec ins data).trace.filter
          visible := ⟨fun hmem => List.mem_filter.mpr ⟨hmem, rfl⟩,
        fun hmem => (List.mem_filter.mp hmem).1⟩
    rw [hled, htrace]
    by_cases hmatch : patch (t.answer r).writes data = t.expected v
    · simp [hmatch, hdark]
    · simp [hmatch]
  · simp [h] at hnone

/-- After a finished run of `n` rounds the buffer is known, and the LED is on iff
some comparison failed. -/
theorem rounds_finished (h : ((expRounds b v t n replies).exec ins data).value = some ()) :
    ((expRounds b v t n replies).exec ins data).state = bufferAfter t replies data n ∧
      (.led0On ∈ ((expRounds b v t n replies).exec ins data).trace ↔
        ∃ i < n, bufferAfter t replies data (i + 1) ≠ t.expected v) := by
  induction n with
  | zero => exact ⟨rfl, by simp [expRounds, forRange]⟩
  | succ n ih =>
    obtain ⟨_, hrounds, hlast⟩ := andThen_value_some h
    obtain ⟨hstate, hled⟩ := ih hrounds
    have hlast' : ((expRound b v t (replies n)).exec
        ((expRounds b v t n replies).exec ins data).rest
        ((expRounds b v t n replies).exec ins data).state).value = some () := hlast
    rw [hstate] at hlast'
    obtain ⟨hstate', hled'⟩ := round_finished hlast'
    have hexec : (expRounds b v t (n + 1) replies).exec ins data = _ := forRange_succ_exec hrounds
    rw [← expRounds, hstate] at hexec
    rw [hexec]
    refine ⟨hstate', ?_⟩
    simp only [List.mem_append, hled, hled']
    constructor
    · rintro (⟨i, hi, hne⟩ | hne)
      · exact ⟨i, by omega, hne⟩
      · exact ⟨n, by omega, hne⟩
    · rintro ⟨i, hi, hne⟩
      by_cases hin : i = n
      · subst i
        exact .inr hne
      · exact .inl ⟨i, by omega, hne⟩

theorem atomic_start (b : EnergyBuild) (v : TestVectors len) (r : Replies len) :
    ∃ tr, .led0On ∉ tr ∧ ∀ ins, (aesStart b v r).exec ins data = ⟨tr, data, ins, some ()⟩ := by
  obtain ⟨useXtimer, cryptoauthlib, testStack, testMem⟩ := b
  refine ⟨((aesStart ⟨useXtimer, cryptoauthlib, testStack, testMem⟩ v r).exec [] data).trace, ?_,
    fun ins => ?_⟩
  · cases cryptoauthlib <;> cases useXtimer <;>
      simp [aesStart, initPins, prepare, aesInit, gpioInit, gpioSet, gpioClear]
  · cases cryptoauthlib <;> cases useXtimer <;> rfl

theorem dark_finish (b : EnergyBuild) (data : Buffer len) (ins : List Bool) :
    ((finish b : AesApp len Unit).exec ins data).value = some () ∧
      .led0On ∉ ((finish b : AesApp len Unit).exec ins data).trace := by
  cases htest : b.testStack <;> simp [finish, htest, diag, puts]

/-- The run ends iff its rounds do, and the LED is switched on in the rounds only. -/
theorem main_run (useXtimer cryptoauthlib : Bool) (v : TestVectors len) (t : CipherTest) (n : Nat)
    (replies : Nat → Replies len) (data : Buffer len) (ins : List Bool) :
    (((aesMain (.measured useXtimer cryptoauthlib) v t n replies).exec ins data).value = some () ↔
      ((expRounds (.measured useXtimer cryptoauthlib) v t n replies).exec ins data).value =
        some ()) ∧
    (.led0On ∈ ((aesMain (.measured useXtimer cryptoauthlib) v t n replies).exec ins data).trace ↔
      .led0On ∈
        ((expRounds (.measured useXtimer cryptoauthlib) v t n replies).exec ins data).trace) := by
  obtain ⟨tr, hdark, hstart⟩ : ∃ tr, .led0On ∉ tr ∧ ∀ ins,
      (aesStart (.measured useXtimer cryptoauthlib) v (replies 0)).exec ins data =
        ⟨tr, data, ins, some ()⟩ := atomic_start _ _ _
  rw [aesMain_measured, bind_exec, hstart, andThen_some]
  cases hv :
      ((expRounds (.measured useXtimer cryptoauthlib) v t n replies).exec ins data).value with
  | none =>
    rw [bind_exec, andThen_of_stopped hv]
    simp [hdark]
  | some u =>
    obtain ⟨hvalue, hquiet⟩ := dark_finish (.measured useXtimer cryptoauthlib)
      ((expRounds (.measured useXtimer cryptoauthlib) v t n replies).exec ins data).state
      ((expRounds (.measured useXtimer cryptoauthlib) v t n replies).exec ins data).rest
    rw [bind_exec, andThen_of_value hv]
    simp [hdark, hvalue, hquiet]

/-- Whatever the backend answers, some readings of the sync pin finish the rounds. -/
theorem expRounds_finishes (b : EnergyBuild) (v : TestVectors len) (t : CipherTest) (n : Nat)
    (replies : Nat → Replies len) : Finishes (expRounds b v t n replies) := by
  have hwait :
      Finishes (onlyIf (!b.useXtimer) (do whileSyncHigh; whileSyncLow) : AesApp len Unit) :=
    have hlow : ¬ id false = true := by decide
    have hhigh : ¬ (!true) = true := by decide
    .onlyIf (.bind (.pollWhile hlow _) fun _ => .pollWhile hhigh _)
  have hoperation (r : Replies len) : Finishes (operation b v t r) := by
    refine .bind (.onlyIf (.emit _)) fun _ => ?_
    cases t with
    | cbcEnc => exact .act _
    | cbcDec => exact .act _
    | ecbEnc => exact .act _
    | ecbDec => exact .act _
  exact .forRange fun i => .bind hwait fun _ => .bind (.emit _) fun _ =>
    .bind (hoperation (replies i)) fun _ => .bind (.emit _) fun _ => .bind (.emit _) fun _ =>
    .bind (.emit _) fun _ => .act _

end Runs

/-- A dark LED is sound iff all rounds are genuine, or something gives a faulty call
away: a wrong byte, or a byte that the first call does not write and that is not
right already. -/
theorem sound_iff (useXtimer cryptoauthlib : Bool) (v : TestVectors len) (t : CipherTest) (n : Nat)
    (replies : Nat → Replies len) (data : Buffer len) :
    Sound (.measured useXtimer cryptoauthlib) v t n replies data ↔
      (Undetected v t n replies data → ∀ i < n, Genuine v t (replies i)) := by
  constructor
  · intro hsound hundetected
    obtain ⟨ins, tr, st, u, hfinishes⟩ :=
      expRounds_finishes (.measured useXtimer cryptoauthlib) v t n replies data
    have hrounds : ((expRounds (.measured useXtimer cryptoauthlib) v t n replies).exec ins
        data).value = some () := by
      have hexec := hfinishes []
      rw [List.append_nil] at hexec
      rw [hexec]
    obtain ⟨hvalue, hled⟩ := main_run useXtimer cryptoauthlib v t n replies data ins
    refine hsound ins (hvalue.mpr hrounds) fun hmem => ?_
    obtain ⟨i, hi, hne⟩ := (rounds_finished hrounds).2.mp (hled.mp hmem)
    exact hne (matches_iff.mpr hundetected i hi)
  · intro hgenuine ins hvalue hdark
    obtain ⟨hvalue', hled⟩ := main_run useXtimer cryptoauthlib v t n replies data ins
    have hrounds := hvalue'.mp hvalue
    refine hgenuine (matches_iff.mp fun i hi => ?_)
    by_contra hne
    exact hdark (hled.mpr ((rounds_finished hrounds).2.mpr ⟨i, hi, hne⟩))

section Counterexample

/-- The first encryption succeeds, and all others fail without writing anything. -/
def succeedsOnce (i : Nat) : Replies 32 where
  init := 1
  encrypt := if i = 0 then ⟨32, testVectors.cbcCipher.map some⟩ else ⟨-1, Vector.replicate 32 none⟩
  decrypt := ⟨32, testVectors.cbcPlain.map some⟩

theorem succeedsOnce_undetected : Undetected testVectors .cbcEnc 2 succeedsOnce
    (Vector.replicate 32 0) := by
  have hproduces :
      Produces (CipherTest.cbcEnc.answer (succeedsOnce 0)).writes testVectors.cbcCipher :=
    rfl
  constructor
  · intro _ i hi hnone
    rw [hproduces.getElem i hi] at hnone
    exact False.elim (Option.some_ne_none _ hnone)
  · intro i hi j hj byte hbyte
    by_cases hzero : i = 0
    · subst i
      rw [hproduces.getElem j hj] at hbyte
      exact (Option.some.inj hbyte).symm
    · have hwrites :
          (CipherTest.cbcEnc.answer (succeedsOnce i)).writes = Vector.replicate 32 none := by
        simp [CipherTest.answer, succeedsOnce, hzero]
      simp [hwrites] at hbyte

/-- Two rounds end with a dark LED although the second encryption failed. -/
theorem failed_call_undetected : ¬ Sound (.synchronised false) testVectors .cbcEnc 2 succeedsOnce
    (Vector.replicate 32 0) := by
  intro hsound
  have hrounds : ((expRounds (.synchronised false) testVectors .cbcEnc 2 succeedsOnce).exec
      [false, true, false, true] (Vector.replicate 32 0)).value = some () := rfl
  obtain ⟨hvalue, hled⟩ := main_run false false testVectors .cbcEnc 2 succeedsOnce
    (Vector.replicate 32 0) [false, true, false, true]
  have hdark : .led0On ∉ ((aesMain (.synchronised false) testVectors .cbcEnc 2 succeedsOnce).exec
      [false, true, false, true] (Vector.replicate 32 0)).trace := by
    intro hmem
    obtain ⟨i, hi, hne⟩ := (rounds_finished hrounds).2.mp (hled.mp hmem)
    exact hne (matches_iff.mpr succeedsOnce_undetected i hi)
  obtain ⟨hcode, _⟩ := hsound [false, true, false, true] (hvalue.mpr hrounds) hdark 1 (by decide)
  exact absurd hcode (by decide)

end Counterexample

end Masking
