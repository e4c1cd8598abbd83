import EwsnCrypto.Base.Dialogue
import EwsnCrypto.Ecdsa.Effects
import EwsnCrypto.Energy.Applications

/-!
# The pulses decide a run

When the measuring instrument raises the sync pin is its own affair. Of all that a
run reads, only the number of pulses tells how far it comes, what it does until
there, and how many windows it opens, whichever library calls fail on the way.
-/

open InputProgram Trigger EccSteps Windows EnergyHandshake EnergyApplications

namespace Pulses

variable {C σ α β ρ : Type}

/-- What a run shows besides the readings of the sync pin. -/
def shown (e : Event C) : Bool := (reading e).isNone

def opens (e : Event C) : Bool := decide (pinWrite e = some (.active, false))

/-- Runs of `p` from `st` are decided by the number of pulses: `k` of them take it to its
end, each opens a window, and `before` windows are opened without one. -/
structure PulseDriven (before k : Nat) (p : App C σ α) (st : σ) : Prop where
  finishes : ∀ ins, (p.exec ins st).value.isSome = true ↔ k ≤ rises ins
  windows : ∀ ins, windows (p.exec ins st).trace = before + min (rises ins) k
  grows : ∀ ins ins', rises ins ≤ rises ins' →
    (p.exec ins st).trace.filter shown <+: (p.exec ins' st).trace.filter shown
  ends : ∀ ins ins', k ≤ rises ins → k ≤ rises ins' →
    (p.exec ins st).state = (p.exec ins' st).state ∧ (p.exec ins st).value = (p.exec ins' st).value
  unread : ∀ ins, k ≤ rises ins → rises (p.exec ins st).rest = rises ins - k

theorem windows_eq (tr : List (Event C)) : windows tr = (tr.filter shown).countP opens := by
  rw [EnergyHandshake.windows, waveform, List.count, List.countP_filterMap, List.countP_filter]
  refine List.countP_congr fun e _ => ?_
  cases e with
  | gpioRead p high => cases p <;> simp [opens, pinWrite]
  | gpioWrite p high => simp [opens, shown, reading, pinWrite]
  | _ => simp [opens, pinWrite]

/-- From `st`, `p` answers `k` pulses by one window each, and comes to `a` and `st'`. -/
abbrev Answers (k : Nat) (p : App C σ α) (a : α) (st st' : σ) : Prop :=
  Converses rises shown opens k p a st st'

/-- `p` answers `k` pulses, whatever it starts from and comes to. -/
def AlwaysAnswers (k : Nat) (p : App C σ α) : Prop := ∀ st, ∃ a st', Answers k p a st st'

theorem AlwaysAnswers.bind {k k' : Nat} {p : App C σ α} {f : α → App C σ β}
    (hp : AlwaysAnswers k p) (hf : ∀ a, AlwaysAnswers k' (f a)) :
    AlwaysAnswers (k + k') (p >>= f) := by
  intro st
  obtain ⟨a, st', ha⟩ := hp st
  obtain ⟨c, st'', hc⟩ := hf a st'
  exact ⟨c, st'', ha.bind hc⟩

theorem AlwaysAnswers.bind_idle {k : Nat} {p : App C σ α} {f : α → App C σ β}
    (hp : AlwaysAnswers k p) (hf : ∀ a, AlwaysAnswers 0 (f a)) : AlwaysAnswers k (p >>= f) :=
  hp.bind hf

theorem AlwaysAnswers.idle_bind {k : Nat} {p : App C σ α} {f : α → App C σ β}
    (hp : AlwaysAnswers 0 p) (hf : ∀ a, AlwaysAnswers k (f a)) : AlwaysAnswers k (p >>= f) := by
  simpa only [Nat.zero_add] using hp.bind hf

theorem AlwaysAnswers.forRange {k n : Nat} {body : Nat → App C σ Unit}
    (h : ∀ i, AlwaysAnswers k (body i)) : AlwaysAnswers (n * k) (forRange n body) := by
  induction n with
  | zero =>
    rw [Nat.zero_mul]
    exact fun st => ⟨(), st, .pure ()⟩
  | succ n ih =>
    rw [Nat.succ_mul]
    exact ih.bind fun _ => h n

theorem pulseDriven_of_holds {p : App C σ α} {d : Dialogue (Event C)} {a : α} {st st' : σ}
    (h : Holds rises shown p d a st st') (hmarked : d.Marked opens) :
    PulseDriven 0 d.size p st := by
  constructor
  · intro ins
    by_cases hdone : d.size ≤ rises ins
    · rw [(h.finished ins hdone).1]
      exact ⟨fun _ => hdone, fun _ => rfl⟩
    · rw [h.stopped ins (by omega)]
      exact ⟨fun hnone => (nomatch hnone), fun hdone' => False.elim (hdone hdone')⟩
  · intro ins
    rw [windows_eq, h.trace, hmarked.countP_after, Nat.zero_add]
  · intro ins ins' hle
    rw [h.trace, h.trace]
    exact d.after_mono hle
  · intro ins ins' hdone hdone'
    obtain ⟨hvalue, hstate, _⟩ := h.finished ins hdone
    obtain ⟨hvalue', hstate', _⟩ := h.finished ins' hdone'
    exact ⟨hstate.trans hstate'.symm, hvalue.trans hvalue'.symm⟩
  · intro ins hdone
    have hrest := (h.finished ins hdone).2.2
    omega

theorem pulseDriven_of_answers {k : Nat} {p : App C σ α} {a : α} {st st' : σ}
    (h : Answers k p a st st') : PulseDriven 0 k p st := by
  obtain ⟨d, rfl, hmarked, hholds⟩ := h
  exact pulseDriven_of_holds hholds hmarked

section Waiting
variable {st : σ} {ins : List Bool}

/-- A low reading behind which a pulse comes ends the second loop. -/
theorem low_finishes (h : 0 < rises (false :: ins)) :
    ((whileSyncLow : App C σ Unit).exec ins st).value = some () ∧
      ((whileSyncLow : App C σ Unit).exec ins st).state = st ∧
      rises (false :: ins) = rises ((whileSyncLow : App C σ Unit).exec ins st).rest + 1 := by
  induction ins with
  | nil => simp [rises] at h
  | cons high ins ih =>
    cases high with
    | false =>
      have hagain : (!false) = true := rfl
      rw [whileSyncLow, pollWhile_again hagain]
      exact ih h
    | true =>
      have hdone : ¬ (!true) = true := by decide
      rw [whileSyncLow, pollWhile_done hdone]
      exact ⟨rfl, rfl, rfl⟩

theorem low_stops (h : rises (false :: ins) = 0) :
    ((whileSyncLow : App C σ Unit).exec ins st).value = none := by
  induction ins with
  | nil => rfl
  | cons high ins ih =>
    cases high with
    | false =>
      have hagain : (!false) = true := rfl
      rw [whileSyncLow, pollWhile_again hagain]
      exact ih h
    | true => simp [rises] at h

/-- A high reading leaves both loops where they are. -/
theorem pulse_again : (whileSyncHigh >>= fun _ => whileSyncLow : App C σ Unit).exec
    (true :: ins) st = { (whileSyncHigh >>= fun _ => whileSyncLow : App C σ Unit).exec ins st with
      trace := .gpioRead .sync true ::
        ((whileSyncHigh >>= fun _ => whileSyncLow : App C σ Unit).exec ins st).trace } := by
  have hagain : id true = true := rfl
  rw [bind_exec, bind_exec, whileSyncHigh, pollWhile_again hagain]
  cases hv : ((pollWhile id (.gpioRead .sync) : App C σ Unit).exec ins st).value with
  | none => simp [andThen, hv]
  | some u => simp [andThen, hv]

theorem pulse_low : ((whileSyncHigh >>= fun _ => whileSyncLow : App C σ Unit).exec
    (false :: ins) st) = { (whileSyncLow : App C σ Unit).exec ins st with
      trace := .gpioRead .sync false :: ((whileSyncLow : App C σ Unit).exec ins st).trace } := by
  have hdone : ¬ id false = true := by decide
  rw [bind_exec, whileSyncHigh, pollWhile_done hdone, andThen_some, List.singleton_append]

theorem pulse_finishes (h : 0 < rises ins) :
    ((whileSyncHigh >>= fun _ => whileSyncLow : App C σ Unit).exec ins st).value = some () ∧
      ((whileSyncHigh >>= fun _ => whileSyncLow : App C σ Unit).exec ins st).state = st ∧
      rises ins =
        rises ((whileSyncHigh >>= fun _ => whileSyncLow : App C σ Unit).exec ins st).rest + 1 := by
  induction ins with
  | nil => simp [rises] at h
  | cons high ins ih =>
    cases high with
    | false =>
      rw [pulse_low]
      exact low_finishes h
    | true =>
      rw [pulse_again]
      exact ih h

theorem pulse_stops (h : rises ins = 0) :
    ((whileSyncHigh >>= fun _ => whileSyncLow : App C σ Unit).exec ins st).value = none := by
  induction ins with
  | nil => rfl
  | cons high ins ih =>
    cases high with
    | false =>
      rw [pulse_low]
      exact low_stops h
    | true =>
      rw [pulse_again]
      exact ih h

/-- Waiting for a pulse. -/
theorem holds_pulse (st : σ) : Holds rises shown
    (whileSyncHigh >>= fun _ => whileSyncLow : App C σ Unit) ⟨[], [[]]⟩ () st st := by
  have hsilent : Emits (fun e => shown e = false)
      (whileSyncHigh >>= fun _ => whileSyncLow : App C σ Unit) := by
    have hpoll (again : Bool → Bool) : Emits (fun e => shown e = false)
        (pollWhile again (.gpioRead .sync) : App C σ Unit) :=
      fun _ => keeps_pollWhile (fun _ => rfl) trivial
    exact .bind (hpoll id) fun _ => hpoll not
  exact holds_wait (fun _ => hsilent.mem) (fun _ h => pulse_finishes h) fun _ h => pulse_stops h

end Waiting

section Steps
variable {b : Build} {k : Nat} {a : α} {st st' : σ}

theorem answers_startTrigger (hb : b.testEnergy = true) :
    Answers 1 (startTrigger b : App C σ Unit) () st st := by
  have hstart : (startTrigger b : App C σ Unit) =
      (whileSyncHigh >>= fun _ => whileSyncLow) >>= fun _ => gpioClear .active := by
    simp [startTrigger, hb]
  have hclear : Holds rises shown (gpioClear .active : App C σ Unit)
      ⟨[.gpioWrite .active false], []⟩ () st st := holds_emit _
  have hmarked : Dialogue.Marked opens (⟨[], [[.gpioWrite .active false]]⟩ : Dialogue (Event C)) :=
    ⟨rfl, fun a ha => by rw [List.mem_singleton.mp ha]; rfl⟩
  have hholds : Holds rises shown (startTrigger b : App C σ Unit)
      ⟨[], [[.gpioWrite .active false]]⟩ () st st := by
    rw [hstart]
    exact holds_bind (holds_pulse st) (f := fun _ => gpioClear .active) hclear
  exact ⟨⟨[], [[.gpioWrite .active false]]⟩, rfl, hmarked, hholds⟩

theorem answers_stopTrigger (hb : b.testEnergy = true) :
    Answers 0 (stopTrigger b : App C σ Unit) () st st := by
  simp only [stopTrigger, hb, if_true]
  exact .bind_idle (.emit rfl) (.bind_idle (.emit rfl) (.emit rfl))

/-- A measurement answers one pulse. -/
theorem answers_measured (hb : b.testEnergy = true) {p : App C σ α} (hp : Answers 0 p a st st') :
    Answers 1 (measured b p) a st st' :=
  (answers_startTrigger hb).bind_idle (hp.bind_idle
    ((answers_stopTrigger hb).bind_idle (.pure a)))

/-- A library call answers no pulse; its effect is the one that it has on every reading. -/
theorem answers_libCall {c : σ → C} {reply : σ → Except Nat ρ} {store : ρ → σ → σ}
    {result : Except Nat ρ} {tr : List (Event C)}
    (h : Atomic (libCall c reply store) st result st' tr) :
    Answers 0 (libCall c reply store) result st st' := by
  obtain ⟨hvalue, hstate, _⟩ := h []
  obtain rfl := Option.some.inj hvalue
  obtain rfl := hstate
  refine .act fun e he => ?_
  obtain ⟨ok, rfl⟩ := mem_libCall_trace he
  rfl

theorem answers_enclosed {enable disable : C} {p : App C σ α} (hp : Answers 0 p a st st') :
    Answers 0 (enclosed enable disable p) a st st' :=
  .bind_idle (.emit rfl) (hp.bind_idle (.bind_idle (.emit rfl) (.pure a)))

theorem answers_print (report : Report) (code : Nat) :
    Answers 0 (report.print code : App C σ Unit) () st st := by
  simp only [Report.print, Report.event]
  split
  · exact .emit rfl
  · exact .emit rfl

theorem answers_func {f : Fn} {body : App C σ Unit} (h : Answers k body () st st') :
    Answers k (func f body) () st st' := h.bind_idle (.emit rfl)

/-- What stands before and behind the rounds answers no pulse. -/
theorem answers_main {setup epilogue rounds : App C σ Unit} {banner : String}
    (hb : b.testEnergy = true) (hsetup : Answers 0 setup () st st)
    (hrounds : Answers k rounds () st st') (hepilogue : Answers 0 epilogue () st' st') :
    Answers k (func .main (do
      setup
      puts banner
      initTrigger b
      rounds
      epilogue)) () st st' := by
  have hinit : Answers 0 (initTrigger b : App C σ Unit) () st st := by
    simp only [initTrigger, hb, if_true]
    exact .bind_idle (.emit rfl) (.bind_idle (.emit rfl) (.bind_idle (.emit rfl)
      (.bind_idle (.emit rfl) (.emit rfl))))
  have hbanner : Answers 0 (puts banner : App C σ Unit) () st st := .emit rfl
  exact answers_func (hsetup.idle_bind (hbanner.idle_bind (hinit.idle_bind
    (hrounds.bind_idle hepilogue))))

end Steps

section Ecdh
variable {Priv Pub Secret : Type} {A : Ecdh.Application} {b : Build}
variable {r : Ecdh.Replies Priv Pub Secret}

theorem answers_ecdhCall {c : Ecdh.Memory Priv Pub Secret → Ecdh.Call}
    {reply : Ecdh.Memory Priv Pub Secret → Except Nat ρ}
    {store : ρ → Ecdh.Memory Priv Pub Secret → Ecdh.Memory Priv Pub Secret} :
    AlwaysAnswers 0 (A.call (libCall c reply store)) := by
  intro m
  have hcall : ∃ result m', Answers 0 (libCall c reply store) result m m' := by
    cases hreply : reply m with
    | ok x => exact ⟨_, _, answers_libCall (atomic_libCall_ok hreply)⟩
    | error code => exact ⟨_, _, answers_libCall (atomic_libCall_error hreply)⟩
  obtain ⟨result, m', hcall⟩ := hcall
  refine ⟨result, m', ?_⟩
  simp only [Ecdh.Application.call]
  split
  · exact answers_enclosed hcall
  · exact hcall

/-- Whether or not its calls fail, a pair answers one pulse. -/
theorem answers_checkedPair (hb : b.testEnergy = true) {first second : App C σ (Except Nat ρ)}
    {report1 report2 : Report} {finish : App C σ Unit} (hfirst : AlwaysAnswers 0 first)
    (hsecond : AlwaysAnswers 0 second) (hfinish : AlwaysAnswers 0 finish) :
    AlwaysAnswers 1 (checkedPair b first report1.print second report2.print finish) := by
  have hmeasured : AlwaysAnswers 1 (measured b first) := by
    intro st
    obtain ⟨a, st', h⟩ := hfirst st
    exact ⟨a, st', answers_measured hb h⟩
  refine hmeasured.bind_idle fun x => ?_
  cases x with
  | error code => exact fun st => ⟨(), st, answers_print report1 code⟩
  | ok _ =>
    refine hsecond.bind_idle fun y => ?_
    cases y with
    | error code => exact fun st => ⟨(), st, answers_print report2 code⟩
    | ok _ => exact hfinish

theorem answers_ecdhPrologue (hmeasured : b.isMeasured = true) (henergy : b.testEnergy = true)
    (lib : Ecdh.Library) : AlwaysAnswers 1 (lib.application.prologue b r) := by
  have hinit (priv : PrivKey) (pub : PubKey) (blank : Priv × Pub)
      (m : Ecdh.Memory Priv Pub Secret) :
      Answers 0 (Ecdh.initMem priv pub blank) () m (m.setPair priv pub blank) :=
    .act fun e he => by rw [List.mem_singleton.mp he]; rfl
  intro m
  cases lib with
  | microEcc =>
    refine ⟨(), m, answers_func ?_⟩
    rw [if_pos hmeasured]
    exact answers_measured henergy (.emit rfl)
  | cryptocell =>
    simp only [Ecdh.Library.application, Ecdh.Cryptocell.application, hmeasured, if_true]
    exact ⟨(), m, answers_measured henergy (.emit rfl)⟩
  | atecc608a =>
    simp only [Ecdh.Library.application, Ecdh.Atecc608a.application, hmeasured, if_true]
    exact ⟨(), m, answers_measured henergy (.pure ())⟩
  | relic =>
    simp only [Ecdh.Library.application, Ecdh.Relic.application, hmeasured, if_true]
    have hinitA : Answers 0 (plainCall .epParamSet >>= fun _ => Ecdh.initMem .keyA .keyA r.blankA)
        () m (m.setPair .keyA .keyA r.blankA) := .bind_idle (.emit rfl) (hinit _ _ _ m)
    exact ⟨(), _, (answers_measured henergy hinitA).bind_idle (hinit _ _ _ _)⟩

/-- The curve, the first key pair and the first secret. -/
theorem answers_ecdhIteration [DecidableEq Secret] (hmeasured : b.isMeasured = true)
    (henergy : b.testEnergy = true) (lib : Ecdh.Library) :
    AlwaysAnswers 3 (lib.application.iteration b r) := by
  have hleave (f : Fn) : AlwaysAnswers 0 (emit (.leave f) : Ecdh.EcdhApp Priv Pub Secret Unit) :=
    fun m => ⟨(), m, .emit rfl⟩
  have hgen : AlwaysAnswers 1 (lib.application.genKeypair b r) := by
    refine AlwaysAnswers.bind_idle ?_ fun _ => hleave _
    rw [if_pos hmeasured]
    exact answers_checkedPair henergy answers_ecdhCall answers_ecdhCall fun m => ⟨(), m, .pure ()⟩
  have hdeclare : AlwaysAnswers 0 (lib.application.declareSecrets r) :=
    fun m => ⟨_, _, .act fun e he => False.elim (List.not_mem_nil he)⟩
  have hcompare : AlwaysAnswers 0
      (Ecdh.Application.compareSecrets : Ecdh.EcdhApp Priv Pub Secret Unit) :=
    fun m => ⟨_, _, .act fun e he => by rw [List.mem_singleton.mp he]; rfl⟩
  have hderive : AlwaysAnswers 1 (lib.application.deriveSharedSecret b r) := by
    refine AlwaysAnswers.bind_idle (hdeclare.idle_bind fun _ => ?_) fun _ => hleave _
    rw [if_pos hmeasured]
    exact answers_checkedPair henergy answers_ecdhCall answers_ecdhCall hcompare
  exact (answers_ecdhPrologue hmeasured henergy lib).bind fun _ => hgen.bind fun _ => hderive

/-- Three pulses take each of the ECDH applications through an iteration, however many
of its calls fail. -/
theorem ecdh_pulses [DecidableEq Secret] (hmeasured : b.isMeasured = true)
    (henergy : b.testEnergy = true) (lib : Ecdh.Library) (n : Nat)
    (replies : Nat → Ecdh.Replies Priv Pub Secret) (m : Ecdh.Memory Priv Pub Secret) :
    PulseDriven 0 (n * 3) (lib.application.main b n replies) m := by
  have hmain : lib.application.main b n replies = func .main (do
      lib.application.setup.forM plainCall
      puts lib.application.banner
      initTrigger b
      lib.application.rounds b n replies
      (do onlyIf b.testStack (lib.application.sizes.forM diag)
          lib.application.teardown.forM plainCall
          puts "DONE")) := by
    simp [Ecdh.Application.main, Ecdh.Application.experiment, hmeasured]
  have hrounds : AlwaysAnswers (n * 3) (lib.application.rounds b n replies) :=
    .forRange fun i => answers_ecdhIteration hmeasured henergy lib
  obtain ⟨_, m', hrounds⟩ := hrounds m
  rw [hmain]
  refine pulseDriven_of_answers (answers_main henergy (.forM fun _ _ => .emit rfl) hrounds ?_)
  exact .bind_idle (.onlyIf (.forM fun _ _ => .emit rfl))
    (.bind_idle (.forM fun _ _ => .emit rfl) (.emit rfl))

theorem ecdh_pulses_failing : PulseDriven 0 (2 * 3)
    (Ecdh.Library.relic.application.main (.measured true) 2 fun _ => Ecdh.failingReplies)
    ⟨fun _ => (), fun _ => (), fun _ => ()⟩ :=
  ecdh_pulses rfl rfl .relic 2 _ _

end Ecdh

section Ecdsa
variable {Priv Pub Sig : Type} {b : Build} {r : Ecdsa.Replies Priv Pub Sig} {msg : Ecdsa.Message}
variable {m : Ecdsa.Memory Priv Pub Sig}

/-- The windows of `_sign_verify`, in which only RELIC verifies a signature that it has
not made. -/
def signVerifyWindows (signs : Bool) : Ecdsa.Library → Nat
  | .microEcc => if signs then 3 else 2
  | .cryptocell => if signs then 2 else 1
  | .atecc608a => if signs then 3 else 2
  | .relic => 3

/-- The pulses of `n` iterations, by which of them make a signature. -/
def pulses (lib : Ecdsa.Library) (made : Nat → Bool) (n : Nat) : Nat :=
  total (fun i => 2 + signVerifyWindows (made i) lib) n

theorem answers_ecdsaGenKeypair (lib : Ecdsa.Library)
    (hmeasured : lib.application.isMeasured b = true) (henergy : b.testEnergy = true) :
    Answers 1 (lib.application.genKeypair b r) () m (Ecdsa.generated r m) := by
  have hgen {result : Except Nat (Priv × Pub)} {m' : Ecdsa.Memory Priv Pub Sig}
      {tr : List (Event (Ecdsa.Call Priv Pub Sig))}
      (h : Atomic (Ecdsa.genKeyPair lib.application.priv lib.application.pub r.gen) m result m'
        tr) :
      Answers 0 (lib.application.call (Ecdsa.genKeyPair lib.application.priv lib.application.pub
        r.gen)) result m m' := by
    simp only [Ecdsa.Application.call]
    split
    · exact answers_enclosed (answers_libCall h)
    · exact answers_libCall h
  apply answers_func
  rw [if_pos hmeasured]
  simp only [Ecdsa.generated]
  cases hreply : r.gen with
  | error code =>
    have hcall := hgen (atomic_libCall_error hreply)
    rw [hreply] at hcall
    exact (answers_measured henergy hcall).bind_idle (answers_print _ code)
  | ok pair =>
    have hcall := hgen (atomic_libCall_ok hreply)
    rw [hreply] at hcall
    exact (answers_measured henergy hcall).bind_idle (.pure ())

theorem answers_ecdsaPrologue (lib : Ecdsa.Library)
    (hmeasured : lib.application.isMeasured b = true) (henergy : b.testEnergy = true) :
    Answers 1 (lib.application.prologue b r) () m (lib.reset r m) := by
  cases lib with
  | microEcc =>
    have hb : b.isMeasured = true := hmeasured
    apply answers_func
    rw [if_pos hb]
    exact answers_measured henergy (.emit rfl)
  | cryptocell =>
    have hb : Ecdsa.Cryptocell.isMeasured b = true := hmeasured
    show Answers 1 (if _ then _ else _) _ _ _
    rw [if_pos hb]
    exact answers_measured henergy (.emit rfl)
  | atecc608a =>
    have hb : b.isMeasured = true := hmeasured
    show Answers 1 (if _ then _ else _) _ _ _
    rw [if_pos hb]
    exact answers_measured henergy (.pure ())
  | relic =>
    have hb : b.isMeasured = true := hmeasured
    show Answers 1 (if _ then _ else _) _ _ _
    rw [if_pos hb]
    refine answers_measured henergy (.bind_idle (.emit rfl) (.act fun e he => ?_))
    rw [List.mem_singleton.mp he]
    rfl

/-- A window around the signing call, and another one behind it if the signature is made. -/
theorem answers_signed (lib : Ecdsa.Library)
    {p : Ecdsa.EcdsaApp Priv Pub Sig (Except Nat (Sig × Nat))}
    {behind : Except Nat (Sig × Nat) → Ecdsa.EcdsaApp Priv Pub Sig Unit}
    (henergy : b.testEnergy = true)
    (hp : Answers 0 p (r.sign (lib.signOf msg m)) m (lib.signed r msg m))
    (herror : ∀ code, Answers 0 (behind (.error code)) () (lib.signed r msg m) (lib.signed r msg m))
    (hok : ∀ sig, Answers 1 (behind (.ok sig)) () (lib.signed r msg m) (lib.signed r msg m)) :
    Answers (if (r.sign (lib.signOf msg m)).isOk then 2 else 1) (measured b p >>= behind) () m
      (lib.signed r msg m) := by
  have hwindow := answers_measured henergy hp
  cases hsign : r.sign (lib.signOf msg m) with
  | error code =>
    rw [hsign] at hwindow
    exact hwindow.bind_idle (herror code)
  | ok sig =>
    rw [hsign] at hwindow
    exact hwindow.bind (hok sig)

/-- The verification answers a pulse, and the line behind it none. -/
theorem answers_verified {α : Type} {verify : Ecdsa.EcdsaApp Priv Pub Sig (Except Nat α)}
    {behind : Except Nat α → Ecdsa.EcdsaApp Priv Pub Sig Unit} {result : Except Nat α}
    (henergy : b.testEnergy = true) (hverify : Answers 0 verify result m m)
    (herror : ∀ code, Answers 0 (behind (.error code)) () m m)
    (hok : ∀ x, Answers 0 (behind (.ok x)) () m m) :
    Answers 1 (measured b verify >>= behind) () m m := by
  refine (answers_measured henergy hverify).bind_idle ?_
  cases result with
  | error code => exact herror code
  | ok x => exact hok x

/-- Where there is a hash call, its window comes first. -/
theorem answers_hashed {p : Ecdsa.EcdsaApp Priv Pub Sig (Except Nat Ecdsa.Digest)}
    {q : Ecdsa.EcdsaApp Priv Pub Sig Unit} {result : Except Nat Ecdsa.Digest} {signs : Bool}
    {m' m'' : Ecdsa.Memory Priv Pub Sig} (henergy : b.testEnergy = true)
    (hp : Answers 0 p result m m') (hq : Answers (if signs then 2 else 1) q () m' m'') :
    Answers (if signs then 3 else 2) (measured b p >>= fun _ => q) () m m'' := by
  have hboth := (answers_measured henergy hp).bind (f := fun _ => q) hq
  cases signs <;> exact hboth

theorem answers_hashCall (lib : Ecdsa.Library) {c : Ecdsa.Call Priv Pub Sig}
    (hc : lib.hashOf msg = some c) :
    Answers 0 (Ecdsa.hashCall r c) (r.hash c) m (lib.hashed r msg m) :=
  answers_libCall (Ecdsa.atomic_hashCall hc)

theorem answers_declareLocals {k : Nat} {q : Ecdsa.EcdsaApp Priv Pub Sig Unit}
    {m' : Ecdsa.Memory Priv Pub Sig} (hq : Answers k q () (m.setLocals r.locals) m') :
    Answers k (Ecdsa.declareLocals r >>= fun _ => q) () m m' := by
  have hdeclare : Answers 0 (Ecdsa.declareLocals r) () m (m.setLocals r.locals) :=
    .act fun _ he => False.elim (List.not_mem_nil he)
  exact hdeclare.idle_bind hq

theorem answers_signVerify (lib : Ecdsa.Library) (hmeasured : lib.application.isMeasured b = true)
    (henergy : b.testEnergy = true) :
    Answers (signVerifyWindows
        (r.sign (lib.signOf msg (lib.hashed r msg (m.setLocals r.locals)))).isOk lib)
      (lib.application.signVerify b r msg) () m
      (lib.signed r msg (lib.hashed r msg (m.setLocals r.locals))) := by
  have hsign {m : Ecdsa.Memory Priv Pub Sig} (lib : Ecdsa.Library) :
      Atomic (lib.signStep r msg) m (r.sign (lib.signOf msg m)) (lib.signed r msg m)
        [.call (lib.signOf msg m) (r.sign (lib.signOf msg m)).isOk] := Ecdsa.atomic_signStep lib
  cases lib with
  | microEcc =>
    have hb : b.isMeasured = true := hmeasured
    refine answers_declareLocals ?_
    rw [if_pos hb]
    refine answers_hashed henergy (answers_hashCall .microEcc rfl) ?_
    refine answers_signed .microEcc henergy (answers_libCall (hsign .microEcc)) (fun _ => .emit rfl)
      fun _ => ?_
    exact answers_verified henergy (answers_libCall (Ecdsa.atomic_verifyCall _))
      (fun _ => .emit rfl) fun _ => .emit rfl
  | cryptocell =>
    have hb : Ecdsa.Cryptocell.isMeasured b = true := hmeasured
    refine answers_declareLocals ?_
    rw [if_pos hb]
    refine answers_signed .cryptocell henergy
      (answers_enclosed (answers_libCall (hsign .cryptocell))) (fun _ => .emit rfl) fun _ => ?_
    exact answers_verified henergy
      (answers_enclosed (answers_libCall (Ecdsa.atomic_verifyCall _))) (fun _ => .emit rfl)
      fun _ => .emit rfl
  | atecc608a =>
    have hb : b.isMeasured = true := hmeasured
    refine answers_declareLocals ?_
    rw [if_pos hb]
    refine answers_hashed henergy (answers_hashCall .atecc608a rfl) ?_
    refine answers_signed .atecc608a henergy (answers_libCall (hsign .atecc608a))
      (fun _ => .emit rfl) fun _ => ?_
    exact answers_verified henergy (answers_libCall (Ecdsa.atomic_verifyExtern _))
      (fun _ => .emit rfl) fun _ => .emit rfl
  | relic =>
    have hb : b.isMeasured = true := hmeasured
    refine answers_declareLocals (.idle_bind (.emit rfl) (.idle_bind (.emit rfl) ?_))
    rw [if_pos hb]
    show Answers (1 + (1 + 1)) _ _ _ _
    refine (answers_measured henergy (answers_hashCall .relic rfl)).bind (f := fun _ => _) ?_
    refine (answers_measured henergy (answers_libCall (hsign .relic))).bind (f := fun _ => _) ?_
    exact answers_verified henergy (answers_libCall (Ecdsa.atomic_verifyCall _))
      (fun _ => .emit rfl) fun _ => .emit rfl

/-- An iteration takes a pulse for each of its windows and ends in the memory that its replies
decide. -/
theorem answers_ecdsaIteration (lib : Ecdsa.Library)
    (hmeasured : lib.application.isMeasured b = true) (henergy : b.testEnergy = true) :
    Answers (2 + signVerifyWindows (lib.signs r msg m) lib) (lib.application.iteration b r msg) ()
      m (lib.finished r msg m) := by
  have hprologue : Answers 1 (lib.application.prologue b r) () m (lib.reset r m) :=
    answers_ecdsaPrologue lib hmeasured henergy
  have hgen : Answers 1 (lib.application.genKeypair b r) () (lib.reset r m)
      (Ecdsa.generated r (lib.reset r m)) := answers_ecdsaGenKeypair lib hmeasured henergy
  have hsignVerify : Answers (signVerifyWindows (lib.signs r msg m) lib)
      (func .signVerify (lib.application.signVerify b r msg)) ()
      (Ecdsa.generated r (lib.reset r m)) (lib.finished r msg m) :=
    answers_func (answers_signVerify lib hmeasured henergy)
  have hall := hprologue.bind (f := fun _ => _) (hgen.bind (f := fun _ => _) hsignVerify)
  rw [← Nat.add_assoc] at hall
  exact hall

/-- Which iterations of a run make their signature. -/
def signatures (lib : Ecdsa.Library) (replies : Nat → Ecdsa.Replies Priv Pub Sig)
    (msg : Ecdsa.Message) (m : Ecdsa.Memory Priv Pub Sig) (i : Nat) : Bool :=
  lib.signs (replies i) msg (lib.memoryBefore msg replies m i)

theorem answers_ecdsaMain (lib : Ecdsa.Library) (hmeasured : lib.application.isMeasured b = true)
    (henergy : b.testEnergy = true) (n : Nat) (replies : Nat → Ecdsa.Replies Priv Pub Sig) :
    Answers (pulses lib (signatures lib replies msg m) n)
      (lib.application.main b n replies msg) () m (lib.memoryBefore msg replies m n) := by
  have hmain : lib.application.main b n replies msg = func .main (do
      (lib.application.setup b).forM emit
      puts lib.application.banner
      initTrigger b
      lib.application.rounds b n replies msg
      (do onlyIf b.testStack (lib.application.sizes.forM diag)
          lib.application.teardown.forM emit
          puts "DONE")) := by
    simp [Ecdsa.Application.main, Ecdsa.Application.experiment, hmeasured]
  have hsetup : Answers 0 ((lib.application.setup b).forM emit :
      Ecdsa.EcdsaApp Priv Pub Sig Unit) () m m := by
    refine .forM fun e he => .emit ?_
    rcases Ecdsa.mem_setup he with rfl | ⟨format, rfl⟩ <;> rfl
  have hteardown (m : Ecdsa.Memory Priv Pub Sig) :
      Answers 0 (lib.application.teardown.forM emit : Ecdsa.EcdsaApp Priv Pub Sig Unit) () m
        m := by
    refine .forM fun e he => .emit ?_
    obtain rfl := Ecdsa.mem_teardown he
    rfl
  have hrounds : Answers (pulses lib (signatures lib replies msg m) n)
      (lib.application.rounds b n replies msg) () m (lib.memoryBefore msg replies m n) :=
    .forRange (s := lib.memoryBefore msg replies m) fun i =>
      answers_ecdsaIteration lib hmeasured henergy
  rw [hmain]
  exact answers_main henergy hsetup hrounds (.bind_idle (.onlyIf (.forM fun _ _ => .emit rfl))
    (.bind_idle (hteardown _) (.emit rfl)))

theorem signVerifyWindows_le (signs : Bool) (lib : Ecdsa.Library) :
    signVerifyWindows false lib ≤ signVerifyWindows signs lib ∧
      signVerifyWindows signs lib ≤ signVerifyWindows true lib := by
  cases signs <;> cases lib <;> decide

/-- A signature application is decided by the pulses as well. How many it takes depends on
nothing but which signatures are made: each of them has a window more, but for RELIC. -/
theorem ecdsa_pulses (lib : Ecdsa.Library) (hmeasured : lib.application.isMeasured b = true)
    (henergy : b.testEnergy = true) (n : Nat) (replies : Nat → Ecdsa.Replies Priv Pub Sig)
    (m : Ecdsa.Memory Priv Pub Sig) :
    PulseDriven 0 (pulses lib (signatures lib replies msg m) n)
        (lib.application.main b n replies msg) m ∧
      n * (2 + signVerifyWindows false lib) ≤ pulses lib (signatures lib replies msg m) n ∧
      pulses lib (signatures lib replies msg m) n ≤ n * (2 + signVerifyWindows true lib) ∧
      ((∀ i < n, signatures lib replies msg m i = true) →
        pulses lib (signatures lib replies msg m) n = n * (2 + signVerifyWindows true lib)) := by
  refine ⟨pulseDriven_of_answers (answers_ecdsaMain lib hmeasured henergy n replies), ?_, ?_, ?_⟩
  · rw [← total_const]
    exact total_mono (fun i => Nat.add_le_add_left (signVerifyWindows_le _ lib).1 2) n
  · rw [← total_const]
    exact total_mono (fun i => Nat.add_le_add_left (signVerifyWindows_le _ lib).2 2) n
  · intro hmade
    rw [pulses, ← total_const]
    exact total_congr fun i hi => by rw [hmade i hi]

/-- Every other signature fails. -/
def failingSignatures (i : Nat) : Ecdsa.Replies Unit Unit Unit :=
  { Ecdsa.failingReplies with sign := fun _ => if i % 2 = 0 then .ok ((), 64) else .error 1 }

theorem ecdsa_pulses_failing :
    PulseDriven 0 9 (Ecdsa.Library.microEcc.application.main (.measured true) 2 failingSignatures
      Ecdsa.ecdsaMessage) ⟨(), (), Vector.replicate 32 0, (), 64⟩ := by
  have h : PulseDriven 0 _ (Ecdsa.Library.microEcc.application.main (.measured true) 2
      failingSignatures Ecdsa.ecdsaMessage) _ ∧ _ :=
    ecdsa_pulses .microEcc rfl rfl 2 failingSignatures ⟨(), (), Vector.replicate 32 0, (), 64⟩
  exact h.1

end Ecdsa

end Pulses
