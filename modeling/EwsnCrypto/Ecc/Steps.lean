import EwsnCrypto.Trigger

/-!
# The measured steps of the ECC applications

All eight applications are built from the same few shapes: a library call whose
outputs are written only on success, a call inside a measurement window, a call
while the CryptoCell is enabled, and two calls in sequence of which only the
first is measured and each of which returns early when it fails.
-/

open InputProgram Trigger

namespace EccSteps

/-- Where a private key lives: a buffer, a chip slot, or a RELIC key structure. -/
inductive PrivKey where
  | userPrivKey
  | userPrivKey1
  | userPrivKey2
  | slot (keyId : Nat)
  | keyA
  | keyB
deriving DecidableEq

inductive PubKey where
  | userPubKey
  | userPubKey1
  | userPubKey2
  | keyA
  | keyB
deriving DecidableEq

variable {C σ ρ : Type}

/-- A library call: on success it stores its result, on failure it returns a
code and leaves its outputs as they were. -/
def libCall (c : σ → C) (reply : σ → Except Nat ρ) (store : ρ → σ → σ) :
    App C σ (Except Nat ρ) :=
  act fun s => match reply s with
    | .ok r => (.ok r, store r s, [.call (c s) true])
    | .error code => (.error code, s, [.call (c s) false])

/-- A call that cannot fail and whose effect is not modelled. -/
def plainCall (c : C) : App C σ Unit := emit (.call c true)

/-- `_start_trigger(); ret = p(); _stop_trigger();` -/
def measured {α : Type} (b : Build) (p : App C σ α) : App C σ α := do
  startTrigger b
  let r ← p
  stopTrigger b
  pure r

/-- `cryptocell_enable(); ret = p(); cryptocell_disable();` -/
def enclosed {α : Type} (enable disable : C) (p : App C σ α) : App C σ α := do
  plainCall enable
  let r ← p
  plainCall disable
  pure r

/-- Two calls in sequence, the first of them measured; a failing call is
reported and ends the function. -/
def checkedPair (b : Build) (first : App C σ (Except Nat ρ)) (failed1 : Nat → App C σ Unit)
    (second : App C σ (Except Nat ρ)) (failed2 : Nat → App C σ Unit) (finish : App C σ Unit) :
    App C σ Unit := do
  match ← measured b first with
  | .error code => failed1 code
  | .ok _ =>
    match ← second with
    | .error code => failed2 code
    | .ok _ => finish

/-- A line reported for a failing call, with or without its code. -/
structure Report where
  line : String
  withCode : Bool
  no_verdict : line ≠ "SUCCESS" ∧ line ≠ "ERROR" ∧ line ≠ "VALID"

/-- Reports of a failed key generation that both applications of a library print. -/
def Report.uECCKey1 : Report := ⟨"ERROR generating Key 1", false, by decide⟩

def Report.genKeyPair1 : Report :=
  ⟨"CRYS_ECPKI_GenKeyPair for key pair 1 failed with 0x%x \n", true, by decide⟩

def Report.genkeyPubKey1 : Report :=
  ⟨" atcab_genkey for PubKey1 failed with 0x%x \n", true, by decide⟩

def Report.relicKeyPair : Report :=
  ⟨"ECDH key pair creation failed. Not good :( \n", false, by decide⟩

def Report.event (r : Report) (code : Nat) : Event C :=
  if r.withCode then .printf r.line code else .puts r.line

def Report.print (r : Report) (code : Nat) : App C σ Unit := emit (r.event code)

section Kept
variable {α : Type} {P : Event C → Prop} {m : σ}

theorem keeps_libCall {c : σ → C} {reply : σ → Except Nat ρ} {store : ρ → σ → σ}
    {Q : Except Nat ρ → σ → Prop} (hcall : ∀ ok, P (.call (c m) ok))
    (hok : ∀ r, reply m = .ok r → Q (.ok r) (store r m))
    (herror : ∀ code, reply m = .error code → Q (.error code) m) :
    Keeps P (libCall c reply store) Q m := by
  apply keeps_act
  · cases reply m <;> simpa using hcall _
  · cases hreply : reply m with
    | ok r => exact hok r hreply
    | error code => exact herror code hreply

theorem keeps_measured {b : Build} {p : App C σ α} {Q : α → σ → Prop}
    (hpins : ∀ e, visible e = false → P e) (hp : Keeps P p Q m) :
    Keeps P (measured b p) Q m :=
  keeps_bind (keeps_startTrigger hpins b (keeps_bind (keeps_mono hp fun _ _ hQ =>
    keeps_bind (keeps_stopTrigger hpins b (keeps_pure hQ)))))

theorem keeps_enclosed {enable disable : C} {p : App C σ α} {Q : α → σ → Prop}
    (henable : P (.call enable true)) (hdisable : P (.call disable true)) (hp : Keeps P p Q m) :
    Keeps P (enclosed enable disable p) Q m :=
  keeps_bind (keeps_emit henable (keeps_bind (keeps_mono hp fun _ _ hQ =>
    keeps_bind (keeps_emit hdisable (keeps_pure hQ)))))

theorem emits_libCall {c : σ → C} {reply : σ → Except Nat ρ} {store : ρ → σ → σ}
    (hcall : ∀ m ok, P (.call (c m) ok)) : Emits P (libCall c reply store) :=
  fun m => keeps_libCall (hcall m) (fun _ _ => trivial) fun _ _ => trivial

theorem emits_measured {b : Build} {p : App C σ α} (hpins : ∀ e, visible e = false → P e)
    (hp : Emits P p) : Emits P (measured b p) := fun m => keeps_measured hpins (hp m)

theorem emits_enclosed {enable disable : C} {p : App C σ α} (henable : P (.call enable true))
    (hdisable : P (.call disable true)) (hp : Emits P p) : Emits P (enclosed enable disable p) :=
  fun m => keeps_enclosed henable hdisable (hp m)

theorem contains_libCall {K : Event C → Prop} {c : σ → C} {reply : σ → Except Nat ρ}
    {store : ρ → σ → σ} (hcall : ∀ m ok, K (.call (c m) ok)) :
    Contains K (libCall c reply store) := by
  refine .act fun m => ?_
  cases reply m with
  | ok r => exact ⟨.call (c m) true, List.mem_singleton_self _, hcall m true⟩
  | error code => exact ⟨.call (c m) false, List.mem_singleton_self _, hcall m false⟩

end Kept

/-- A library call shows itself and nothing else. -/
theorem mem_libCall_trace {c : σ → C} {reply : σ → Except Nat ρ} {store : ρ → σ → σ} {m : σ}
    {e : Event C} (he : e ∈ (match reply m with
      | .ok r => ((.ok r, store r m, [.call (c m) true]) : Except Nat ρ × σ × List (Event C))
      | .error code => (.error code, m, [.call (c m) false])).2.2) : ∃ ok, e = .call (c m) ok := by
  cases hreply : reply m with
  | ok r =>
    simp only [hreply, List.mem_singleton] at he
    exact ⟨true, he⟩
  | error code =>
    simp only [hreply, List.mem_singleton] at he
    exact ⟨false, he⟩

theorem quiet_libCall {c : σ → C} {reply : σ → Except Nat ρ} {store : ρ → σ → σ} :
    Quiet (libCall c reply store) := by
  refine .act fun m e he => ?_
  obtain ⟨ok, rfl⟩ := mem_libCall_trace he
  rfl

section Progress
variable {α : Type} {b : Build}

theorem measured_finishes {p : App C σ α} (h : Finishes p) : Finishes (measured b p) :=
  .bind (startTrigger_finishes b) fun _ => .bind h fun r =>
    .bind (stopTrigger_finishes b) fun _ => .pure r

theorem enclosed_finishes {enable disable : C} {p : App C σ α} (h : Finishes p) :
    Finishes (enclosed enable disable p) :=
  .bind (.emit _) fun _ => .bind h fun r => .bind (.emit _) fun _ => .pure r

end Progress

/-- Every run of `p` from `m` finishes with value `a`, memory `m'` and the visible
events `tr`, and never waits for the sync pin. -/
def Atomic {α : Type} (p : App C σ α) (m : σ) (a : α) (m' : σ) (tr : List (Event C)) : Prop :=
  ∀ ins, (p.exec ins m).value = some a ∧ (p.exec ins m).state = m' ∧
    (p.exec ins m).trace.filter visible = tr

/-- Every run of `p` from `m` finishes like that, or waits for the sync pin and
has not shown `e` until then. -/
def Does {α : Type} (e : Event C) (p : App C σ α) (m : σ) (a : α) (m' : σ)
    (tr : List (Event C)) : Prop :=
  ∀ ins, ((p.exec ins m).value = some a ∧ (p.exec ins m).state = m' ∧
    (p.exec ins m).trace.filter visible = tr) ∨
    ((p.exec ins m).value = none ∧ e ∉ (p.exec ins m).trace)

section Effects
variable {α β : Type} {e : Event C} {b : Build} {m m' m'' : σ} {tr tr' : List (Event C)}

theorem atomic_pure (a : α) : Atomic (pure a : App C σ α) m a m [] := fun _ => ⟨rfl, rfl, rfl⟩

theorem atomic_emit (e : Event C) : Atomic (emit e : App C σ Unit) m () m ([e].filter visible) :=
  fun _ => ⟨rfl, rfl, rfl⟩

theorem atomic_act (f : σ → α × σ × List (Event C)) :
    Atomic (act f : App C σ α) m (f m).1 (f m).2.1 ((f m).2.2.filter visible) :=
  fun _ => ⟨rfl, rfl, rfl⟩

theorem Atomic.bind {p : App C σ α} {f : α → App C σ β} {a : α} {c : β}
    (hp : Atomic p m a m' tr) (hf : Atomic (f a) m' c m'' tr') :
    Atomic (p >>= f) m c m'' (tr ++ tr') := by
  intro ins
  obtain ⟨hvalue, hstate, htr⟩ := hp ins
  obtain ⟨hvalue', hstate', htr'⟩ := hf (p.exec ins m).rest
  rw [bind_exec, andThen_of_value hvalue, hstate]
  exact ⟨hvalue', hstate', by rw [List.filter_append, htr, htr']⟩

theorem Atomic.does {p : App C σ α} {a : α} (hp : Atomic p m a m' tr) : Does e p m a m' tr :=
  fun ins => .inl (hp ins)

theorem Does.bind {p : App C σ α} {f : α → App C σ β} {a : α} {c : β} (he : visible e = true)
    (hp : Does e p m a m' tr) (hquiet : e ∉ tr) (hf : Does e (f a) m' c m'' tr') :
    Does e (p >>= f) m c m'' (tr ++ tr') := by
  intro ins
  rcases hp ins with ⟨hvalue, hstate, htr⟩ | ⟨hvalue, hshown⟩
  · rw [bind_exec, andThen_of_value hvalue, hstate]
    rcases hf (p.exec ins m).rest with ⟨hvalue', hstate', htr'⟩ | ⟨hvalue', hshown'⟩
    · exact .inl ⟨hvalue', hstate', by rw [List.filter_append, htr, htr']⟩
    · refine .inr ⟨hvalue', fun hmem => ?_⟩
      rcases List.mem_append.mp hmem with hfirst | hnext
      · exact hquiet (htr ▸ List.mem_filter.mpr ⟨hfirst, he⟩)
      · exact hshown' hnext
  · rw [bind_exec, andThen_of_stopped hvalue]
    exact .inr ⟨rfl, hshown⟩

/-- What never waits may follow an event `e`. -/
theorem Does.bind_atomic {p : App C σ α} {f : α → App C σ β} {a : α} {c : β}
    (hp : Does e p m a m' tr) (hf : Atomic (f a) m' c m'' tr') :
    Does e (p >>= f) m c m'' (tr ++ tr') := by
  intro ins
  rcases hp ins with ⟨hvalue, hstate, htr⟩ | ⟨hvalue, hshown⟩
  · obtain ⟨hvalue', hstate', htr'⟩ := hf (p.exec ins m).rest
    rw [bind_exec, andThen_of_value hvalue, hstate]
    exact .inl ⟨hvalue', hstate', by rw [List.filter_append, htr, htr']⟩
  · rw [bind_exec, andThen_of_stopped hvalue]
    exact .inr ⟨rfl, hshown⟩

/-- What shows nothing but pin accesses and leaves the memory alone. -/
theorem does_pins {p : App C σ Unit} (he : visible e = true)
    (hp : Keeps (fun e' => visible e' = false) p (fun _ m' => m' = m) m) : Does e p m () m [] := by
  intro ins
  obtain ⟨htr, hvalue⟩ := hp ins
  cases hv : (p.exec ins m).value with
  | none =>
    refine .inr ⟨rfl, fun hmem => ?_⟩
    rw [htr e hmem] at he
    exact Bool.false_ne_true he
  | some a =>
    refine .inl ⟨rfl, hvalue a hv, List.filter_eq_nil_iff.mpr fun e' he' => ?_⟩
    simp [htr e' he']

theorem does_startTrigger (he : visible e = true) :
    Does e (startTrigger b : App C σ Unit) m () m [] :=
  does_pins he (keeps_startTrigger (fun _ h => h) b rfl)

theorem atomic_stopTrigger : Atomic (stopTrigger b : App C σ Unit) m () m [] := by
  intro ins
  cases hb : b.testEnergy <;> simp [stopTrigger, hb, gpioSet, gpioClear]

theorem does_measured {p : App C σ α} {a : α} (he : visible e = true)
    (hp : Atomic p m a m' tr) : Does e (measured b p) m a m' tr := by
  have hrest : Atomic (p >>= fun r => stopTrigger b >>= fun _ => pure r) m a m'
      (tr ++ ([] ++ [])) :=
    hp.bind (atomic_stopTrigger.bind (atomic_pure a))
  have h : Does e (measured b p) m a m' ([] ++ (tr ++ ([] ++ []))) :=
    (does_startTrigger he).bind_atomic hrest
  simpa using h

theorem atomic_libCall_ok {c : σ → C} {reply : σ → Except Nat ρ} {store : ρ → σ → σ} {r : ρ}
    (h : reply m = .ok r) :
    Atomic (libCall c reply store) m (.ok r) (store r m) [.call (c m) true] := by
  intro ins
  simp [libCall, h]

theorem atomic_libCall_error {c : σ → C} {reply : σ → Except Nat ρ} {store : ρ → σ → σ}
    {code : Nat} (h : reply m = .error code) :
    Atomic (libCall c reply store) m (.error code) m [.call (c m) false] := by
  intro ins
  simp [libCall, h]

theorem Atomic.enclosed {p : App C σ α} {a : α} (hp : Atomic p m a m' tr) (enable disable : C) :
    Atomic (enclosed enable disable p) m a m'
      (.call enable true :: tr ++ [.call disable true]) := by
  have hrest : Atomic (p >>= fun r => plainCall disable >>= fun _ => pure r) m a m'
      (tr ++ ([.call disable true] ++ [])) := hp.bind ((atomic_emit _).bind (atomic_pure a))
  have h : Atomic (EccSteps.enclosed enable disable p) m a m'
      ([.call enable true] ++ (tr ++ ([.call disable true] ++ []))) := (atomic_emit _).bind hrest
  simpa using h

section CheckedPair
variable {first second : App C σ (Except Nat ρ)} {failed1 failed2 : Nat → App C σ Unit}
variable {finish : App C σ Unit} {code : Nat} {x y : ρ}

theorem does_checkedPair_error1 (he : visible e = true) (h1 : Atomic first m (.error code) m' tr)
    (hfail : Atomic (failed1 code) m' () m'' tr') :
    Does e (checkedPair b first failed1 second failed2 finish) m () m'' (tr ++ tr') :=
  (does_measured he h1).bind_atomic hfail

theorem does_checkedPair_error2 {m₂ : σ} {tr₂ : List (Event C)} (he : visible e = true)
    (h1 : Atomic first m (.ok x) m' tr) (h2 : Atomic second m' (.error code) m₂ tr₂)
    (hfail : Atomic (failed2 code) m₂ () m'' tr') :
    Does e (checkedPair b first failed1 second failed2 finish) m () m'' (tr ++ (tr₂ ++ tr')) :=
  (does_measured he h1).bind_atomic (h2.bind hfail)

theorem does_checkedPair_ok {m₂ : σ} {tr₂ : List (Event C)} (he : visible e = true)
    (h1 : Atomic first m (.ok x) m' tr) (h2 : Atomic second m' (.ok y) m₂ tr₂)
    (hfinish : Atomic finish m₂ () m'' tr') :
    Does e (checkedPair b first failed1 second failed2 finish) m () m'' (tr ++ (tr₂ ++ tr')) :=
  (does_measured he h1).bind_atomic (h2.bind hfinish)

end CheckedPair

theorem Does.func {f : Fn} {body : App C σ Unit} (h : Does e body m () m' tr) :
    Does e (func f body) m () m' (tr ++ [.leave f]) := h.bind_atomic (atomic_emit _)

end Effects

end EccSteps
