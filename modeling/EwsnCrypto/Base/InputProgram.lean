import Mathlib.Data.List.Basic

/-!
# Programs that read a finite input and leave a trace

A program consumes a list of inputs, transforms a state and appends events to
a trace. When the inputs run out at a read, the run stops there without a
value: the runs over all finite lists are exactly the finite prefixes of the
runs over infinite input streams, so no fuel is needed for a polling loop.
-/

namespace InputProgram

/-- One run: what was emitted, the final state, the unread inputs, and the
result. The result is missing when the run stopped at a read without input. -/
structure Run (ι ε σ α : Type) where
  trace : List ε
  state : σ
  rest : List ι
  value : Option α

structure Prog (ι ε σ α : Type) where
  exec : List ι → σ → Run ι ε σ α

variable {ι ε σ α β : Type}

/-- Continue a run with the next program, unless it has stopped. -/
def andThen (r : Run ι ε σ α) (f : α → Prog ι ε σ β) : Run ι ε σ β :=
  match r.value with
  | none => ⟨r.trace, r.state, r.rest, none⟩
  | some a =>
    let next := (f a).exec r.rest r.state
    ⟨r.trace ++ next.trace, next.state, next.rest, next.value⟩

instance : Monad (Prog ι ε σ) where
  pure a := ⟨fun ins s => ⟨[], s, ins, some a⟩⟩
  bind p f := ⟨fun ins s => andThen (p.exec ins s) f⟩

/-- An atomic step: it reads and updates the state, emits events, returns a value. -/
def act (f : σ → α × σ × List ε) : Prog ι ε σ α where
  exec ins s := ⟨(f s).2.2, (f s).2.1, ins, some (f s).1⟩

def emit (e : ε) : Prog ι ε σ Unit := act fun s => ((), s, [e])

/-- One read, which is logged. -/
def readNext (log : ι → ε) : Prog ι ε σ ι where
  exec
    | [], s => ⟨[], s, [], none⟩
    | i :: ins, s => ⟨[log i], s, ins, some i⟩

/-- A statement under a build flag or a condition. -/
def onlyIf (c : Bool) (p : Prog ι ε σ Unit) : Prog ι ε σ Unit := if c then p else pure ()

def pollRun (again : ι → Bool) (log : ι → ε) : List ι → σ → Run ι ε σ Unit
  | [], s => ⟨[], s, [], none⟩
  | i :: ins, s =>
    if again i then
      let r := pollRun again log ins s
      ⟨log i :: r.trace, r.state, r.rest, r.value⟩
    else ⟨[log i], s, ins, some ()⟩

/-- `while (again(read())) {}`: every read is logged, and reading ends with the
first input that does not satisfy `again`. -/
def pollWhile (again : ι → Bool) (log : ι → ε) : Prog ι ε σ Unit := ⟨pollRun again log⟩

/-- `for (i = 0; i < n; i++) body(i)`. The first `n` rounds are a program of
their own, which `n + 1` rounds continue. -/
def forRange : Nat → (Nat → Prog ι ε σ Unit) → Prog ι ε σ Unit
  | 0, _ => pure ()
  | n + 1, body => do
    forRange n body
    body n

/-- A program on a part of a larger state, whose events stand among others. -/
def embed {τ δ : Type} (get : τ → σ) (set : σ → τ → τ) (inj : ε → δ) (p : Prog ι ε σ α) :
    Prog ι δ τ α where
  exec ins t :=
    let r := p.exec ins (get t)
    ⟨r.trace.map inj, set r.state t, r.rest, r.value⟩

/-- Round `i` of a loop that was started on `ins` and `s` is reached, and starts
on `ins'` and `s'`. -/
def RoundStarts (body : Nat → Prog ι ε σ Unit) (ins : List ι) (s : σ) (i : Nat) (ins' : List ι)
    (s' : σ) : Prop :=
  ((forRange i body).exec ins s).value = some () ∧ ((forRange i body).exec ins s).rest = ins' ∧
    ((forRange i body).exec ins s).state = s'

/-- What a loop body did: fall through to the next round, or return. -/
inductive Flow where
  | next
  | ret
deriving DecidableEq

/-- A loop whose body may return from the enclosing function. -/
def forReturn : Nat → (Nat → Prog ι ε σ Flow) → Prog ι ε σ Flow
  | 0, _ => pure .next
  | n + 1, body => do
    match ← forReturn n body with
    | .ret => pure .ret
    | .next => body n

/-- Round `i` of a loop that may return is reached, and starts on `ins'` and `s'`. -/
def Entered (body : Nat → Prog ι ε σ Flow) (ins : List ι) (s : σ) (i : Nat) (ins' : List ι)
    (s' : σ) : Prop :=
  ((forReturn i body).exec ins s).value = some .next ∧ ((forReturn i body).exec ins s).rest = ins' ∧
    ((forReturn i body).exec ins s).state = s'

@[simp] theorem andThen_some (tr : List ε) (s : σ) (ins : List ι) (a : α)
    (f : α → Prog ι ε σ β) :
    andThen ⟨tr, s, ins, some a⟩ f =
      ⟨tr ++ ((f a).exec ins s).trace, ((f a).exec ins s).state, ((f a).exec ins s).rest,
        ((f a).exec ins s).value⟩ := rfl

@[simp] theorem andThen_none (tr : List ε) (s : σ) (ins : List ι)
    (f : α → Prog ι ε σ β) : andThen ⟨tr, s, ins, none⟩ f = ⟨tr, s, ins, none⟩ := rfl

@[simp] theorem pure_exec (a : α) (ins : List ι) (s : σ) :
    (pure a : Prog ι ε σ α).exec ins s = ⟨[], s, ins, some a⟩ := rfl

@[simp] theorem bind_exec (p : Prog ι ε σ α) (f : α → Prog ι ε σ β) (ins : List ι) (s : σ) :
    (p >>= f).exec ins s = andThen (p.exec ins s) f := rfl

@[simp] theorem map_exec (f : α → β) (p : Prog ι ε σ α) (ins : List ι) (s : σ) :
    (f <$> p).exec ins s = andThen (p.exec ins s) fun a => pure (f a) := rfl

@[simp] theorem act_exec (f : σ → α × σ × List ε) (ins : List ι) (s : σ) :
    (act f : Prog ι ε σ α).exec ins s = ⟨(f s).2.2, (f s).2.1, ins, some (f s).1⟩ := rfl

@[simp] theorem emit_exec (e : ε) (ins : List ι) (s : σ) :
    (emit e : Prog ι ε σ Unit).exec ins s = ⟨[e], s, ins, some ()⟩ := rfl

@[simp] theorem embed_exec {τ δ : Type} (get : τ → σ) (set : σ → τ → τ) (inj : ε → δ)
    (p : Prog ι ε σ α) (ins : List ι) (t : τ) :
    (embed get set inj p).exec ins t =
      ⟨(p.exec ins (get t)).trace.map inj, set (p.exec ins (get t)).state t,
        (p.exec ins (get t)).rest, (p.exec ins (get t)).value⟩ := rfl

@[simp] theorem onlyIf_true (p : Prog ι ε σ Unit) : onlyIf true p = p := rfl

@[simp] theorem onlyIf_false (p : Prog ι ε σ Unit) : onlyIf false p = pure () := rfl

@[simp] theorem pollWhile_nil (again : ι → Bool) (log : ι → ε) (s : σ) :
    (pollWhile again log).exec [] s = ⟨[], s, [], none⟩ := rfl

theorem pollWhile_again {again : ι → Bool} {i : ι} (hi : again i = true) (log : ι → ε)
    (ins : List ι) (s : σ) :
    (pollWhile again log).exec (i :: ins) s =
      { (pollWhile again log).exec ins s with
        trace := log i :: ((pollWhile again log).exec ins s).trace } := by
  simp [pollWhile, pollRun, hi]

theorem pollWhile_done {again : ι → Bool} {i : ι} (hi : ¬ again i = true) (log : ι → ε)
    (ins : List ι) (s : σ) :
    (pollWhile again log).exec (i :: ins) s = ⟨[log i], s, ins, some ()⟩ := by
  simp [pollWhile, pollRun, hi]

/-- A run that continues has a value for its first part and for its second. -/
theorem andThen_value_some {r : Run ι ε σ α} {f : α → Prog ι ε σ β} {b : β}
    (h : (andThen r f).value = some b) :
    ∃ a, r.value = some a ∧ ((f a).exec r.rest r.state).value = some b := by
  cases hv : r.value with
  | none => simp [andThen, hv] at h
  | some a => exact ⟨a, rfl, by simpa [andThen, hv] using h⟩

theorem andThen_of_value {r : Run ι ε σ α} {a : α} (h : r.value = some a)
    (f : α → Prog ι ε σ β) :
    andThen r f = ⟨r.trace ++ ((f a).exec r.rest r.state).trace, ((f a).exec r.rest r.state).state,
      ((f a).exec r.rest r.state).rest, ((f a).exec r.rest r.state).value⟩ := by
  simp [andThen, h]

theorem andThen_of_stopped {r : Run ι ε σ α} (h : r.value = none) (f : α → Prog ι ε σ β) :
    andThen r f = ⟨r.trace, r.state, r.rest, none⟩ := by
  simp [andThen, h]

theorem andThen_pure (r : Run ι ε σ α) : andThen r pure = r := by
  obtain ⟨tr, s, ins, _ | a⟩ := r <;> simp

theorem andThen_assoc {γ : Type} (r : Run ι ε σ α) (f : α → Prog ι ε σ β)
    (g : β → Prog ι ε σ γ) : andThen (andThen r f) g = andThen r fun a => f a >>= g := by
  obtain ⟨tr, s, ins, _ | a⟩ := r
  · simp
  · cases hv : ((f a).exec ins s).value <;> simp [andThen, hv]

theorem prog_ext {p q : Prog ι ε σ α} (h : ∀ ins s, p.exec ins s = q.exec ins s) : p = q :=
  congrArg Prog.mk (funext fun ins => funext fun s => h ins s)

instance : LawfulMonad (Prog ι ε σ) := LawfulMonad.mk' _
  (fun _ => prog_ext fun _ _ => andThen_pure _)
  (fun _ _ => prog_ext fun _ _ => by simp)
  (fun _ _ _ => prog_ext fun _ _ => andThen_assoc _ _ _)

theorem forM_emit_exec (events : List ε) (ins : List ι) (s : σ) :
    (events.forM emit : Prog ι ε σ Unit).exec ins s = ⟨events, s, ins, some ()⟩ := by
  induction events with
  | nil => rfl
  | cons e events ih =>
    have hexec : ((e :: events).forM emit : Prog ι ε σ Unit).exec ins s =
        andThen ⟨[e], s, ins, some ()⟩ fun _ => events.forM emit := rfl
    rw [hexec, andThen_some, ih, List.singleton_append]

/-- After `n` finished rounds the loop goes on with round `n`. -/
theorem forRange_succ_exec {body : Nat → Prog ι ε σ Unit} {ins : List ι} {s : σ} {n : Nat}
    (h : ((forRange n body).exec ins s).value = some ()) :
    (forRange (n + 1) body).exec ins s =
      { (body n).exec ((forRange n body).exec ins s).rest ((forRange n body).exec ins s).state with
        trace := ((forRange n body).exec ins s).trace ++
          ((body n).exec ((forRange n body).exec ins s).rest
            ((forRange n body).exec ins s).state).trace } :=
  andThen_of_value h fun _ => body n

/-- The next round starts where a round has finished. -/
theorem roundStarts_succ {body : Nat → Prog ι ε σ Unit} {ins ins'' : List ι} {s s'' : σ} {i : Nat}
    (h : RoundStarts body ins s (i + 1) ins'' s'') :
    ∃ ins' s', RoundStarts body ins s i ins' s' ∧ ((body i).exec ins' s').value = some () ∧
      ((body i).exec ins' s').rest = ins'' ∧ ((body i).exec ins' s').state = s'' := by
  obtain ⟨hvalue, hrest, hstate⟩ := h
  obtain ⟨_, hprev, hround⟩ := andThen_value_some hvalue
  rw [forRange_succ_exec hprev] at hrest hstate
  exact ⟨_, _, ⟨hprev, rfl, rfl⟩, hround, hrest, hstate⟩

theorem entered_zero {body : Nat → Prog ι ε σ Flow} {ins ins' : List ι} {s s' : σ} :
    Entered body ins s 0 ins' s' ↔ ins' = ins ∧ s' = s := by
  constructor
  · rintro ⟨_, rfl, rfl⟩
    exact ⟨rfl, rfl⟩
  · rintro ⟨rfl, rfl⟩
    exact ⟨rfl, rfl, rfl⟩

theorem Entered.exec_succ {body : Nat → Prog ι ε σ Flow} {ins ins' : List ι} {s s' : σ} {i : Nat}
    (h : Entered body ins s i ins' s') :
    (forReturn (i + 1) body).exec ins s =
      { (body i).exec ins' s' with
        trace := ((forReturn i body).exec ins s).trace ++ ((body i).exec ins' s').trace } := by
  obtain ⟨hvalue, rfl, rfl⟩ := h
  exact andThen_of_value hvalue _

/-- A loop that has returned makes no further round. -/
theorem forReturn_of_ret {body : Nat → Prog ι ε σ Flow} {ins : List ι} {s : σ} {i : Nat}
    (h : ((forReturn i body).exec ins s).value = some .ret) :
    (forReturn (i + 1) body).exec ins s = (forReturn i body).exec ins s := by
  have hexec : (forReturn (i + 1) body).exec ins s = _ := andThen_of_value h _
  rw [hexec]
  cases hrun : (forReturn i body).exec ins s with
  | mk tr s' ins' value =>
    rw [hrun] at h
    obtain rfl : value = some .ret := h
    simp

/-- The next round is entered where a round falls through. -/
theorem entered_succ {body : Nat → Prog ι ε σ Flow} {ins ins'' : List ι} {s s'' : σ} {i : Nat} :
    Entered body ins s (i + 1) ins'' s'' ↔ ∃ ins' s', Entered body ins s i ins' s' ∧
      ((body i).exec ins' s').value = some .next ∧ ((body i).exec ins' s').rest = ins'' ∧
      ((body i).exec ins' s').state = s'' := by
  constructor
  · rintro ⟨hvalue, hrest, hstate⟩
    obtain ⟨flow, hprev, hround⟩ := andThen_value_some hvalue
    cases flow with
    | ret => simp at hround
    | next =>
      have hexec : (forReturn (i + 1) body).exec ins s = _ := andThen_of_value hprev _
      rw [hexec] at hrest hstate
      exact ⟨_, _, ⟨hprev, rfl, rfl⟩, hround, hrest, hstate⟩
  · rintro ⟨ins', s', ⟨hprev, rfl, rfl⟩, hround, hrest, hstate⟩
    have hexec : (forReturn (i + 1) body).exec ins s = _ := andThen_of_value hprev _
    exact ⟨by rw [hexec]; exact hround, by rw [hexec]; exact hrest, by rw [hexec]; exact hstate⟩

end InputProgram
