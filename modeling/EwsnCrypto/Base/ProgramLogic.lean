import EwsnCrypto.Base.InputProgram

/-!
# What programs emit, and where they finish

Three properties of a program over all its runs, with a rule for each construct:
what every event satisfies and what holds at the end, which events a finished run
contains, and that the program can finish.
-/

namespace InputProgram

variable {ι ε σ α β : Type}

theorem mem_trace_bind {p : Prog ι ε σ α} {f : α → Prog ι ε σ β} {ins : List ι} {st : σ} {e : ε} :
    e ∈ ((p >>= f).exec ins st).trace ↔ e ∈ (p.exec ins st).trace ∨
      ∃ a, (p.exec ins st).value = some a ∧
        e ∈ ((f a).exec (p.exec ins st).rest (p.exec ins st).state).trace := by
  cases hv : (p.exec ins st).value with
  | none => simp [andThen_of_stopped hv]
  | some a => simp [andThen_of_value hv]

theorem forall_trace_bind {P : ε → Prop} {p : Prog ι ε σ α} {f : α → Prog ι ε σ β}
    {ins : List ι} {st : σ} :
    (∀ e ∈ ((p >>= f).exec ins st).trace, P e) ↔ (∀ e ∈ (p.exec ins st).trace, P e) ∧
      ∀ a, (p.exec ins st).value = some a →
        ∀ e ∈ ((f a).exec (p.exec ins st).rest (p.exec ins st).state).trace, P e := by
  simp only [mem_trace_bind]
  constructor
  · intro h
    exact ⟨fun e he => h e (.inl he), fun a ha e he => h e (.inr ⟨a, ha, he⟩)⟩
  · rintro ⟨hfirst, hnext⟩ e (he | ⟨a, ha, he⟩)
    · exact hfirst e he
    · exact hnext a ha e he

/-- From state `st`, every event of every run of `p` satisfies `P`, and `Q` holds
where the run has a value. The history plays no part. -/
def Keeps (P : ε → Prop) (p : Prog ι ε σ α) (Q : α → σ → Prop) (st : σ) : Prop :=
  ∀ ins, (∀ e ∈ (p.exec ins st).trace, P e) ∧
    ∀ a, (p.exec ins st).value = some a → Q a (p.exec ins st).state

/-- Every event of every run of `p` satisfies `P`. -/
def Emits (P : ε → Prop) (p : Prog ι ε σ α) : Prop := ∀ st, Keeps P p (fun _ _ => True) st

section KeepsRules
variable {P : ε → Prop} {st : σ}

theorem keeps_pure {a : α} {Q : α → σ → Prop} (hQ : Q a st) :
    Keeps P (pure a : Prog ι ε σ α) Q st := by
  intro ins
  refine ⟨by simp, ?_⟩
  rintro b hb
  obtain rfl := Option.some.inj hb
  exact hQ

theorem keeps_mono {p : Prog ι ε σ α} {Q R : α → σ → Prop} (hp : Keeps P p Q st)
    (hQR : ∀ a st, Q a st → R a st) : Keeps P p R st :=
  fun ins => ⟨(hp ins).1, fun a ha => hQR a _ ((hp ins).2 a ha)⟩

theorem keeps_bind {p : Prog ι ε σ α} {f : α → Prog ι ε σ β} {Q : β → σ → Prop}
    (hp : Keeps P p (fun a => Keeps P (f a) Q) st) : Keeps P (p >>= f) Q st := by
  intro ins
  obtain ⟨htr, hnext⟩ := hp ins
  refine ⟨forall_trace_bind.mpr ⟨htr, fun a ha => (hnext a ha _).1⟩, ?_⟩
  intro b hb
  obtain ⟨a, ha, hfa⟩ := andThen_value_some hb
  rw [bind_exec, andThen_of_value ha]
  exact (hnext a ha _).2 b hfa

theorem keeps_act {f : σ → α × σ × List ε} {Q : α → σ → Prop} (htr : ∀ e ∈ (f st).2.2, P e)
    (hQ : Q (f st).1 (f st).2.1) : Keeps P (act f : Prog ι ε σ α) Q st := by
  intro ins
  refine ⟨htr, ?_⟩
  rintro a ha
  obtain rfl := Option.some.inj ha
  exact hQ

theorem keeps_emit {e : ε} {Q : Unit → σ → Prop} (he : P e) (hQ : Q () st) :
    Keeps P (emit e : Prog ι ε σ Unit) Q st :=
  keeps_act (by simpa using he) hQ

theorem keeps_readNext {log : ι → ε} {Q : ι → σ → Prop} (hlog : ∀ i, P (log i))
    (hQ : ∀ i, Q i st) : Keeps P (readNext log : Prog ι ε σ ι) Q st := by
  intro ins
  cases ins with
  | nil => simp [readNext]
  | cons i ins => exact ⟨fun e he => List.mem_singleton.mp he ▸ hlog i, fun _ _ => hQ _⟩

theorem keeps_onlyIf {c : Bool} {p : Prog ι ε σ Unit} {Q : Unit → σ → Prop} (hp : Keeps P p Q st)
    (hQ : Q () st) : Keeps P (onlyIf c p) Q st := by
  cases c with
  | true => exact hp
  | false => exact keeps_pure hQ

theorem keeps_pollWhile {again : ι → Bool} {log : ι → ε} {Q : Unit → σ → Prop}
    (hlog : ∀ i, P (log i)) (hQ : Q () st) :
    Keeps P (pollWhile again log : Prog ι ε σ Unit) Q st := by
  intro ins
  induction ins with
  | nil => simp
  | cons i ins ih =>
    by_cases hi : again i = true
    · rw [pollWhile_again hi]
      exact ⟨by simpa [hlog i] using ih.1, ih.2⟩
    · rw [pollWhile_done hi]
      exact ⟨by simpa using hlog i, fun _ _ => hQ⟩

theorem keeps_forRange {n : Nat} {body : Nat → Prog ι ε σ Unit} (I : Nat → σ → Prop)
    (start : I 0 st)
    (round : ∀ i, i < n → ∀ st, I i st → Keeps P (body i) (fun _ => I (i + 1)) st) :
    Keeps P (forRange n body) (fun _ => I n) st := by
  induction n with
  | zero => exact keeps_pure start
  | succ n ih =>
    apply keeps_bind
    exact keeps_mono (ih fun i hi => round i (by omega)) fun _ st hI => round n (by omega) st hI

end KeepsRules

namespace Emits
variable {P : ε → Prop}

theorem mem {p : Prog ι ε σ α} (h : Emits P p) {ins : List ι} {st : σ} :
    ∀ e ∈ (p.exec ins st).trace, P e := (h st ins).1

theorem pure (a : α) : Emits P (Pure.pure a : Prog ι ε σ α) := fun _ => keeps_pure trivial

theorem act {f : σ → α × σ × List ε} (h : ∀ st, ∀ e ∈ (f st).2.2, P e) :
    Emits P (InputProgram.act f : Prog ι ε σ α) := fun st => keeps_act (h st) trivial

theorem emit {e : ε} (h : P e) : Emits P (InputProgram.emit e : Prog ι ε σ Unit) :=
  fun _ => keeps_emit h trivial

theorem bind {p : Prog ι ε σ α} {f : α → Prog ι ε σ β} (hp : Emits P p)
    (hf : ∀ a, Emits P (f a)) : Emits P (p >>= f) :=
  fun st => keeps_bind (keeps_mono (hp st) fun a st _ => hf a st)

theorem forRange {n : Nat} {body : Nat → Prog ι ε σ Unit} (h : ∀ i, Emits P (body i)) :
    Emits P (InputProgram.forRange n body) :=
  fun _ => keeps_forRange (fun _ _ => True) trivial fun i _ st _ => h i st

end Emits

/-- Every finished run of `p` contains an event of the kind `K`. -/
def Contains (K : ε → Prop) (p : Prog ι ε σ α) : Prop :=
  ∀ ins st a, (p.exec ins st).value = some a → ∃ e ∈ (p.exec ins st).trace, K e

namespace Contains
variable {K : ε → Prop} {p : Prog ι ε σ α} {f : α → Prog ι ε σ β}

theorem act {f : σ → α × σ × List ε} (h : ∀ st, ∃ e ∈ (f st).2.2, K e) :
    Contains K (InputProgram.act f : Prog ι ε σ α) := fun _ st _ _ => h st

theorem bind_left (hp : Contains K p) : Contains K (p >>= f) := by
  intro ins st b hb
  obtain ⟨a, ha, _⟩ := andThen_value_some hb
  obtain ⟨e, he, hK⟩ := hp ins st a ha
  exact ⟨e, mem_trace_bind.mpr (.inl he), hK⟩

theorem bind_right (hf : ∀ a, Contains K (f a)) : Contains K (p >>= f) := by
  intro ins st b hb
  obtain ⟨a, ha, hfa⟩ := andThen_value_some hb
  obtain ⟨e, he, hK⟩ := hf a _ _ b hfa
  exact ⟨e, mem_trace_bind.mpr (.inr ⟨a, ha, he⟩), hK⟩

theorem forRange_succ {n : Nat} {body : Nat → Prog ι ε σ Unit} (h : ∀ i, Contains K (body i)) :
    Contains K (InputProgram.forRange (n + 1) body) := bind_right fun _ => h n

end Contains

/-- From every state there are inputs on which `p` finishes, reading exactly them. -/
def Finishes (p : Prog ι ε σ α) : Prop :=
  ∀ st, ∃ ins tr st' a, ∀ rest, p.exec (ins ++ rest) st = ⟨tr, st', rest, some a⟩

namespace Finishes

theorem pure (a : α) : Finishes (Pure.pure a : Prog ι ε σ α) :=
  fun st => ⟨[], [], st, a, fun _ => rfl⟩

theorem act (f : σ → α × σ × List ε) : Finishes (InputProgram.act f : Prog ι ε σ α) :=
  fun st => ⟨[], (f st).2.2, (f st).2.1, (f st).1, fun _ => rfl⟩

theorem emit (e : ε) : Finishes (InputProgram.emit e : Prog ι ε σ Unit) := act _

theorem bind {p : Prog ι ε σ α} {f : α → Prog ι ε σ β} (hp : Finishes p)
    (hf : ∀ a, Finishes (f a)) : Finishes (p >>= f) := by
  intro st
  obtain ⟨ins, tr, st', a, hfirst⟩ := hp st
  obtain ⟨ins', tr', st'', b, hnext⟩ := hf a st'
  refine ⟨ins ++ ins', tr ++ tr', st'', b, fun rest => ?_⟩
  rw [List.append_assoc, bind_exec, hfirst, andThen_some, hnext]

theorem readNext [Inhabited ι] (log : ι → ε) :
    Finishes (InputProgram.readNext log : Prog ι ε σ ι) :=
  fun st => ⟨[default], [log default], st, default, fun _ => rfl⟩

theorem pollWhile {again : ι → Bool} {i : ι} (hi : ¬ again i = true) (log : ι → ε) :
    Finishes (pollWhile again log : Prog ι ε σ Unit) :=
  fun st => ⟨[i], [log i], st, (), fun rest => pollWhile_done hi log rest st⟩

theorem onlyIf {c : Bool} {p : Prog ι ε σ Unit} (h : Finishes p) :
    Finishes (InputProgram.onlyIf c p) := by
  cases c with
  | true => exact h
  | false => exact pure ()

theorem forRange {n : Nat} {body : Nat → Prog ι ε σ Unit} (h : ∀ i, Finishes (body i)) :
    Finishes (InputProgram.forRange n body) := by
  induction n with
  | zero => exact pure ()
  | succ n ih => exact bind ih fun _ => h n

theorem embed {τ δ : Type} {get : τ → σ} {set : σ → τ → τ} {inj : ε → δ} {p : Prog ι ε σ α}
    (h : Finishes p) : Finishes (InputProgram.embed get set inj p) := by
  intro t
  obtain ⟨ins, tr, st', a, hexec⟩ := h (get t)
  refine ⟨ins, tr.map inj, set st' t, a, fun rest => ?_⟩
  rw [embed_exec, hexec]

theorem forM {γ : Type} {xs : List γ} {f : γ → Prog ι ε σ Unit} (h : ∀ x, Finishes (f x)) :
    Finishes (xs.forM f) := by
  induction xs with
  | nil => exact pure ()
  | cons x xs ih => exact bind (h x) fun _ => ih

end Finishes

end InputProgram
