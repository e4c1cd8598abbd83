import EwsnCrypto.Base.InputProgram
import Mathlib.Data.List.Induction

/-!
# Monitors of traces

A monitor follows a trace event by event and says in each of its states which
events may come, and whether the program may wait for an input. A program
follows a monitor from one condition on the state to another when this holds
throughout every run.
-/

namespace InputProgram

variable {ι ε σ α β μ : Type}

structure Monitor (μ ε : Type) where
  next : μ → ε → μ
  ok : μ → ε → Prop
  waits : μ → Prop

namespace Monitor
variable (M : Monitor μ ε)

/-- The state after a trace. -/
def after (s : μ) (tr : List ε) : μ := tr.foldl M.next s

def Accepts : μ → List ε → Prop
  | _, [] => True
  | s, e :: tr => M.ok s e ∧ Accepts (M.next s e) tr

@[simp] theorem after_nil (s : μ) : M.after s [] = s := rfl

@[simp] theorem after_cons (s : μ) (e : ε) (tr : List ε) :
    M.after s (e :: tr) = M.after (M.next s e) tr := rfl

@[simp] theorem after_append (s : μ) (tr tr' : List ε) :
    M.after s (tr ++ tr') = M.after (M.after s tr) tr' := List.foldl_append ..

@[simp] theorem accepts_nil (s : μ) : M.Accepts s [] := trivial

@[simp] theorem accepts_cons (s : μ) (e : ε) (tr : List ε) :
    M.Accepts s (e :: tr) ↔ M.ok s e ∧ M.Accepts (M.next s e) tr := Iff.rfl

@[simp] theorem accepts_append (s : μ) (tr tr' : List ε) :
    M.Accepts s (tr ++ tr') ↔ M.Accepts s tr ∧ M.Accepts (M.after s tr) tr' := by
  induction tr generalizing s with
  | nil => simp
  | cons e tr ih => simp [ih, and_assoc]

variable {M}

theorem accepts_iff {s : μ} {tr : List ε} :
    M.Accepts s tr ↔ ∀ pre e post, tr = pre ++ e :: post → M.ok (M.after s pre) e := by
  induction tr generalizing s with
  | nil => simp
  | cons e tr ih =>
    rw [accepts_cons, ih]
    constructor
    · rintro ⟨he, htr⟩ pre e' post heq
      cases pre with
      | nil =>
        obtain ⟨rfl, _⟩ := List.cons.inj heq
        exact he
      | cons p pre =>
        obtain ⟨rfl, htail⟩ := List.cons.inj heq
        exact htr pre e' post htail
    · intro h
      constructor
      · exact h [] e tr rfl
      · intro pre e' post heq
        exact h (e :: pre) e' post (by rw [heq, List.cons_append])

/-- In an accepted trace every event may come after those before it. -/
theorem Accepts.split {s : μ} {tr pre post : List ε} {e : ε} (h : M.Accepts s tr)
    (heq : tr = pre ++ e :: post) : M.ok (M.after s pre) e := accepts_iff.mp h pre e post heq

/-- What holds of the empty trace and is kept by every event that may come holds
of every accepted trace. -/
theorem Accepts.induction {s : μ} {tr : List ε} (h : M.Accepts s tr) (P : List ε → Prop)
    (start : P []) (step : ∀ tr e, P tr → M.ok (M.after s tr) e → P (tr ++ [e])) : P tr := by
  induction tr using List.reverseRecOn with
  | nil => exact start
  | append_singleton tr e ih =>
    obtain ⟨htr, he, _⟩ := (M.accepts_append s tr [e]).mp h
    exact step tr e (ih htr) he

end Monitor

/-- The monitor whose state is the trace so far. -/
def history (ok : List ε → ε → Prop) (waits : List ε → Prop) : Monitor (List ε) ε where
  next h e := h ++ [e]
  ok := ok
  waits := waits

theorem history_after {ok : List ε → ε → Prop} {waits : List ε → Prop} (h tr : List ε) :
    (history ok waits).after h tr = h ++ tr := by
  induction tr generalizing h with
  | nil => simp
  | cons e tr ih =>
    rw [Monitor.after_cons, ih]
    simp [history]

/-- From a monitor state with `pre` all events of every run of `p` may come; the
finished runs end in a state with `post`, and the others where `p` may wait. -/
def Follows (M : Monitor μ ε) (pre : μ → Prop) (p : Prog ι ε σ α) (post : μ → Prop) : Prop :=
  ∀ s, pre s → ∀ ins st, M.Accepts s (p.exec ins st).trace ∧
    match (p.exec ins st).value with
    | some _ => post (M.after s (p.exec ins st).trace)
    | none => M.waits (M.after s (p.exec ins st).trace)

section Rules
variable {M : Monitor μ ε} {pre mid post : μ → Prop}

theorem Follows.finished {p : Prog ι ε σ α} (h : Follows M pre p post) {s : μ} (hs : pre s)
    {ins : List ι} {st : σ} {a : α} (hv : (p.exec ins st).value = some a) :
    post (M.after s (p.exec ins st).trace) := by
  have hend := (h s hs ins st).2
  rwa [hv] at hend

theorem Follows.stopped {p : Prog ι ε σ α} (h : Follows M pre p post) {s : μ} (hs : pre s)
    {ins : List ι} {st : σ} (hv : (p.exec ins st).value = none) :
    M.waits (M.after s (p.exec ins st).trace) := by
  have hend := (h s hs ins st).2
  rwa [hv] at hend

theorem follows_pure (a : α) : Follows M pre (pure a : Prog ι ε σ α) pre :=
  fun _ hs _ _ => ⟨trivial, hs⟩

theorem follows_act {f : σ → α × σ × List ε}
    (h : ∀ s, pre s → ∀ st, M.Accepts s (f st).2.2 ∧ post (M.after s (f st).2.2)) :
    Follows M pre (act f : Prog ι ε σ α) post :=
  fun s hs _ st => h s hs st

theorem follows_emit {e : ε} (h : ∀ s, pre s → M.ok s e ∧ post (M.next s e)) :
    Follows M pre (emit e : Prog ι ε σ Unit) post :=
  follows_act fun s hs _ => ⟨⟨(h s hs).1, trivial⟩, (h s hs).2⟩

theorem follows_bind {p : Prog ι ε σ α} {f : α → Prog ι ε σ β} (hp : Follows M pre p mid)
    (hf : ∀ a, Follows M mid (f a) post) : Follows M pre (p >>= f) post := by
  intro s hs ins st
  obtain ⟨haccepts, hend⟩ := hp s hs ins st
  cases hv : (p.exec ins st).value with
  | none =>
    rw [bind_exec, andThen_of_stopped hv]
    exact ⟨haccepts, hp.stopped hs hv⟩
  | some a =>
    obtain ⟨haccepts', hend'⟩ :=
      hf a _ (hp.finished hs hv) (p.exec ins st).rest (p.exec ins st).state
    rw [bind_exec, andThen_of_value hv]
    constructor
    · exact (M.accepts_append _ _ _).mpr ⟨haccepts, haccepts'⟩
    · simpa using hend'

/-- The condition of a polling loop holds whenever the loop is about to read. -/
theorem follows_pollWhile {again : ι → Bool} {log : ι → ε} (waits : ∀ s, pre s → M.waits s)
    (ok : ∀ s i, pre s → M.ok s (log i))
    (continues : ∀ s i, pre s → again i = true → pre (M.next s (log i)))
    (ends : ∀ s i, pre s → ¬ again i = true → post (M.next s (log i))) :
    Follows M pre (pollWhile again log : Prog ι ε σ Unit) post := by
  intro s hs ins st
  induction ins generalizing s with
  | nil => exact ⟨trivial, waits s hs⟩
  | cons i ins ih =>
    by_cases hi : again i = true
    · obtain ⟨haccepts, hend⟩ := ih _ (continues s i hs hi)
      rw [pollWhile_again hi]
      exact ⟨⟨ok s i hs, haccepts⟩, hend⟩
    · rw [pollWhile_done hi]
      exact ⟨⟨ok s i hs, trivial⟩, ends s i hs hi⟩

theorem follows_forRange {n : Nat} {body : Nat → Prog ι ε σ Unit}
    (round : ∀ i, Follows M pre (body i) pre) : Follows M pre (forRange n body) pre := by
  induction n with
  | zero => exact follows_pure ()
  | succ n ih => exact follows_bind ih fun _ => round n

end Rules

/-- From the monitor state `s` and the state `st` all events of every run of `p` may
come, and where a run finishes, `Q` holds of both states. -/
def Tracks (M : Monitor μ ε) (p : Prog ι ε σ α) (Q : α → μ → σ → Prop) (s : μ) (st : σ) : Prop :=
  ∀ ins, M.Accepts s (p.exec ins st).trace ∧
    ∀ a, (p.exec ins st).value = some a →
      Q a (M.after s (p.exec ins st).trace) (p.exec ins st).state

section Tracking
variable {M : Monitor μ ε} {s : μ} {st : σ}

theorem tracks_pure {a : α} {Q : α → μ → σ → Prop} (hQ : Q a s st) :
    Tracks M (pure a : Prog ι ε σ α) Q s st := by
  intro ins
  refine ⟨trivial, ?_⟩
  rintro b hb
  obtain rfl := Option.some.inj hb
  exact hQ

theorem tracks_mono {p : Prog ι ε σ α} {Q R : α → μ → σ → Prop} (hp : Tracks M p Q s st)
    (hQR : ∀ a s st, Q a s st → R a s st) : Tracks M p R s st :=
  fun ins => ⟨(hp ins).1, fun a ha => hQR a _ _ ((hp ins).2 a ha)⟩

theorem tracks_bind {p : Prog ι ε σ α} {f : α → Prog ι ε σ β} {Q : β → μ → σ → Prop}
    (hp : Tracks M p (fun a => Tracks M (f a) Q) s st) : Tracks M (p >>= f) Q s st := by
  intro ins
  obtain ⟨haccepts, hnext⟩ := hp ins
  cases hv : (p.exec ins st).value with
  | none =>
    rw [bind_exec, andThen_of_stopped hv]
    exact ⟨haccepts, fun b hb => by simp at hb⟩
  | some a =>
    obtain ⟨haccepts', hend⟩ := hnext a hv (p.exec ins st).rest
    rw [bind_exec, andThen_of_value hv]
    refine ⟨(M.accepts_append _ _ _).mpr ⟨haccepts, haccepts'⟩, fun b hb => ?_⟩
    rw [Monitor.after_append]
    exact hend b hb

theorem tracks_act {f : σ → α × σ × List ε} {Q : α → μ → σ → Prop}
    (h : M.Accepts s (f st).2.2) (hQ : Q (f st).1 (M.after s (f st).2.2) (f st).2.1) :
    Tracks M (act f : Prog ι ε σ α) Q s st := by
  intro ins
  refine ⟨h, ?_⟩
  rintro a ha
  obtain rfl := Option.some.inj ha
  exact hQ

theorem tracks_onlyIf {c : Bool} {p : Prog ι ε σ Unit} {Q : Unit → μ → σ → Prop}
    (hp : Tracks M p Q s st) (hQ : Q () s st) : Tracks M (onlyIf c p) Q s st := by
  cases c with
  | true => exact hp
  | false => exact tracks_pure hQ

theorem tracks_forRange {n : Nat} {body : Nat → Prog ι ε σ Unit} (I : μ → σ → Prop) (start : I s st)
    (round : ∀ i s st, I s st → Tracks M (body i) (fun _ => I) s st) :
    Tracks M (forRange n body) (fun _ => I) s st := by
  induction n with
  | zero => exact tracks_pure start
  | succ n ih => exact tracks_bind (tracks_mono ih fun _ s st hI => round n s st hI)

/-- The trace of a program whose events leave the monitor alone. -/
theorem Monitor.idle {tr : List ε} (h : ∀ e ∈ tr, ∀ s, M.ok s e ∧ M.next s e = s) (s : μ) :
    M.Accepts s tr ∧ M.after s tr = s := by
  induction tr generalizing s with
  | nil => exact ⟨trivial, rfl⟩
  | cons e tr ih =>
    obtain ⟨hok, hnext⟩ := h e (List.mem_cons_self ..) s
    rw [accepts_cons, after_cons, hnext]
    obtain ⟨haccepts, hafter⟩ := ih (fun e' he' => h e' (List.mem_cons_of_mem _ he')) s
    exact ⟨⟨hok, haccepts⟩, hafter⟩

end Tracking

end InputProgram
