import EwsnCrypto.Base.InputProgram
import Mathlib.Order.Defs.PartialOrder

/-!
# Programs that only go down

A state has a level, and so have some of the events. A program descends if in all its
runs, also in those that stop, no level lies above an earlier one.
-/

namespace InputProgram

variable {ι ε σ τ α β δ : Type}

/-- The levels go down from `a` to `b`. -/
def Descent [LE δ] : δ → List δ → δ → Prop
  | a, [], b => b ≤ a
  | a, x :: xs, b => x ≤ a ∧ Descent x xs b

namespace Descent
variable [Preorder δ] {a b c : δ} {xs ys : List δ}

theorem of_le (h : b ≤ a) (hb : Descent b xs c) : Descent a xs c := by
  cases xs with
  | nil => exact le_trans hb h
  | cons x xs => exact ⟨le_trans hb.1 h, hb.2⟩

theorem append (h : Descent a xs b) (h' : Descent b ys c) : Descent a (xs ++ ys) c := by
  induction xs generalizing a with
  | nil => exact of_le h h'
  | cons x xs ih => exact ⟨h.1, ih h.2⟩

theorem mem_le (h : Descent a xs b) : ∀ x ∈ xs, x ≤ a := by
  induction xs generalizing a with
  | nil => simp
  | cons x xs ih =>
    obtain ⟨hx, hxs⟩ := h
    exact List.forall_mem_cons.mpr ⟨hx, fun y hy => le_trans (ih hxs y hy) hx⟩

theorem pairwise (h : Descent a xs b) : xs.Pairwise (· ≥ ·) := by
  induction xs generalizing a with
  | nil => exact List.Pairwise.nil
  | cons x xs ih =>
    obtain ⟨_, hxs⟩ := h
    exact List.Pairwise.cons hxs.mem_le (ih hxs)

end Descent

/-- The state is the same after every run. -/
def Stays (p : Prog ι ε σ α) : Prop := ∀ ins st, (p.exec ins st).state = st

namespace Stays

theorem emit (e : ε) : Stays (InputProgram.emit e : Prog ι ε σ Unit) := fun _ _ => rfl

theorem bind {p : Prog ι ε σ α} {f : α → Prog ι ε σ β} (hp : Stays p) (hf : ∀ a, Stays (f a)) :
    Stays (p >>= f) := by
  intro ins st
  cases hvalue : (p.exec ins st).value with
  | none =>
    rw [bind_exec, andThen_of_stopped hvalue]
    exact hp ins st
  | some a =>
    rw [bind_exec, andThen_of_value hvalue]
    exact (hf a _ _).trans (hp ins st)

theorem onlyIf {c : Bool} {p : Prog ι ε σ Unit} (hp : Stays p) :
    Stays (InputProgram.onlyIf c p) := by
  cases c with
  | true => exact hp
  | false => exact fun _ _ => rfl

theorem pollWhile (again : ι → Bool) (log : ι → ε) :
    Stays (InputProgram.pollWhile again log : Prog ι ε σ Unit) := by
  intro ins st
  induction ins with
  | nil => rfl
  | cons i ins ih =>
    by_cases hi : again i = true
    · rw [pollWhile_again hi]
      exact ih
    · rw [pollWhile_done hi]

end Stays

/-- From a state with `I`, every run of `p` goes down from level to level, and keeps `I`. -/
def Descends [LE δ] (read : ε → Option δ) (level : σ → δ) (I : σ → Prop) (p : Prog ι ε σ α) :
    Prop :=
  ∀ ins st, I st → I (p.exec ins st).state ∧
    Descent (level st) ((p.exec ins st).trace.filterMap read) (level (p.exec ins st).state)

namespace Descends
variable [Preorder δ] {read : ε → Option δ} {level : σ → δ} {I : σ → Prop}

theorem pure (a : α) : Descends read level I (Pure.pure a : Prog ι ε σ α) :=
  fun _ _ hI => ⟨hI, le_refl _⟩

theorem act {f : σ → α × σ × List ε} (h : ∀ st, I st → I (f st).2.1 ∧
      Descent (level st) ((f st).2.2.filterMap read) (level (f st).2.1)) :
    Descends read level I (InputProgram.act f : Prog ι ε σ α) := fun _ st hI => h st hI

theorem emit {e : ε} (h : read e = none) :
    Descends read level I (InputProgram.emit e : Prog ι ε σ Unit) := by
  refine act fun st hI => ⟨hI, ?_⟩
  rw [List.filterMap_cons_none h]
  exact le_refl _

theorem bind {p : Prog ι ε σ α} {f : α → Prog ι ε σ β} (hp : Descends read level I p)
    (hf : ∀ a, Descends read level I (f a)) : Descends read level I (p >>= f) := by
  intro ins st hI
  obtain ⟨hkept, hdown⟩ := hp ins st hI
  cases hvalue : (p.exec ins st).value with
  | none =>
    rw [bind_exec, andThen_of_stopped hvalue]
    exact ⟨hkept, hdown⟩
  | some a =>
    obtain ⟨hkept', hdown'⟩ := hf a (p.exec ins st).rest (p.exec ins st).state hkept
    rw [bind_exec, andThen_of_value hvalue]
    refine ⟨hkept', ?_⟩
    rw [List.filterMap_append]
    exact hdown.append hdown'

theorem onlyIf {c : Bool} {p : Prog ι ε σ Unit} (hp : Descends read level I p) :
    Descends read level I (InputProgram.onlyIf c p) := by
  cases c with
  | true => exact hp
  | false => exact pure ()

theorem forRange {n : Nat} {body : Nat → Prog ι ε σ Unit}
    (h : ∀ i, Descends read level I (body i)) :
    Descends read level I (InputProgram.forRange n body) := by
  induction n with
  | zero => exact pure ()
  | succ n ih => exact bind ih fun _ => h n

/-- A part of the program that leaves its part of the state. -/
theorem embed {get : τ → σ} {set : σ → τ → τ} {δ' : Type} {inj : ε → δ'} {read : δ' → Option δ}
    {level : τ → δ} {I : τ → Prop} {p : Prog ι ε σ α} (hread : ∀ e, read (inj e) = none)
    (hset : ∀ t, set (get t) t = t) (hp : Stays p) :
    Descends read level I (InputProgram.embed get set inj p) := by
  intro ins t hI
  have hnone : ((p.exec ins (get t)).trace.map inj).filterMap read = [] := by
    rw [List.filterMap_map]
    exact List.filterMap_eq_nil_iff.mpr fun e _ => hread e
  rw [embed_exec, hp, hset, hnone]
  exact ⟨hI, le_refl _⟩

end Descends

end InputProgram
