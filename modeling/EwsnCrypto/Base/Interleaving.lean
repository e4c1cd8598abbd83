import Mathlib.Data.List.Induction
import Mathlib.Data.Option.Basic

/-!
# Actors that share a state

In every step one actor moves the whole state, atomically and in any order. A
view of the state that no step moves except as a second system does is a state
of that system: what holds of the second system alone holds in every interleaving.
-/

namespace Interleaving

/-- `step a s` is missing where actor `a` has nothing to do. -/
structure System (α σ : Type) where
  start : σ
  step : α → σ → Option σ

variable {α β σ τ : Type}

inductive System.Reachable (S : System α σ) : σ → Prop
  | start : Reachable S S.start
  | step {s s' : σ} {a : α} (before : Reachable S s) (moves : S.step a s = some s') :
      Reachable S s'

/-- The state after the actors have moved in the given order. -/
def System.run (S : System α σ) (s : σ) : List α → Option σ
  | [] => some s
  | a :: as => (S.step a s).bind fun s' => S.run s' as

theorem System.run_append (S : System α σ) (s : σ) (as bs : List α) :
    S.run s (as ++ bs) = (S.run s as).bind fun s' => S.run s' bs := by
  induction as generalizing s with
  | nil => rfl
  | cons a as ih =>
    cases hstep : S.step a s with
    | none => simp [System.run, hstep]
    | some s' => simp [System.run, hstep, ih]

/-- The reachable states are those at the end of an order of moves. -/
theorem System.reachable_iff (S : System α σ) {s : σ} :
    S.Reachable s ↔ ∃ as, S.run S.start as = some s := by
  constructor
  · intro h
    induction h with
    | start => exact ⟨[], rfl⟩
    | @step s s' a before moves ih =>
      obtain ⟨as, has⟩ := ih
      exact ⟨as ++ [a], by simp [System.run_append, has, System.run, moves]⟩
  · rintro ⟨as, has⟩
    induction as using List.reverseRecOn generalizing s with
    | nil =>
      obtain rfl := Option.some.inj has
      exact .start
    | append_singleton as a ih =>
      rw [System.run_append] at has
      obtain ⟨s', has', hlast⟩ := Option.bind_eq_some_iff.mp has
      obtain ⟨s'', hmoves, heq⟩ := Option.bind_eq_some_iff.mp hlast
      obtain rfl := Option.some.inj heq
      exact .step (ih has') hmoves

/-- What holds at the start and is kept by every step holds in every interleaving. -/
theorem System.Reachable.invariant {S : System α σ} {I : σ → Prop} (start : I S.start)
    (step : ∀ a s s', I s → S.step a s = some s' → I s') {s : σ} (h : S.Reachable s) : I s := by
  induction h with
  | start => exact start
  | step _ moves ih => exact step _ _ _ ih moves

/-- Where every step moves a view as the second system does, or not at all, the
view of a reachable state is reachable. -/
theorem System.Reachable.view {S : System α σ} {T : System β τ} {I : σ → Prop} {view : σ → τ}
    (kept : ∀ s, S.Reachable s → I s) (start : view S.start = T.start)
    (step : ∀ a s s', I s → S.step a s = some s' →
      view s' = view s ∨ ∃ b, T.step b (view s) = some (view s')) {s : σ}
    (h : S.Reachable s) : T.Reachable (view s) := by
  induction h with
  | start =>
    rw [start]
    exact .start
  | step before moves ih =>
    rcases step _ _ _ (kept _ before) moves with hstays | ⟨b, hmoves⟩
    · rw [hstays]
      exact ih
    · exact .step ih hmoves

end Interleaving
