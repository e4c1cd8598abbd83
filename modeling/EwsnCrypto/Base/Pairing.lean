import EwsnCrypto.Base.InputProgram

/-!
# Causes and their effects

Some events are causes of an effect, some are effects, and some are neither. A program
reacts if in its runs its effect stands directly behind each cause, and nowhere else.
What has no mark may come in between.
-/

namespace InputProgram

variable {ι ε σ α β γ δ : Type}

inductive Mark (δ : Type) where
  | cause (d : δ)
  | effect (d : δ)
  | other
deriving DecidableEq

/-- Every cause has its effect directly behind it, and every effect its cause before it. -/
structure Answered (ms : List (Mark δ)) : Prop where
  answered : ∀ pre d post, ms = pre ++ .cause d :: post → ∃ rest, post = .effect d :: rest
  caused : ∀ pre d post, ms = pre ++ .effect d :: post → ∃ start, pre = start ++ [.cause d]

/-- The effect that is due behind `ms`, given the one that is due before. -/
def Paired : Option δ → List (Mark δ) → Option δ → Prop
  | due, [], due' => due' = due
  | none, .cause d :: ms, due' => Paired (some d) ms due'
  | none, .other :: ms, due' => Paired none ms due'
  | some d, .effect d' :: ms, due' => d' = d ∧ Paired none ms due'
  | _, _ :: _, _ => False

namespace Paired
variable {ms ms' : List (Mark δ)} {m : Mark δ} {due due' due'' : Option δ} {d : δ}

theorem append_iff : Paired due (ms ++ ms') due'' ↔
    ∃ due', Paired due ms due' ∧ Paired due' ms' due'' := by
  induction ms generalizing due with
  | nil =>
    constructor
    · exact fun h => ⟨due, rfl, h⟩
    · rintro ⟨_, rfl, h⟩
      exact h
  | cons m ms ih =>
    cases due <;> cases m <;>
      simp only [List.cons_append, Paired, ih, false_and, exists_false, and_assoc, exists_and_left]

theorem last_cause (h : Paired none ms (some d)) : ∃ start, ms = start ++ [.cause d] := by
  rcases List.eq_nil_or_concat ms with rfl | ⟨start, m, rfl⟩
  · exact absurd h (Option.some_ne_none d)
  · rw [List.concat_eq_append] at h ⊢
    obtain ⟨due, _, hlast⟩ := append_iff.mp h
    cases m with
    | cause d' =>
      cases due with
      | none =>
        obtain rfl : d = d' := Option.some.inj hlast
        exact ⟨start, rfl⟩
      | some _ => exact hlast.elim
    | _ => cases due <;> simp [Paired] at hlast

theorem answered (h : Paired none ms none) : Answered ms := by
  constructor
  · rintro pre d post rfl
    obtain ⟨due, _, hpost⟩ := append_iff.mp h
    cases due with
    | some _ => exact hpost.elim
    | none => cases post with
      | nil => exact absurd hpost.symm (Option.some_ne_none d)
      | cons m rest => cases m with
        | effect d' =>
          obtain ⟨rfl, _⟩ := hpost
          exact ⟨rest, rfl⟩
        | _ => exact False.elim hpost
  · rintro pre d post rfl
    obtain ⟨due, hpre, hpost⟩ := append_iff.mp h
    cases due with
    | none => exact hpost.elim
    | some _ =>
      obtain ⟨rfl, _⟩ := hpost
      exact last_cause hpre

end Paired

/-- Every run of `p` is paired. It stops only where no effect is due, and with a value
the effect is due that `after` says. -/
def Reacts (read : ε → Option (Mark δ)) (due : Option δ) (p : Prog ι ε σ α)
    (after : α → Option δ) : Prop :=
  ∀ ins st, Paired due ((p.exec ins st).trace.filterMap read)
    ((p.exec ins st).value.elim none after)

namespace Reacts
variable {read : ε → Option (Mark δ)} {due : Option δ} {d : δ}
variable {mid : α → Option δ} {after : β → Option δ}

theorem pure {a : β} (h : after a = due) :
    Reacts read due (Pure.pure a : Prog ι ε σ β) after := fun _ _ => h

theorem act {f : σ → β × σ × List ε}
    (h : ∀ st, Paired due ((f st).2.2.filterMap read) (after (f st).1)) :
    Reacts read due (InputProgram.act f : Prog ι ε σ β) after := fun _ st => h st

theorem unread {e : ε} (h : read e = none) :
    Reacts read due (emit e : Prog ι ε σ Unit) fun _ => due :=
  act fun _ => by simp [h, Paired]

theorem other {e : ε} (h : read e = some .other) :
    Reacts read none (emit e : Prog ι ε σ Unit) fun _ => none :=
  act fun _ => by simp [h, Paired]

theorem effect {e : ε} (h : read e = some (.effect d)) :
    Reacts read (some d) (emit e : Prog ι ε σ Unit) fun _ => none :=
  act fun _ => by simp [h, Paired]

theorem bind {p : Prog ι ε σ α} {f : α → Prog ι ε σ β} (hp : Reacts read due p mid)
    (hf : ∀ a, Reacts read (mid a) (f a) after) : Reacts read due (p >>= f) after := by
  intro ins st
  have hfirst := hp ins st
  cases hvalue : (p.exec ins st).value with
  | none =>
    rw [hvalue] at hfirst
    rw [bind_exec, andThen_of_stopped hvalue]
    exact hfirst
  | some a =>
    rw [hvalue] at hfirst
    rw [bind_exec, andThen_of_value hvalue, List.filterMap_append]
    exact Paired.append_iff.mpr ⟨mid a, hfirst, hf a _ _⟩

theorem onlyIf {c : Bool} {p : Prog ι ε σ Unit} (hp : Reacts read due p fun _ => due) :
    Reacts read due (InputProgram.onlyIf c p) fun _ => due := by
  cases c with
  | true => exact hp
  | false => exact pure rfl

theorem forM {xs : List γ} {f : γ → Prog ι ε σ Unit}
    (h : ∀ x ∈ xs, Reacts read due (f x) fun _ => due) :
    Reacts read due (xs.forM f) fun _ => due := by
  induction xs with
  | nil => exact pure rfl
  | cons x xs ih =>
    exact bind (h x List.mem_cons_self) fun _ => ih fun y hy => h y (List.mem_cons_of_mem x hy)

theorem forRange {n : Nat} {body : Nat → Prog ι ε σ Unit}
    (h : ∀ i, Reacts read due (body i) fun _ => due) :
    Reacts read due (InputProgram.forRange n body) fun _ => due := by
  induction n with
  | zero => exact pure rfl
  | succ n ih => exact bind ih fun _ => h n

/-- A poll may wait for ever, so nothing is due while it does. -/
theorem pollWhile {again : ι → Bool} {log : ι → ε} (h : ∀ i, read (log i) = some .other) :
    Reacts read none (InputProgram.pollWhile again log : Prog ι ε σ Unit) fun _ => none := by
  intro ins st
  induction ins with
  | nil => rfl
  | cons i ins ih =>
    by_cases hi : again i = true
    · rw [pollWhile_again hi, List.filterMap_cons_some (h i)]
      exact ih
    · rw [pollWhile_done hi, List.filterMap_cons_some (h i)]
      rfl

/-- A program that leaves nothing due answers all causes in every run. -/
theorem answered {p : Prog ι ε σ β} (h : Reacts read none p fun _ => none) (ins : List ι)
    (st : σ) : Answered ((p.exec ins st).trace.filterMap read) := by
  have hrun := h ins st
  cases hvalue : (p.exec ins st).value with
  | none =>
    rw [hvalue] at hrun
    exact hrun.answered
  | some _ =>
    rw [hvalue] at hrun
    exact hrun.answered

end Reacts

end InputProgram
