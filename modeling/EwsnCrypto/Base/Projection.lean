import EwsnCrypto.Base.ProgramLogic

/-!
# Programs seen on a smaller state

A program projects to another one if forgetting a part of its state and of its
events gives the runs of that one, on the same inputs.
-/

namespace InputProgram

variable {ι ε δ σ τ α β : Type}

/-- Every run of `p` from `t` is the run of `q` when seen through `proj` and `forget`,
and `Q` holds where `p` has a value. -/
def Projects (proj : τ → σ) (forget : δ → ε) (p : Prog ι δ τ α) (q : Prog ι ε σ α)
    (Q : α → τ → Prop) (t : τ) : Prop :=
  ∀ ins, q.exec ins (proj t) = ⟨(p.exec ins t).trace.map forget, proj (p.exec ins t).state,
      (p.exec ins t).rest, (p.exec ins t).value⟩ ∧
    ∀ a, (p.exec ins t).value = some a → Q a (p.exec ins t).state

variable {proj : τ → σ} {forget : δ → ε} {t : τ}

theorem projects_pure {a : α} {Q : α → τ → Prop} (hQ : Q a t) :
    Projects proj forget (pure a : Prog ι δ τ α) (pure a) Q t := by
  intro ins
  refine ⟨rfl, fun b hb => ?_⟩
  obtain rfl := Option.some.inj hb
  exact hQ

theorem projects_mono {p : Prog ι δ τ α} {q : Prog ι ε σ α} {Q R : α → τ → Prop}
    (h : Projects proj forget p q Q t) (hQR : ∀ a t, Q a t → R a t) :
    Projects proj forget p q R t :=
  fun ins => ⟨(h ins).1, fun a ha => hQR a _ ((h ins).2 a ha)⟩

theorem projects_bind {p : Prog ι δ τ α} {q : Prog ι ε σ α} {f : α → Prog ι δ τ β}
    {g : α → Prog ι ε σ β} {Q : β → τ → Prop}
    (h : Projects proj forget p q (fun a => Projects proj forget (f a) (g a) Q) t) :
    Projects proj forget (p >>= f) (q >>= g) Q t := by
  intro ins
  obtain ⟨hfirst, hnext⟩ := h ins
  rw [bind_exec, hfirst, bind_exec]
  cases hvalue : (p.exec ins t).value with
  | none =>
    rw [andThen_of_stopped hvalue, andThen_none]
    exact ⟨rfl, fun _ hb => nomatch hb⟩
  | some a =>
    obtain ⟨hrun, hQ⟩ := hnext a hvalue (p.exec ins t).rest
    rw [andThen_of_value hvalue, andThen_some, hrun]
    exact ⟨by rw [List.map_append], hQ⟩

theorem projects_act {f : τ → α × τ × List δ} {g : σ → α × σ × List ε} {Q : α → τ → Prop}
    (hg : g (proj t) = ((f t).1, proj (f t).2.1, (f t).2.2.map forget))
    (hQ : Q (f t).1 (f t).2.1) :
    Projects proj forget (act f : Prog ι δ τ α) (act g) Q t := by
  intro ins
  rw [act_exec, act_exec, hg]
  refine ⟨rfl, fun a ha => ?_⟩
  obtain rfl := Option.some.inj ha
  exact hQ

theorem projects_onlyIf {c : Bool} {p : Prog ι δ τ Unit} {q : Prog ι ε σ Unit}
    {Q : Unit → τ → Prop} (h : Projects proj forget p q Q t) (hQ : Q () t) :
    Projects proj forget (onlyIf c p) (onlyIf c q) Q t := by
  cases c with
  | true => exact h
  | false => exact projects_pure hQ

/-- A program on a part of the state projects to itself on that part. -/
theorem projects_embed {set : σ → τ → τ} {inj : ε → δ} (hforget : ∀ e, forget (inj e) = e)
    (hset : ∀ s t, proj (set s t) = s) {q : Prog ι ε σ α} {Q : α → τ → Prop}
    (hq : Keeps (fun _ => True) q (fun a s => Q a (set s t)) (proj t)) :
    Projects proj forget (embed proj set inj q) q Q t := by
  intro ins
  rw [embed_exec]
  refine ⟨?_, (hq ins).2⟩
  have htrace : ((q.exec ins (proj t)).trace.map inj).map forget = (q.exec ins (proj t)).trace := by
    rw [List.map_map]
    exact List.map_id'' hforget _
  simp only [htrace, hset]

theorem projects_forRange {n : Nat} {body : Nat → Prog ι δ τ Unit} {body' : Nat → Prog ι ε σ Unit}
    (I : Nat → τ → Prop) (start : I 0 t)
    (round : ∀ i t, I i t → Projects proj forget (body i) (body' i) (fun _ => I (i + 1)) t) :
    Projects proj forget (forRange n body) (forRange n body') (fun _ => I n) t := by
  induction n with
  | zero => exact projects_pure start
  | succ n ih =>
    apply projects_bind
    exact projects_mono ih fun _ t hI => round n t hI

end InputProgram
