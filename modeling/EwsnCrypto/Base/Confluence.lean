import EwsnCrypto.Base.Interleaving

/-!
# Interleavings that all end alike

Two actors whose moves can be exchanged, up to a relation that no actor can tell
apart, lead to the same ends. One order of moves that comes to rest then speaks
for all orders: none makes more moves, and those that come to rest make as many
and end in related states.
-/

namespace Interleaving

variable {α σ : Type}

/-- No actor has anything left to do. -/
def System.AtRest (S : System α σ) (s : σ) : Prop := ∀ a, S.step a s = none

/-- Moves of different actors can be exchanged up to `R`, where `I` holds. -/
structure System.Exchanges (S : System α σ) (I : σ → Prop) (R : σ → σ → Prop) : Prop where
  equiv : Equivalence R
  kept : ∀ {a s s'}, I s → S.step a s = some s' → I s'
  follow : ∀ {a s t s'}, R s t → S.step a s = some s' → ∃ t', S.step a t = some t' ∧ R s' t'
  exchange : ∀ {a b s s₁ s₂}, I s → a ≠ b → S.step a s = some s₁ → S.step b s = some s₂ →
    ∃ t₁ t₂, S.step b s₁ = some t₁ ∧ S.step a s₂ = some t₂ ∧ R t₁ t₂

theorem System.run_cons_some {S : System α σ} {s e : σ} {a : α} {as : List α}
    (h : S.run s (a :: as) = some e) : ∃ s', S.step a s = some s' ∧ S.run s' as = some e :=
  Option.bind_eq_some_iff.mp h

theorem System.run_cons_of_step {S : System α σ} {s s' : σ} {a : α}
    (h : S.step a s = some s') (as : List α) : S.run s (a :: as) = S.run s' as := by
  simp [System.run, h]

namespace System.Exchanges
variable {S : System α σ} {I : σ → Prop} {R : σ → σ → Prop}

theorem atRest (h : S.Exchanges I R) {s t : σ} (hst : R s t) (hs : S.AtRest s) : S.AtRest t := by
  intro a
  cases hstep : S.step a t with
  | none => rfl
  | some t' =>
    obtain ⟨s', hs', _⟩ := h.follow (h.equiv.symm hst) hstep
    exact nomatch (hs a).symm.trans hs'

/-- Related states allow the same orders of moves. -/
theorem followRun (h : S.Exchanges I R) {as : List α} {s t e : σ} (hst : R s t)
    (hrun : S.run s as = some e) : ∃ e', S.run t as = some e' ∧ R e e' := by
  induction as generalizing s t with
  | nil =>
    obtain rfl := Option.some.inj hrun
    exact ⟨t, rfl, hst⟩
  | cons a as ih =>
    obtain ⟨s', hstep, hrest⟩ := run_cons_some hrun
    obtain ⟨t', hstep', hst'⟩ := h.follow hst hstep
    obtain ⟨e', hrun', he⟩ := ih hst' hrest
    exact ⟨e', (run_cons_of_step hstep' as).trans hrun', he⟩

/-- A move can be made first: what is left to do is one move less. -/
theorem moveFirst (h : S.Exchanges I R) {as : List α} {s s' e : σ} {a : α} (hI : I s)
    (hstep : S.step a s = some s') (hrun : S.run s as = some e) (hrest : S.AtRest e) :
    ∃ bs e', S.run s' bs = some e' ∧ R e e' ∧ bs.length + 1 = as.length := by
  classical
  induction as generalizing s s' with
  | nil =>
    obtain rfl := Option.some.inj hrun
    exact nomatch (hrest a).symm.trans hstep
  | cons b as ih =>
    obtain ⟨s₂, hstep₂, hrun₂⟩ := run_cons_some hrun
    by_cases hab : a = b
    · subst hab
      obtain rfl := Option.some.inj (hstep.symm.trans hstep₂)
      exact ⟨as, e, hrun₂, h.equiv.refl e, rfl⟩
    · obtain ⟨t₁, t₂, hb, ha, hrelated⟩ := h.exchange hI hab hstep hstep₂
      obtain ⟨bs, e', hrun', he, hlength⟩ := ih (h.kept hI hstep₂) ha hrun₂
      obtain ⟨e'', hrun'', he'⟩ := h.followRun (h.equiv.symm hrelated) hrun'
      refine ⟨b :: bs, e'', (run_cons_of_step hb bs).trans hrun'', h.equiv.trans he he', ?_⟩
      rw [List.length_cons, List.length_cons, hlength]

/-- Where one order of moves comes to rest, every other is part of one that makes
as many moves and ends in a related state. -/
theorem complete (h : S.Exchanges I R) {as bs : List α} {s e t : σ} (hI : I s)
    (hrun : S.run s as = some e) (hrest : S.AtRest e) (hother : S.run s bs = some t) :
    ∃ cs e', S.run t cs = some e' ∧ R e e' ∧ bs.length + cs.length = as.length := by
  induction bs generalizing s as e with
  | nil =>
    obtain rfl := Option.some.inj hother
    exact ⟨as, e, hrun, h.equiv.refl e, by simp⟩
  | cons b bs ih =>
    obtain ⟨s', hstep, hother'⟩ := run_cons_some hother
    obtain ⟨as', e', hrun', he, hlength⟩ := h.moveFirst hI hstep hrun hrest
    obtain ⟨cs, e'', hcs, he', hsum⟩ := ih (h.kept hI hstep) hrun' (h.atRest he hrest) hother'
    refine ⟨cs, e'', hcs, h.equiv.trans he he', ?_⟩
    rw [List.length_cons, ← hlength, ← hsum]
    omega

theorem length_le (h : S.Exchanges I R) {as bs : List α} {s e t : σ} (hI : I s)
    (hrun : S.run s as = some e) (hrest : S.AtRest e) (hother : S.run s bs = some t) :
    bs.length ≤ as.length := by
  obtain ⟨cs, _, _, _, hsum⟩ := h.complete hI hrun hrest hother
  omega

/-- An order of moves has come to rest iff it has made all the moves. -/
theorem atRest_iff (h : S.Exchanges I R) {as bs : List α} {s e t : σ} (hI : I s)
    (hrun : S.run s as = some e) (hrest : S.AtRest e) (hother : S.run s bs = some t) :
    S.AtRest t ↔ bs.length = as.length := by
  obtain ⟨cs, e', hcs, he, hsum⟩ := h.complete hI hrun hrest hother
  cases cs with
  | nil =>
    obtain rfl := Option.some.inj hcs
    exact ⟨fun _ => by simpa using hsum, fun _ => h.atRest he hrest⟩
  | cons c cs =>
    obtain ⟨t', hstep, _⟩ := run_cons_some hcs
    constructor
    · intro htrest
      exact nomatch (htrest c).symm.trans hstep
    · intro hlength
      rw [List.length_cons] at hsum
      omega

end System.Exchanges

end Interleaving
