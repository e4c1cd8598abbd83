import EwsnCrypto.Base.ProgramLogic

/-!
# What is read off a run

A function reads entries off the events of a run. A program yields a list of
entries if every run, finished or not, begins it, and every finished run has all
of it.
-/

namespace InputProgram

variable {ι ε σ α β δ : Type}

/-- From `st`, the entries of every run of `p` begin `out`; where `p` has a value,
they are `out`, and `Q` holds. -/
def Yields (read : ε → Option δ) (p : Prog ι ε σ α) (out : List δ) (Q : α → σ → Prop) (st : σ) :
    Prop :=
  ∀ ins, (p.exec ins st).trace.filterMap read <+: out ∧
    ∀ a, (p.exec ins st).value = some a →
      (p.exec ins st).trace.filterMap read = out ∧ Q a (p.exec ins st).state

section Rules
variable {read : ε → Option δ} {st : σ} {Q : α → σ → Prop}

theorem yields_pure {a : α} (hQ : Q a st) : Yields read (pure a : Prog ι ε σ α) [] Q st := by
  intro ins
  refine ⟨List.prefix_refl _, fun b hb => ⟨rfl, ?_⟩⟩
  obtain rfl := Option.some.inj hb
  exact hQ

theorem yields_mono {p : Prog ι ε σ α} {out : List δ} {R : α → σ → Prop}
    (hp : Yields read p out Q st) (hQR : ∀ a st, Q a st → R a st) : Yields read p out R st := by
  intro ins
  refine ⟨(hp ins).1, fun a ha => ?_⟩
  obtain ⟨hout, hQ⟩ := (hp ins).2 a ha
  exact ⟨hout, hQR a _ hQ⟩

/-- The entries of a sequence are those of its parts in order. -/
theorem yields_bind {p : Prog ι ε σ α} {f : α → Prog ι ε σ β} {out out' : List δ}
    {R : β → σ → Prop} (hp : Yields read p out (fun a => Yields read (f a) out' R) st) :
    Yields read (p >>= f) (out ++ out') R st := by
  intro ins
  obtain ⟨hbegin, hdone⟩ := hp ins
  cases hvalue : (p.exec ins st).value with
  | none =>
    rw [bind_exec, andThen_of_stopped hvalue]
    exact ⟨hbegin.trans (List.prefix_append _ _), fun _ h => nomatch h⟩
  | some a =>
    obtain ⟨hout, hnext⟩ := hdone a hvalue
    obtain ⟨hbegin', hdone'⟩ := hnext (p.exec ins st).rest
    rw [bind_exec, andThen_of_value hvalue]
    simp only [List.filterMap_append, hout]
    refine ⟨(List.prefix_append_right_inj _).mpr hbegin', fun b hb => ?_⟩
    obtain ⟨hout', hR⟩ := hdone' b hb
    exact ⟨by rw [hout'], hR⟩

theorem yields_bind_silent {p : Prog ι ε σ α} {f : α → Prog ι ε σ β} {out : List δ}
    {R : β → σ → Prop} (hp : Yields read p [] (fun a => Yields read (f a) out R) st) :
    Yields read (p >>= f) out R st := yields_bind hp

theorem yields_bind_then_silent {p : Prog ι ε σ α} {f : α → Prog ι ε σ β} {out : List δ}
    {R : β → σ → Prop} (hp : Yields read p out (fun a => Yields read (f a) [] R) st) :
    Yields read (p >>= f) out R st := by
  rw [← List.append_nil out]
  exact yields_bind hp

theorem yields_act {f : σ → α × σ × List ε} (hQ : Q (f st).1 (f st).2.1) :
    Yields read (act f : Prog ι ε σ α) ((f st).2.2.filterMap read) Q st := by
  intro ins
  refine ⟨List.prefix_refl _, fun a ha => ⟨rfl, ?_⟩⟩
  obtain rfl := Option.some.inj ha
  exact hQ

/-- The entry of a reading does not depend on what is read. -/
theorem yields_readNext {e : ι → ε} {d : δ} {Q : ι → σ → Prop} (he : ∀ i, read (e i) = some d)
    (hQ : ∀ i, Q i st) : Yields read (readNext e) [d] Q st := by
  intro ins
  cases ins with
  | nil => exact ⟨List.nil_prefix, fun _ h => nomatch h⟩
  | cons i ins =>
    have htrace : ((readNext e : Prog ι ε σ ι).exec (i :: ins) st).trace.filterMap read = [d] := by
      simp [readNext, he]
    rw [htrace]
    refine ⟨List.prefix_refl _, fun a ha => ⟨rfl, ?_⟩⟩
    obtain rfl := Option.some.inj ha
    exact hQ _

theorem yields_forM_emit {events : List ε} {Q : Unit → σ → Prop} (hQ : Q () st) :
    Yields read (events.forM emit : Prog ι ε σ Unit) (events.filterMap read) Q st := by
  intro ins
  rw [forM_emit_exec]
  exact ⟨List.prefix_refl _, fun _ _ => ⟨rfl, hQ⟩⟩

/-- A program none of whose events is read yields nothing. -/
theorem yields_of_keeps {p : Prog ι ε σ α} (hp : Keeps (fun e => read e = none) p Q st) :
    Yields read p [] Q st := by
  intro ins
  obtain ⟨htr, hQ⟩ := hp ins
  have hnone : (p.exec ins st).trace.filterMap read = [] := List.filterMap_eq_nil_iff.mpr htr
  rw [hnone]
  exact ⟨List.prefix_refl _, fun a ha => ⟨rfl, hQ a ha⟩⟩

theorem yields_onlyIf {c : Bool} {p : Prog ι ε σ Unit} {Q : Unit → σ → Prop}
    (hp : Yields read p [] Q st) (hQ : Q () st) : Yields read (onlyIf c p) [] Q st := by
  cases c with
  | true => exact hp
  | false => exact yields_pure hQ

theorem yields_embed {τ δ' : Type} {get : τ → σ} {set : σ → τ → τ} {inj : ε → δ'}
    {read : δ' → Option δ} {p : Prog ι ε σ α} {out : List δ} {R : α → τ → Prop} {t : τ}
    (hp : Yields (fun e => read (inj e)) p out (fun a s => R a (set s t)) (get t)) :
    Yields read (embed get set inj p) out R t := by
  intro ins
  rw [embed_exec]
  simp only [List.filterMap_map]
  exact hp ins

/-- The entries of a loop are those of its rounds in order. -/
theorem yields_forRange {n : Nat} {body : Nat → Prog ι ε σ Unit} (out : Nat → List δ)
    (I : Nat → σ → Prop) (start : I 0 st)
    (round : ∀ i, i < n → ∀ st, I i st → Yields read (body i) (out i) (fun _ => I (i + 1)) st) :
    Yields read (forRange n body) ((List.range n).flatMap out) (fun _ => I n) st := by
  induction n with
  | zero => exact yields_pure start
  | succ n ih =>
    rw [List.range_succ, List.flatMap_append, List.flatMap_singleton]
    apply yields_bind
    exact yields_mono (ih fun i hi => round i (by omega)) fun _ st hI => round n (by omega) st hI

end Rules

/-- An entry of a run is the entry of the list at its place. -/
theorem Yields.getElem? {read : ε → Option δ} {p : Prog ι ε σ α} {out : List δ}
    {Q : α → σ → Prop} {st : σ} (h : Yields read p out Q st) {ins : List ι} {i : Nat} {d : δ}
    (hd : ((p.exec ins st).trace.filterMap read)[i]? = some d) : out[i]? = some d := by
  obtain ⟨rest, hrest⟩ := (h ins).1
  obtain ⟨hi, _⟩ := List.getElem?_eq_some_iff.mp hd
  rw [← hrest, List.getElem?_append_left hi, hd]

/-- A program that can finish has a run with all the entries. -/
theorem Yields.complete {read : ε → Option δ} {p : Prog ι ε σ α} {out : List δ}
    {Q : α → σ → Prop} {st : σ} (h : Yields read p out Q st) (hp : Finishes p) :
    ∃ ins, (p.exec ins st).trace.filterMap read = out := by
  obtain ⟨ins, _, _, a, hexec⟩ := hp st
  exact ⟨ins ++ [], ((h (ins ++ [])).2 a (by rw [hexec])).1⟩

end InputProgram
