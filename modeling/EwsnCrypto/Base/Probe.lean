import EwsnCrypto.Base.InputProgram

/-!
# Calls in windows

A probe on a pin sees a rising edge, the call, and a falling edge where a call is made
in a window of its own. Where every call is, the probe sees nothing but such windows,
whichever way the program returns.
-/

namespace InputProgram

variable {ι ε σ α β δ : Type}

inductive Probe (δ : Type) where
  | level (high : Bool)
  | call (c : δ)
deriving DecidableEq

/-- The calls `cs`, each in its window. -/
def windowsOf (cs : List δ) : List (Probe δ) :=
  cs.flatMap fun c => [.level true, .call c, .level false]

/-- `n` times the calls of a round. -/
def repeated (n : Nat) (unit : List δ) : List δ := (List.replicate n unit).flatten

theorem windowsOf_append (cs cs' : List δ) :
    windowsOf (cs ++ cs') = windowsOf cs ++ windowsOf cs' := List.flatMap_append

theorem repeated_succ (n : Nat) (unit : List δ) :
    repeated (n + 1) unit = repeated n unit ++ unit := by
  simp [repeated, List.replicate_succ']

/-- Every run of `p` finishes, the probe sees its calls `cs` in windows, and `Q` holds of
the result and the calls. -/
def InWindows (probe : ε → Option (Probe δ)) (p : Prog ι ε σ α) (Q : α → List δ → Prop) : Prop :=
  ∀ ins st, ∃ a cs, (p.exec ins st).value = some a ∧
    (p.exec ins st).trace.filterMap probe = windowsOf cs ∧ Q a cs

namespace InWindows
variable {probe : ε → Option (Probe δ)} {Q : α → List δ → Prop} {R : β → List δ → Prop}

theorem pure {a : α} (hQ : Q a []) : InWindows probe (Pure.pure a : Prog ι ε σ α) Q :=
  fun _ _ => ⟨a, [], rfl, rfl, hQ⟩

theorem mono {p : Prog ι ε σ α} {Q' : α → List δ → Prop} (hp : InWindows probe p Q)
    (h : ∀ a cs, Q a cs → Q' a cs) : InWindows probe p Q' := by
  intro ins st
  obtain ⟨a, cs, hvalue, htrace, hQ⟩ := hp ins st
  exact ⟨a, cs, hvalue, htrace, h a cs hQ⟩

theorem bind {p : Prog ι ε σ α} {f : α → Prog ι ε σ β}
    (hp : InWindows probe p fun a cs => InWindows probe (f a) fun b cs' => R b (cs ++ cs')) :
    InWindows probe (p >>= f) R := by
  intro ins st
  obtain ⟨a, cs, hvalue, htrace, hf⟩ := hp ins st
  obtain ⟨b, cs', hvalue', htrace', hR⟩ := hf (p.exec ins st).rest (p.exec ins st).state
  rw [bind_exec, andThen_of_value hvalue]
  refine ⟨b, cs ++ cs', hvalue', ?_, hR⟩
  rw [List.filterMap_append, htrace, htrace', windowsOf_append]

/-- What the probe does not see. -/
theorem silent {f : σ → α × σ × List ε} {rest : α → Prog ι ε σ β}
    (hf : ∀ st, (f st).2.2.filterMap probe = []) (hrest : ∀ a, InWindows probe (rest a) R) :
    InWindows probe (act f >>= rest) R :=
  bind fun _ st => ⟨(f st).1, [], rfl, hf st, hrest _⟩

theorem silent_onlyIf {c : Bool} {e : ε} {rest : Unit → Prog ι ε σ β} (he : probe e = none)
    (hrest : InWindows probe (rest ()) R) : InWindows probe (onlyIf c (emit e) >>= rest) R := by
  cases c with
  | true => exact silent (fun _ => by simp [he]) fun _ => hrest
  | false => exact hrest

/-- One call in its window. -/
theorem window {up down : ε} {f : σ → α × σ × List ε} {c : δ} {rest : α → Prog ι ε σ β}
    (hup : probe up = some (.level true)) (hf : ∀ st, (f st).2.2.filterMap probe = [.call c])
    (hdown : probe down = some (.level false))
    (hrest : ∀ a, InWindows probe (rest a) fun b cs => R b (c :: cs)) :
    InWindows probe (do emit up; let a ← act f; emit down; rest a) R := by
  intro ins st
  obtain ⟨b, cs, hvalue, htrace, hR⟩ := hrest (f st).1 ins (f st).2.1
  refine ⟨b, c :: cs, ?_, ?_, hR⟩
  · simpa using hvalue
  · simp [List.filterMap_append, hf, htrace, hup, hdown, windowsOf]

theorem forRange {n : Nat} {body : Nat → Prog ι ε σ Unit} {unit : List δ}
    (h : ∀ i, InWindows probe (body i) fun _ cs => cs = unit) :
    InWindows probe (forRange n body) fun _ cs => cs = repeated n unit := by
  induction n with
  | zero => exact pure rfl
  | succ n ih =>
    refine bind (ih.mono ?_)
    rintro _ _ rfl
    refine (h n).mono ?_
    rintro _ _ rfl
    rw [repeated_succ]

/-- A round that falls through has made all its calls, and one that returns only the
first of them. -/
theorem forReturn {n : Nat} {body : Nat → Prog ι ε σ Flow} {unit : List δ}
    (h : ∀ i, InWindows probe (body i) fun flow cs => cs <+: unit ∧ (flow = .next → cs = unit)) :
    InWindows probe (forReturn n body) fun flow cs =>
      cs <+: repeated n unit ∧ (flow = .next → cs = repeated n unit) := by
  induction n with
  | zero => exact pure ⟨List.prefix_rfl, fun _ => rfl⟩
  | succ n ih =>
    refine bind (ih.mono fun flow cs hcs => ?_)
    obtain ⟨hprev, hnext⟩ := hcs
    rw [repeated_succ]
    cases flow with
    | ret =>
      refine pure ⟨?_, fun hflow => nomatch hflow⟩
      rw [List.append_nil]
      exact hprev.trans (List.prefix_append _ _)
    | next =>
      obtain rfl := hnext rfl
      refine (h n).mono fun flow cs hcs => ⟨?_, fun hflow => ?_⟩
      · exact (List.prefix_append_right_inj _).mpr hcs.1
      · rw [hcs.2 hflow]

end InWindows

end InputProgram
