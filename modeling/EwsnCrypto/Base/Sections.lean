import EwsnCrypto.Base.InputProgram

/-!
# What lies in windows

A trace opens and closes windows, and what it shows in between lies in them. A program
whose runs may stop only where no window is open is given by the windows that it goes
through: a run has the first of them, and all if it ends.
-/

namespace InputProgram

variable {ι ε σ α β δ : Type}

/-- A toggle closes the open window, and opens one otherwise. -/
inductive Tick (δ : Type) where
  | opening
  | closing
  | toggle
  | inside (x : δ)
deriving DecidableEq

def Tick.opens : Tick δ → Bool
  | .opening | .toggle => true
  | _ => false

/-- The contents of each window that is closed again, given those of the open window. -/
def sections : Option (List δ) → List (Tick δ) → List (List δ)
  | _, [] => []
  | _, .opening :: ticks => sections (some []) ticks
  | none, .toggle :: ticks => sections (some []) ticks
  | none, _ :: ticks => sections none ticks
  | some xs, .toggle :: ticks => xs :: sections none ticks
  | some xs, .closing :: ticks => xs :: sections none ticks
  | some xs, .inside x :: ticks => sections (some (xs ++ [x])) ticks

/-- A part of a trace has a part of its windows. -/
theorem sections_mono {ticks ticks' : List (Tick δ)} (h : ticks <+: ticks')
    (w : Option (List δ)) : sections w ticks <+: sections w ticks' := by
  obtain ⟨rest, rfl⟩ := h
  induction ticks generalizing w with
  | nil => cases w <;> exact List.nil_prefix
  | cons t ticks ih =>
    cases w with
    | none => cases t with
      | opening => exact ih (some [])
      | toggle => exact ih (some [])
      | _ => exact ih none
    | some xs => cases t with
      | opening => exact ih (some [])
      | inside x => exact ih (some (xs ++ [x]))
      | _ => exact (List.prefix_cons_inj xs).mpr (ih none)

/-- Behind `ticks`, which hold the windows `out`, no window is open. -/
def Closed (ticks : List (Tick δ)) (out : List (List δ)) : Prop :=
  ∀ rest, sections none (ticks ++ rest) = out ++ sections none rest

namespace Closed
variable {ticks ticks' : List (Tick δ)} {out out' : List (List δ)}

theorem nil : Closed ([] : List (Tick δ)) [] := fun _ => rfl

theorem append (h : Closed ticks out) (h' : Closed ticks' out') :
    Closed (ticks ++ ticks') (out ++ out') := by
  intro rest
  rw [List.append_assoc, h, h', List.append_assoc]

theorem sections_eq (h : Closed ticks out) : sections none ticks = out := by
  have hrest := h []
  rwa [List.append_nil, sections, List.append_nil] at hrest

theorem flatMap {γ : Type} {xs : List γ} {f : γ → List (Tick δ)} {out : γ → List (List δ)}
    (h : ∀ x, Closed (f x) (out x)) : Closed (xs.flatMap f) (xs.flatMap out) := by
  induction xs with
  | nil => exact nil
  | cons x xs ih => exact (h x).append ih

/-- Where nothing is opened there is no window. -/
theorem unopened (h : ∀ t ∈ ticks, t.opens = false) : Closed ticks [] := by
  intro rest
  induction ticks with
  | nil => rfl
  | cons t ticks ih =>
    have hticks := ih fun t' ht' => h t' (List.mem_cons_of_mem t ht')
    have ht : t.opens = false := h t List.mem_cons_self
    cases t with
    | closing => exact hticks
    | inside x => exact hticks
    | _ => nomatch ht

theorem sections_inside (ys xs : List δ) (rest : List (Tick δ)) :
    sections (some ys) (xs.map .inside ++ rest) = sections (some (ys ++ xs)) rest := by
  induction xs generalizing ys with
  | nil => rw [List.append_nil, List.map_nil, List.nil_append]
  | cons x xs ih =>
    rw [List.map_cons, List.cons_append, sections, ih, List.append_assoc, List.singleton_append]

theorem window (xs : List δ) : Closed (.opening :: xs.map .inside ++ [.closing]) [xs] := by
  intro rest
  rw [List.append_assoc, List.cons_append, sections, sections_inside]
  rfl

theorem toggled (xs : List δ) : Closed (.toggle :: xs.map .inside ++ [.toggle]) [xs] := by
  intro rest
  rw [List.append_assoc, List.cons_append, sections, sections_inside]
  rfl

end Closed

/-- Every run of `p` ends, and what is read off it is `out`. -/
def Shows (read : ε → Option δ) (p : Prog ι ε σ α) (out : List δ) : Prop :=
  ∀ ins st, (p.exec ins st).value ≠ none ∧ (p.exec ins st).trace.filterMap read = out

namespace Shows
variable {read : ε → Option δ} {out out' : List δ}

theorem act {f : σ → α × σ × List ε} (h : ∀ st, (f st).2.2.filterMap read = out) :
    Shows read (InputProgram.act f : Prog ι ε σ α) out :=
  fun _ st => ⟨Option.some_ne_none _, h st⟩

theorem pure (a : α) : Shows read (Pure.pure a : Prog ι ε σ α) [] :=
  fun _ _ => ⟨Option.some_ne_none a, rfl⟩

theorem emit {e : ε} {x : δ} (h : read e = some x) :
    Shows read (InputProgram.emit e : Prog ι ε σ Unit) [x] :=
  act fun _ => List.filterMap_cons_some h

theorem unread {e : ε} (h : read e = none) :
    Shows read (InputProgram.emit e : Prog ι ε σ Unit) [] :=
  act fun _ => List.filterMap_cons_none h

theorem bind {p : Prog ι ε σ α} {f : α → Prog ι ε σ β} (hp : Shows read p out)
    (hf : ∀ a, Shows read (f a) out') : Shows read (p >>= f) (out ++ out') := by
  intro ins st
  obtain ⟨hvalue, hout⟩ := hp ins st
  obtain ⟨a, ha⟩ := Option.ne_none_iff_exists'.mp hvalue
  obtain ⟨hvalue', hout'⟩ := hf a (p.exec ins st).rest (p.exec ins st).state
  rw [bind_exec, andThen_of_value ha, List.filterMap_append, hout, hout']
  exact ⟨hvalue', rfl⟩

theorem bind_unread {p : Prog ι ε σ α} {f : α → Prog ι ε σ β} (hp : Shows read p [])
    (hf : ∀ a, Shows read (f a) out) : Shows read (p >>= f) out := hp.bind hf

theorem then_unread {p : Prog ι ε σ α} {f : α → Prog ι ε σ β} (hp : Shows read p out)
    (hf : ∀ a, Shows read (f a) []) : Shows read (p >>= f) out := by
  have hbind := hp.bind hf
  rwa [List.append_nil] at hbind

theorem onlyIf {c : Bool} {p : Prog ι ε σ Unit} (hp : Shows read p []) :
    Shows read (InputProgram.onlyIf c p) [] := by
  cases c with
  | true => exact hp
  | false => exact pure ()

theorem forM {γ : Type} {xs : List γ} {f : γ → Prog ι ε σ Unit} {entry : γ → List δ}
    (h : ∀ x, Shows read (f x) (entry x)) : Shows read (xs.forM f) (xs.flatMap entry) := by
  induction xs with
  | nil => exact pure ()
  | cons x xs ih => exact (h x).bind fun _ => ih

end Shows

/-- A program that opens a window may wait before it does. -/
def Opens (read : ε → Option (Tick δ)) (p : Prog ι ε σ α) : Prop := ∀ ins st,
  ((p.exec ins st).value = none → (p.exec ins st).trace.filterMap read = []) ∧
    ((p.exec ins st).value ≠ none → (p.exec ins st).trace.filterMap read = [.opening])

theorem pollWhile_unread {read : ε → Option δ} {again : ι → Bool} {log : ι → ε}
    (h : ∀ i, read (log i) = none) (ins : List ι) (st : σ) :
    ((pollWhile again log : Prog ι ε σ Unit).exec ins st).trace.filterMap read = [] := by
  induction ins with
  | nil => rfl
  | cons i ins ih =>
    by_cases hi : again i = true
    · rw [pollWhile_again hi, List.filterMap_cons_none (h i)]
      exact ih
    · rw [pollWhile_done hi, List.filterMap_cons_none (h i)]
      rfl

namespace Opens
variable {read : ε → Option (Tick δ)}

theorem emit {e : ε} (h : read e = some .opening) :
    Opens read (InputProgram.emit e : Prog ι ε σ Unit) :=
  fun _ _ => ⟨fun hvalue => absurd hvalue (Option.some_ne_none _),
    fun _ => List.filterMap_cons_some h⟩

theorem after_poll {again : ι → Bool} {log : ι → ε} {p : Prog ι ε σ α}
    (h : ∀ i, read (log i) = none) (hp : Opens read p) :
    Opens read (pollWhile again log >>= fun _ => p) := by
  intro ins st
  have hunread : ((pollWhile again log : Prog ι ε σ Unit).exec ins st).trace.filterMap read = [] :=
    pollWhile_unread h ins st
  rw [bind_exec]
  cases hvalue : ((pollWhile again log : Prog ι ε σ Unit).exec ins st).value with
  | none =>
    rw [andThen_of_stopped hvalue]
    exact ⟨fun _ => hunread, fun hended => absurd rfl hended⟩
  | some _ =>
    rw [andThen_of_value hvalue, List.filterMap_append, hunread, List.nil_append]
    exact hp _ _

end Opens

/-- The windows of every run are the first of `out`, and all of them if the run ends. -/
def Sectioned (read : ε → Option (Tick δ)) (p : Prog ι ε σ α) (out : List (List δ)) : Prop :=
  ∀ ins st, ∃ done, done <+: out ∧ ((p.exec ins st).value ≠ none → done = out) ∧
    Closed ((p.exec ins st).trace.filterMap read) done

namespace Sectioned
variable {read : ε → Option (Tick δ)} {out out' : List (List δ)}

theorem of_unopened {p : Prog ι ε σ α}
    (h : ∀ ins st, ∀ t ∈ (p.exec ins st).trace.filterMap read, t.opens = false) :
    Sectioned read p [] :=
  fun ins st => ⟨[], List.prefix_rfl, fun _ => rfl, .unopened (h ins st)⟩

theorem pure (a : α) : Sectioned read (Pure.pure a : Prog ι ε σ α) [] :=
  of_unopened fun _ _ _ ht => False.elim (List.not_mem_nil ht)

theorem act {f : σ → α × σ × List ε}
    (h : ∀ st, ∀ e ∈ (f st).2.2, (read e).any Tick.opens = false) :
    Sectioned read (InputProgram.act f : Prog ι ε σ α) [] := by
  refine of_unopened fun _ st t ht => ?_
  obtain ⟨e, he, hread⟩ := List.mem_filterMap.mp ht
  have hopens := h st e he
  rwa [hread] at hopens

theorem emit {e : ε} (h : (read e).any Tick.opens = false) :
    Sectioned read (InputProgram.emit e : Prog ι ε σ Unit) [] :=
  act fun _ _ he => List.mem_singleton.mp he ▸ h

theorem bind {p : Prog ι ε σ α} {f : α → Prog ι ε σ β} (hp : Sectioned read p out)
    (hf : ∀ a, Sectioned read (f a) out') : Sectioned read (p >>= f) (out ++ out') := by
  intro ins st
  obtain ⟨done, hdone, hall, hclosed⟩ := hp ins st
  cases hvalue : (p.exec ins st).value with
  | none =>
    rw [bind_exec, andThen_of_stopped hvalue]
    exact ⟨done, hdone.trans (List.prefix_append _ _), fun h => absurd rfl h, hclosed⟩
  | some a =>
    obtain ⟨done', hdone', hall', hclosed'⟩ := hf a (p.exec ins st).rest (p.exec ins st).state
    obtain rfl : done = out := hall (hvalue ▸ Option.some_ne_none a)
    rw [bind_exec, andThen_of_value hvalue, List.filterMap_append]
    refine ⟨done ++ done', (List.prefix_append_right_inj done).mpr hdone', fun h => ?_,
      hclosed.append hclosed'⟩
    rw [hall' h]

/-- A part without windows in front. -/
theorem bind_unopened {p : Prog ι ε σ α} {f : α → Prog ι ε σ β} (hp : Sectioned read p [])
    (hf : ∀ a, Sectioned read (f a) out) : Sectioned read (p >>= f) out := hp.bind hf

/-- A part without windows behind. -/
theorem then_unopened {p : Prog ι ε σ α} {f : α → Prog ι ε σ β} (hp : Sectioned read p out)
    (hf : ∀ a, Sectioned read (f a) []) : Sectioned read (p >>= f) out := by
  have hbind := hp.bind hf
  rwa [List.append_nil] at hbind

theorem forM {γ : Type} {xs : List γ} {f : γ → Prog ι ε σ Unit}
    (h : ∀ x, Sectioned read (f x) []) : Sectioned read (xs.forM f) [] := by
  induction xs with
  | nil => exact pure ()
  | cons x xs ih => exact (h x).bind_unopened fun _ => ih

theorem forRange {n : Nat} {body : Nat → Prog ι ε σ Unit} (h : ∀ i, Sectioned read (body i) out) :
    Sectioned read (InputProgram.forRange n body) (List.replicate n out).flatten := by
  induction n with
  | zero => exact pure ()
  | succ n ih =>
    rw [List.replicate_succ', List.flatten_append, List.flatten_singleton]
    exact ih.bind fun _ => h n

/-- A window around a part that ends. -/
theorem window {γ : Type} {p : Prog ι ε σ α} {q : α → Prog ι ε σ β} {r : α → β → Prog ι ε σ γ}
    {xs : List δ} (hp : Opens read p) (hq : ∀ a, Shows read (q a) (xs.map .inside))
    (hr : ∀ a b, Shows read (r a b) [.closing]) :
    Sectioned read (p >>= fun a => q a >>= r a) [xs] := by
  intro ins st
  obtain ⟨hwaits, hopens⟩ := hp ins st
  cases hvalue : (p.exec ins st).value with
  | none =>
    rw [bind_exec, andThen_of_stopped hvalue]
    refine ⟨[], List.nil_prefix, fun h => absurd rfl h, ?_⟩
    rw [hwaits hvalue]
    exact .nil
  | some a =>
    obtain ⟨_, hfilled⟩ := ((hq a).bind (hr a)) (p.exec ins st).rest (p.exec ins st).state
    rw [bind_exec, andThen_of_value hvalue]
    refine ⟨[xs], List.prefix_rfl, fun _ => rfl, ?_⟩
    rw [List.filterMap_append, hopens (hvalue ▸ Option.some_ne_none a), hfilled]
    exact .window xs

theorem begins {p : Prog ι ε σ α} (h : Sectioned read p out) (ins : List ι) (st : σ) :
    sections none ((p.exec ins st).trace.filterMap read) <+: out := by
  obtain ⟨done, hdone, _, hclosed⟩ := h ins st
  rwa [hclosed.sections_eq]

theorem ends {p : Prog ι ε σ α} (h : Sectioned read p out) {ins : List ι} {st : σ}
    (hvalue : (p.exec ins st).value ≠ none) :
    sections none ((p.exec ins st).trace.filterMap read) = out := by
  obtain ⟨done, _, hall, hclosed⟩ := h ins st
  rw [hclosed.sections_eq, hall hvalue]

end Sectioned

end InputProgram
