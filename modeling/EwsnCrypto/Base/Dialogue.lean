import EwsnCrypto.Base.ProgramLogic

/-!
# Programs that answer requests

A program waits for requests in its inputs and answers each of them. What it shows
is a dialogue: something at first, and one answer for each request. The number of
requests then decides what a run has shown and whether it has finished, and it is
of no account when they came.
-/

namespace InputProgram

variable {ι ε σ α β : Type}

structure Dialogue (ε : Type) where
  first : List ε
  answers : List (List ε)

namespace Dialogue

def size (d : Dialogue ε) : Nat := d.answers.length

/-- What has been shown after `n` requests. -/
def after (d : Dialogue ε) (n : Nat) : List ε := d.first ++ (d.answers.take n).flatten

def continued : List ε → List (List ε) → Dialogue ε → Dialogue ε
  | first, [], d => ⟨first ++ d.first, d.answers⟩
  | first, a :: as, d => ⟨first, (continued a as d).first :: (continued a as d).answers⟩

/-- What the second dialogue shows at first belongs to the last answer of the first. -/
def append (d d' : Dialogue ε) : Dialogue ε := continued d.first d.answers d'

@[simp] theorem size_append (d d' : Dialogue ε) : (d.append d').size = d.size + d'.size := by
  obtain ⟨first, answers⟩ := d
  induction answers generalizing first with
  | nil => simp [append, continued, size]
  | cons a as ih =>
    have hrest := ih a
    simp only [size, append, continued, List.length_cons] at hrest ⊢
    omega

theorem after_append (d d' : Dialogue ε) (n : Nat) :
    (d.append d').after n = d.after n ++ if d.size ≤ n then d'.after (n - d.size) else [] := by
  obtain ⟨first, answers⟩ := d
  induction answers generalizing first n with
  | nil => simp [append, continued, after, size]
  | cons a as ih =>
    cases n with
    | zero => simp [append, continued, after, size]
    | succ n =>
      have hrest := ih n a
      by_cases hdone : as.length ≤ n <;>
        simp only [after, size, append, continued, List.length_cons, List.take_succ_cons,
          List.flatten_cons, Nat.add_le_add_iff_right, Nat.add_sub_add_right, List.append_assoc,
          hdone, if_true, if_false] at hrest ⊢ <;>
        rw [hrest]

/-- A dialogue that shows nothing at first adds its answers. -/
theorem append_answers (first : List ε) (answers answers' : List (List ε)) :
    append ⟨first, answers⟩ ⟨[], answers'⟩ = ⟨first, answers ++ answers'⟩ := by
  induction answers generalizing first with
  | nil => simp [append, continued]
  | cons a as ih =>
    have hrest := ih a
    simp only [append, continued] at hrest ⊢
    rw [hrest, List.cons_append]

/-- Every answer has one event of the kind `w`, and nothing before the first has one. -/
structure Marked (w : ε → Bool) (d : Dialogue ε) : Prop where
  first : d.first.countP w = 0
  answers : ∀ a ∈ d.answers, a.countP w = 1

theorem Marked.append {w : ε → Bool} {d d' : Dialogue ε} (h : d.Marked w) (h' : d'.Marked w) :
    (d.append d').Marked w := by
  have hall (answers : List (List ε)) : ∀ first, (∀ a ∈ answers, a.countP w = 1) →
      (continued first answers d').first.countP w = first.countP w ∧
        ∀ a ∈ (continued first answers d').answers, a.countP w = 1 := by
    induction answers with
    | nil =>
      intro first _
      exact ⟨by rw [continued, List.countP_append, h'.first, Nat.add_zero], h'.answers⟩
    | cons a as ih =>
      intro first hanswers
      obtain ⟨ha, has⟩ := List.forall_mem_cons.mp hanswers
      obtain ⟨hfirst, hrest⟩ := ih a has
      exact ⟨rfl, List.forall_mem_cons.mpr ⟨hfirst.trans ha, hrest⟩⟩
  obtain ⟨hfirst, hanswers⟩ := hall d.answers d.first h.answers
  exact ⟨hfirst.trans h.first, hanswers⟩

/-- Each request that has been answered has left one mark. -/
theorem Marked.countP_after {w : ε → Bool} {d : Dialogue ε} (h : d.Marked w) (n : Nat) :
    (d.after n).countP w = min n d.size := by
  obtain ⟨first, answers⟩ := d
  obtain ⟨hfirst, hanswers⟩ := h
  have hall : ∀ (answers : List (List ε)) (n : Nat), (∀ a ∈ answers, a.countP w = 1) →
      (answers.take n).flatten.countP w = min n answers.length := by
    intro answers
    induction answers with
    | nil => simp
    | cons a as ih =>
      intro n hanswers
      obtain ⟨ha, has⟩ := List.forall_mem_cons.mp hanswers
      cases n with
      | zero => simp
      | succ n =>
        rw [List.take_succ_cons, List.flatten_cons, List.countP_append, ha, ih n has,
          List.length_cons]
        omega
  simp only at hfirst
  rw [after, List.countP_append, hfirst, hall answers n hanswers, Nat.zero_add, size]

/-- With more requests nothing of what was shown is taken back. -/
theorem after_mono (d : Dialogue ε) {n m : Nat} (h : n ≤ m) : d.after n <+: d.after m := by
  have htake : d.answers.take n <+: d.answers.take m := List.take_prefix_take_left h
  obtain ⟨more, hmore⟩ := htake
  rw [after, after, ← hmore, List.flatten_append, ← List.append_assoc]
  exact List.prefix_append _ _

end Dialogue

/-- Rounds that read nothing. -/
theorem forRange_exec {n : Nat} {body : Nat → Prog ι ε σ Unit} (s : Nat → σ) (events : Nat → List ε)
    (round : ∀ i ins, (body i).exec ins (s i) = ⟨events i, s (i + 1), ins, some ()⟩)
    (ins : List ι) :
    (forRange n body).exec ins (s 0) = ⟨(List.range n).flatMap events, s n, ins, some ()⟩ := by
  induction n with
  | zero => rfl
  | succ n ih =>
    have hdone : ((forRange n body).exec ins (s 0)).value = some () := by rw [ih]
    rw [forRange_succ_exec hdone, ih, round, List.range_succ, List.flatMap_append]
    simp

/-- From `st`, `p` holds the dialogue `d`: it stops where the requests run out, and
finishes with the last one. -/
structure Holds (requests : List ι → Nat) (shown : ε → Bool) (p : Prog ι ε σ α) (d : Dialogue ε)
    (a : α) (st st' : σ) : Prop where
  trace : ∀ ins, (p.exec ins st).trace.filter shown = d.after (requests ins)
  finished : ∀ ins, d.size ≤ requests ins → (p.exec ins st).value = some a ∧
    (p.exec ins st).state = st' ∧ requests ins = requests (p.exec ins st).rest + d.size
  stopped : ∀ ins, requests ins < d.size → (p.exec ins st).value = none

section Rules
variable {requests : List ι → Nat} {shown : ε → Bool} {st st' st'' : σ}

theorem holds_pure (a : α) :
    Holds requests shown (pure a : Prog ι ε σ α) ⟨[], []⟩ a st st :=
  ⟨fun _ => by simp [Dialogue.after], fun _ _ => ⟨rfl, rfl, rfl⟩, fun _ h => nomatch h⟩

/-- What reads nothing. -/
theorem holds_of_exec {p : Prog ι ε σ α} {tr : List ε} {a : α}
    (h : ∀ ins, p.exec ins st = ⟨tr, st', ins, some a⟩) :
    Holds requests shown p ⟨tr.filter shown, []⟩ a st st' :=
  ⟨fun ins => by simp [h ins, Dialogue.after], fun ins _ => by simp [h ins, Dialogue.size],
    fun _ h => nomatch h⟩

theorem holds_act (f : σ → α × σ × List ε) :
    Holds requests shown (act f : Prog ι ε σ α) ⟨(f st).2.2.filter shown, []⟩ (f st).1 st
      (f st).2.1 := holds_of_exec fun _ => rfl

theorem holds_emit (e : ε) :
    Holds requests shown (emit e : Prog ι ε σ Unit) ⟨[e].filter shown, []⟩ () st st := holds_act _

/-- Waiting for a request is a dialogue with an empty answer. -/
theorem holds_wait {p : Prog ι ε σ Unit}
    (hsilent : ∀ ins, ∀ e ∈ (p.exec ins st).trace, shown e = false)
    (hdone : ∀ ins, 0 < requests ins → (p.exec ins st).value = some () ∧
      (p.exec ins st).state = st ∧ requests ins = requests (p.exec ins st).rest + 1)
    (hstop : ∀ ins, requests ins = 0 → (p.exec ins st).value = none) :
    Holds requests shown p ⟨[], [[]]⟩ () st st := by
  refine ⟨fun ins => ?_, fun ins h => hdone ins h, fun ins h => hstop ins (Nat.lt_one_iff.mp h)⟩
  have hempty : ∀ n, (Dialogue.after ⟨[], [[]]⟩ n : List ε) = [] := by
    intro n
    cases n <;> simp [Dialogue.after]
  rw [hempty, List.filter_eq_nil_iff]
  exact fun e he => by simp [hsilent ins e he]

/-- One dialogue after the other. -/
theorem holds_bind {p : Prog ι ε σ α} {f : α → Prog ι ε σ β} {d d' : Dialogue ε} {a : α} {b : β}
    (hp : Holds requests shown p d a st st') (hf : Holds requests shown (f a) d' b st' st'') :
    Holds requests shown (p >>= f) (d.append d') b st st'' := by
  constructor
  · intro ins
    rw [Dialogue.after_append]
    by_cases hdone : d.size ≤ requests ins
    · obtain ⟨hvalue, hstate, hrest⟩ := hp.finished ins hdone
      have hleft : requests ins - d.size = requests (p.exec ins st).rest := by omega
      rw [bind_exec, andThen_of_value hvalue, List.filter_append, hp.trace, hstate, hf.trace,
        if_pos hdone, hleft]
    · rw [bind_exec, andThen_of_stopped (hp.stopped ins (by omega)), hp.trace, if_neg hdone,
        List.append_nil]
  · intro ins hsize
    rw [Dialogue.size_append] at hsize ⊢
    obtain ⟨hvalue, hstate, hrest⟩ := hp.finished ins (by omega)
    obtain ⟨hvalue', hstate', hrest'⟩ := hf.finished (p.exec ins st).rest (by omega)
    rw [bind_exec, andThen_of_value hvalue, hstate]
    exact ⟨hvalue', hstate', by simp only; omega⟩
  · intro ins hsize
    rw [Dialogue.size_append] at hsize
    by_cases hdone : d.size ≤ requests ins
    · obtain ⟨hvalue, hstate, hrest⟩ := hp.finished ins hdone
      rw [bind_exec, andThen_of_value hvalue, hstate]
      exact hf.stopped _ (by omega)
    · rw [bind_exec, andThen_of_stopped (hp.stopped ins (by omega))]

/-- Rounds that answer a request each. -/
theorem holds_forRange {n : Nat} {body : Nat → Prog ι ε σ Unit} (s : Nat → σ)
    (answer : Nat → List ε)
    (round : ∀ i, Holds requests shown (body i) ⟨[], [answer i]⟩ () (s i) (s (i + 1))) :
    Holds requests shown (forRange n body) ⟨[], (List.range n).map answer⟩ () (s 0) (s n) := by
  induction n with
  | zero => exact holds_pure ()
  | succ n ih =>
    have hnext := holds_bind ih (f := fun _ => body n) (round n)
    rw [Dialogue.append_answers] at hnext
    rw [List.range_succ, List.map_append]
    exact hnext

/-- What runs of a program with a start, rounds that answer a request each, and an end
show. -/
theorem rounds_run {first last : Prog ι ε σ Unit} {n : Nat} {body : Nat → Prog ι ε σ Unit}
    {init tail : List ε} {s : Nat → σ} {answer : Nat → List ε}
    (hfirst : Holds requests shown first ⟨init, []⟩ () st (s 0))
    (round : ∀ i, Holds requests shown (body i) ⟨[], [answer i]⟩ () (s i) (s (i + 1)))
    (hlast : Holds requests shown last ⟨tail, []⟩ () (s n) st') (ins : List ι) :
    ((do first; forRange n body; last).exec ins st).trace.filter shown =
        init ++ (List.range (min (requests ins) n)).flatMap answer ++
          (if n ≤ requests ins then tail else []) ∧
      (((do first; forRange n body; last).exec ins st).value = some () ↔ n ≤ requests ins) := by
  have hrounds := holds_forRange (n := n) s answer round
  have hmain := holds_bind hfirst (f := fun _ => _) (holds_bind hrounds (f := fun _ => last) hlast)
  have hshown (k : Nat) : Dialogue.after ⟨[], (List.range n).map answer⟩ k =
      (List.range (min k n)).flatMap answer := by
    rw [Dialogue.after, ← List.map_take, List.take_range, List.nil_append, List.flatMap_def]
  have hsize : Dialogue.size (⟨[], (List.range n).map answer⟩ : Dialogue ε) = n := by
    simp [Dialogue.size]
  have hnone (tr : List ε) : Dialogue.size ⟨tr, []⟩ = 0 := rfl
  have hfixed (tr : List ε) (k : Nat) : Dialogue.after ⟨tr, []⟩ k = tr := by simp [Dialogue.after]
  have hsizes : ((⟨init, []⟩ : Dialogue ε).append (Dialogue.append ⟨[], (List.range n).map answer⟩
      ⟨tail, []⟩)).size = n := by
    rw [Dialogue.size_append, Dialogue.size_append, hsize, hnone, hnone]
    omega
  constructor
  · rw [hmain.trace, Dialogue.after_append, Dialogue.after_append, hsize, hnone, Nat.sub_zero,
      if_pos (Nat.zero_le _), hfixed, hfixed, hshown, List.append_assoc]
  · constructor
    · intro hvalue
      by_contra hfew
      have hstopped := hmain.stopped ins (by omega)
      rw [hvalue] at hstopped
      exact Option.some_ne_none _ hstopped
    · intro hmany
      exact (hmain.finished ins (by omega)).1

end Rules

/-- The requests of `n` rounds of which round `i` takes `k i`. -/
def total (k : Nat → Nat) : Nat → Nat
  | 0 => 0
  | n + 1 => total k n + k n

theorem total_const (k n : Nat) : total (fun _ => k) n = n * k := by
  induction n with
  | zero => rw [total, Nat.zero_mul]
  | succ n ih => rw [total, ih, Nat.succ_mul]

theorem total_mono {k k' : Nat → Nat} (h : ∀ i, k i ≤ k' i) (n : Nat) :
    total k n ≤ total k' n := by
  induction n with
  | zero => exact Nat.le_refl 0
  | succ n ih => exact Nat.add_le_add ih (h n)

theorem total_congr {k k' : Nat → Nat} {n : Nat} (h : ∀ i < n, k i = k' i) :
    total k n = total k' n := by
  induction n with
  | zero => rfl
  | succ n ih =>
    rw [total, total, h n (Nat.lt_succ_self n), ih fun i hi => h i (Nat.lt_succ_of_lt hi)]

/-- From `st`, `p` holds a marked dialogue with `k` requests, and comes to `a` and `st'`. -/
def Converses (requests : List ι → Nat) (shown w : ε → Bool) (k : Nat) (p : Prog ι ε σ α) (a : α)
    (st st' : σ) : Prop :=
  ∃ d : Dialogue ε, d.size = k ∧ d.Marked w ∧ Holds requests shown p d a st st'

namespace Converses
variable {requests : List ι → Nat} {shown w : ε → Bool} {k k' : Nat} {st st' st'' : σ}

theorem pure (a : α) :
    Converses requests shown w 0 (Pure.pure a : Prog ι ε σ α) a st st :=
  ⟨⟨[], []⟩, rfl, ⟨rfl, fun _ h => nomatch h⟩, holds_pure a⟩

theorem act {f : σ → α × σ × List ε} (hf : ∀ e ∈ (f st).2.2, w e = false) :
    Converses requests shown w 0 (InputProgram.act f : Prog ι ε σ α) (f st).1 st (f st).2.1 := by
  refine ⟨_, rfl, ⟨?_, fun _ h => False.elim (List.not_mem_nil h)⟩, holds_act f⟩
  rw [List.countP_eq_zero]
  exact fun e he => by simp [hf e (List.mem_filter.mp he).1]

theorem emit {e : ε} (he : w e = false) :
    Converses requests shown w 0 (InputProgram.emit e : Prog ι ε σ Unit) () st st :=
  act fun e' he' => by rw [List.mem_singleton.mp he', he]

theorem bind {p : Prog ι ε σ α} {f : α → Prog ι ε σ β} {a : α} {b : β}
    (hp : Converses requests shown w k p a st st')
    (hf : Converses requests shown w k' (f a) b st' st'') :
    Converses requests shown w (k + k') (p >>= f) b st st'' := by
  obtain ⟨d, rfl, hmarked, hholds⟩ := hp
  obtain ⟨d', rfl, hmarked', hholds'⟩ := hf
  exact ⟨d.append d', Dialogue.size_append d d', hmarked.append hmarked', holds_bind hholds hholds'⟩

/-- What answers no request may follow, or stand in front. -/
theorem bind_idle {p : Prog ι ε σ α} {f : α → Prog ι ε σ β} {a : α} {b : β}
    (hp : Converses requests shown w k p a st st')
    (hf : Converses requests shown w 0 (f a) b st' st'') :
    Converses requests shown w k (p >>= f) b st st'' := hp.bind hf

theorem idle_bind {p : Prog ι ε σ α} {f : α → Prog ι ε σ β} {a : α} {b : β}
    (hp : Converses requests shown w 0 p a st st')
    (hf : Converses requests shown w k (f a) b st' st'') :
    Converses requests shown w k (p >>= f) b st st'' := by
  simpa only [Nat.zero_add] using hp.bind hf

theorem onlyIf {c : Bool} {p : Prog ι ε σ Unit} (hp : Converses requests shown w 0 p () st st) :
    Converses requests shown w 0 (InputProgram.onlyIf c p) () st st := by
  cases c with
  | true => exact hp
  | false => exact pure ()

theorem forM {γ : Type} {xs : List γ} {f : γ → Prog ι ε σ Unit}
    (h : ∀ x ∈ xs, Converses requests shown w 0 (f x) () st st) :
    Converses requests shown w 0 (xs.forM f) () st st := by
  induction xs with
  | nil => exact pure ()
  | cons x xs ih =>
    have hrest := ih fun y hy => h y (List.mem_cons_of_mem x hy)
    exact (h x List.mem_cons_self).bind_idle (f := fun _ => xs.forM f) hrest

/-- The requests of the rounds add up, whichever each of them takes. -/
theorem forRange {n : Nat} {body : Nat → Prog ι ε σ Unit} {k : Nat → Nat} {s : Nat → σ}
    (h : ∀ i, Converses requests shown w (k i) (body i) () (s i) (s (i + 1))) :
    Converses requests shown w (total k n) (InputProgram.forRange n body) () (s 0) (s n) := by
  induction n with
  | zero => exact pure ()
  | succ n ih => exact ih.bind (h n)

end Converses

end InputProgram
