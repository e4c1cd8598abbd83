import EwsnCrypto.Ecdh.Effects
import Mathlib

/-!
# Agreement of the derived secrets

A key agreement makes pairs and derives a secret from a private and a public
key; crossing two pairs gives one secret. The applications keep the halves of
their two pairs in different places, and a failing call changes none of them,
so that from some iteration on each stored public key belongs to the stored
private key, although the two pairs may be of different age.
-/

open InputProgram Trigger EccSteps

namespace Ecdh

/-- Which pairs a library generates, and what it derives. -/
structure KeyAgreement (Priv Pub Secret : Type) where
  Generated : Priv → Pub → Prop
  dh : Priv → Pub → Secret
  comm : ∀ a A b B, Generated a A → Generated b B → dh a B = dh b A

variable {Priv Pub Secret : Type}

/-- The outcomes of one iteration: each call fails with a code or succeeds. -/
structure Outcomes (K : KeyAgreement Priv Pub Secret) where
  gen1 : Except Nat {pair : Priv × Pub // K.Generated pair.1 pair.2}
  gen2 : Except Nat {pair : Priv × Pub // K.Generated pair.1 pair.2}
  derive1 : Except Nat Unit
  derive2 : Except Nat Unit
  blankA : Priv × Pub
  blankB : Priv × Pub
  locals : SecretBuf → Secret

/-- The library that answers with these outcomes. -/
def Outcomes.replies {K : KeyAgreement Priv Pub Secret} (o : Outcomes K) :
    Replies Priv Pub Secret where
  gen1 := o.gen1.map Subtype.val
  gen2 := o.gen2.map Subtype.val
  derive1 a B := o.derive1.map fun _ => K.dh a B
  derive2 a B := o.derive2.map fun _ => K.dh a B
  blankA := o.blankA
  blankB := o.blankB
  locals := o.locals

/-- Each public key in memory belongs to the private key of its pair. -/
structure Paired (K : KeyAgreement Priv Pub Secret) (A : Application)
    (m : Memory Priv Pub Secret) : Prop where
  first : K.Generated (m.priv A.priv1) (m.pub A.pub1)
  second : K.Generated (m.priv A.priv2) (m.pub A.pub2)

section Invariant
variable {K : KeyAgreement Priv Pub Secret} {A : Application} {o : Outcomes K}
variable {m : Memory Priv Pub Secret}

/-- Writing a generated pair to one place keeps the pair in the other. -/
theorem Paired.setFirst (h : K.Generated (m.priv A.priv2) (m.pub A.pub2)) {pair : Priv × Pub}
    (hpair : K.Generated pair.1 pair.2) : Paired K A (m.setPair A.priv1 A.pub1 pair) := by
  constructor
  · simpa using hpair
  · simpa [Function.update_of_ne A.priv_ne.symm, Function.update_of_ne A.pub_ne.symm] using h

theorem Paired.setSecond (h : K.Generated (m.priv A.priv1) (m.pub A.pub1)) {pair : Priv × Pub}
    (hpair : K.Generated pair.1 pair.2) : Paired K A (m.setPair A.priv2 A.pub2 pair) := by
  constructor
  · simpa [Function.update_of_ne A.priv_ne, Function.update_of_ne A.pub_ne] using h
  · simpa using hpair

theorem Paired.generated (h : Paired K A m) : Paired K A (A.generated o.replies m) := by
  simp only [Application.generated, Outcomes.replies]
  cases o.gen1 with
  | error code => exact h
  | ok p =>
    cases o.gen2 with
    | error code => exact .setFirst h.second p.2
    | ok q => exact .setSecond (Paired.setFirst h.second p.2).first q.2

/-- Two successful generations pair the keys, whatever was in memory. -/
theorem Paired.of_generated {p q : {pair : Priv × Pub // K.Generated pair.1 pair.2}}
    (h1 : o.gen1 = .ok p) (h2 : o.gen2 = .ok q) : Paired K A (A.generated o.replies m) := by
  have hfirst : K.Generated ((m.setPair A.priv1 A.pub1 p.1).priv A.priv1)
      ((m.setPair A.priv1 A.pub1 p.1).pub A.pub1) := by simpa using p.2
  simp only [Application.generated, Outcomes.replies, h1, h2, Except.map]
  exact .setSecond hfirst q.2

theorem Paired.derived (h : Paired K A m) (r : Replies Priv Pub Secret) :
    Paired K A (A.derived r m) := by
  have hdeclared : Paired K A (A.declared r m) := by
    constructor
    · simpa using h.first
    · simpa using h.second
  simp only [Application.derived]
  split
  · exact hdeclared
  · exact ⟨hdeclared.first, hdeclared.second⟩
  · exact ⟨hdeclared.first, hdeclared.second⟩

/-- Crossed derivations from paired keys yield one secret. -/
theorem Paired.secrets_eq (h : Paired K A m) {z z' : Secret} (h1 : A.secret1 o.replies m = .ok z)
    (h2 : A.secret2 o.replies m = .ok z') : z = z' := by
  have hcomm := K.comm _ _ _ _ h.first h.second
  simp only [Application.secret1, Outcomes.replies] at h1
  simp only [Application.secret2, Outcomes.replies] at h2
  cases hd1 : o.derive1 with
  | error code => simp [hd1, Except.map] at h1
  | ok u =>
    cases hd2 : o.derive2 with
    | error code => simp [hd2, Except.map] at h2
    | ok u' =>
      simp only [hd1, hd2, Except.map, Except.ok.injEq] at h1 h2
      rcases A.crossed with ⟨hk1, hk2⟩ | ⟨hk1, hk2⟩
      · rw [hk1] at h1
        rw [hk2] at h2
        exact h1.symm.trans (hcomm.trans h2)
      · rw [hk1] at h1
        rw [hk2] at h2
        exact h1.symm.trans (hcomm.symm.trans h2)

end Invariant

theorem exists_ok {ε α : Type} {x : Except ε α} (h : x.isOk = true) : ∃ a, x = .ok a := by
  cases x with
  | error e => simp [Except.isOk, Except.toBool] at h
  | ok a => exact ⟨a, rfl⟩

/-- Only the RELIC application resets its keys. -/
theorem keys_of_ne_relic {lib : Library} (hlib : lib ≠ .relic) (r : Replies Priv Pub Secret)
    (m : Memory Priv Pub Secret) : lib.keys r m = lib.application.generated r m := by
  cases lib with
  | relic => exact False.elim (hlib rfl)
  | microEcc => rfl
  | cryptocell => rfl
  | atecc608a => rfl

section Rounds
variable {K : KeyAgreement Priv Pub Secret} [DecidableEq Secret]

/-- The rounds of a run with these outcomes, by their number. -/
def agreementRound (lib : Library) (energy : Bool) (o : Nat → Outcomes K) (i : Nat) :
    EcdhApp Priv Pub Secret Unit :=
  lib.application.iteration (.measured energy) (o i).replies

variable {lib : Library} {energy : Bool} {o : Nat → Outcomes K} {ins ins' : List Bool}
variable {m m' : Memory Priv Pub Secret} {i j : Nat}

theorem agreementRound_state (h : ((agreementRound lib energy o i).exec ins m).value = some ()) :
    ((agreementRound lib energy o i).exec ins m).state =
      lib.application.derived (o i).replies (lib.keys (o i).replies m) := by
  have hdoes : Does (.puts "SUCCESS") (agreementRound lib energy o i) m () _ _ :=
    does_verdict lib (.inl rfl)
  rcases hdoes ins with ⟨_, hstate, _⟩ | ⟨hnone, _⟩
  · exact hstate
  · simp [h] at hnone

/-- Once both generations of a round have succeeded, every later round starts on
paired keys. -/
theorem paired_of_roundStarts (hlib : lib ≠ .relic)
    {p q : {pair : Priv × Pub // K.Generated pair.1 pair.2}} (h1 : (o j).gen1 = .ok p)
    (h2 : (o j).gen2 = .ok q) (hji : j < i)
    (hstarts : RoundStarts (agreementRound lib energy o) ins m i ins' m') :
    Paired K lib.application m' := by
  induction i generalizing ins' m' with
  | zero => omega
  | succ i ih =>
    obtain ⟨ins₀, m₀, hprev, hvalue, _, hstate⟩ := roundStarts_succ hstarts
    rw [agreementRound_state hvalue, keys_of_ne_relic hlib] at hstate
    subst hstate
    apply Paired.derived
    by_cases hij : j = i
    · subst j
      exact .of_generated h1 h2
    · exact (ih (by omega) hprev).generated

/-- In memory that is paired before the derivations, no ERROR is printed. -/
theorem error_notMem_round (hpaired : Paired K lib.application (lib.keys (o i).replies m)) :
    .puts "ERROR" ∉ ((agreementRound lib energy o i).exec ins m).trace := by
  intro hmem
  have hdoes : Does (.puts "ERROR") (agreementRound lib energy o i) m () _ _ :=
    does_verdict lib (.inr rfl)
  rcases hdoes ins with ⟨_, _, htrace⟩ | ⟨_, hquiet⟩
  · have hverdict : .puts "ERROR" ∈ lib.events (o i).replies m := by
      rw [← htrace]
      exact List.mem_filter.mpr ⟨hmem, rfl⟩
    obtain ⟨z, z', hz, hz', heq⟩ := (verdict_mem_events (.inr rfl)).mp hverdict
    have hsame : z = z' := hpaired.secrets_eq hz hz'
    simp [hsame] at heq
  · exact hquiet hmem

/-- Paired keys with two successful derivations give the verdict SUCCESS. -/
theorem success_of_paired (hpaired : Paired K lib.application (lib.keys (o i).replies m))
    (h1 : (o i).derive1 = .ok ()) (h2 : (o i).derive2 = .ok ()) :
    .puts "SUCCESS" ∈ lib.events (o i).replies m := by
  obtain ⟨z, hz⟩ : ∃ z,
      lib.application.secret1 (o i).replies (lib.keys (o i).replies m) = .ok z :=
    ⟨_, by simp only [Application.secret1, Outcomes.replies, h1]; rfl⟩
  obtain ⟨z', hz'⟩ : ∃ z,
      lib.application.secret2 (o i).replies (lib.keys (o i).replies m) = .ok z :=
    ⟨_, by simp only [Application.secret2, Outcomes.replies, h2]; rfl⟩
  have hsame : z = z' := hpaired.secrets_eq hz hz'
  exact (verdict_mem_events (.inl rfl)).mpr ⟨z, z', hz, hz', by simp [hsame]⟩

/-- A round that comes to its second derivation on paired keys prints SUCCESS: the pin is not
read any more behind the call. -/
theorem success_mem_round (hpaired : Paired K lib.application (lib.keys (o i).replies m))
    (h1 : (o i).derive1 = .ok ()) (h2 : (o i).derive2 = .ok ())
    (hcalled : .call lib.application.deriveCall2 true ∈
      ((agreementRound lib energy o i).exec ins m).trace) :
    .puts "SUCCESS" ∈ ((agreementRound lib energy o i).exec ins m).trace := by
  have hdoes : Does (.call lib.application.deriveCall2 true) (agreementRound lib energy o i) m ()
    _ _ := does_derivation lib _ _ _ _
  rcases hdoes ins with ⟨_, _, htrace⟩ | ⟨_, hquiet⟩
  · have hverdict := success_of_paired hpaired h1 h2
    rw [← htrace] at hverdict
    exact (List.mem_filter.mp hverdict).1
  · exact False.elim (hquiet hcalled)

/-- The three applications that keep their keys never print ERROR from a round on
in which both generations succeed, and RELIC prints SUCCESS in every round in
which all four calls are made and succeed. -/
theorem rounds_agree (energy : Bool) (o : Nat → Outcomes K) (ins : List Bool)
    (m : Memory Priv Pub Secret) :
    (∀ lib : Library, lib ≠ .relic → ∀ j i, j ≤ i → (o j).gen1.isOk = true →
      (o j).gen2.isOk = true → ∀ ins' m',
        RoundStarts (agreementRound lib energy o) ins m i ins' m' →
        .puts "ERROR" ∉ ((agreementRound lib energy o i).exec ins' m').trace) ∧
    ∀ i, (o i).gen1.isOk = true → (o i).gen2.isOk = true → (o i).derive1.isOk = true →
      (o i).derive2.isOk = true → ∀ ins' m',
        RoundStarts (agreementRound .relic energy o) ins m i ins' m' →
        .call Relic.application.deriveCall2 true ∈
          ((agreementRound .relic energy o i).exec ins' m').trace →
        .puts "SUCCESS" ∈ ((agreementRound .relic energy o i).exec ins' m').trace := by
  constructor
  · intro lib hlib j i hji hok1 hok2 ins' m' hstarts
    obtain ⟨p, h1⟩ := exists_ok hok1
    obtain ⟨q, h2⟩ := exists_ok hok2
    apply error_notMem_round
    rw [keys_of_ne_relic hlib]
    by_cases hij : j = i
    · subst j
      exact .of_generated h1 h2
    · exact (paired_of_roundStarts hlib h1 h2 (by omega) hstarts).generated
  · intro i hgen1 hgen2 hderive1 hderive2 ins' m' _ hcalled
    obtain ⟨p, h1⟩ := exists_ok hgen1
    obtain ⟨q, h2⟩ := exists_ok hgen2
    obtain ⟨_, hd1⟩ := exists_ok hderive1
    obtain ⟨_, hd2⟩ := exists_ok hderive2
    exact success_mem_round (.of_generated h1 h2) hd1 hd2 hcalled

end Rounds

section Example

/-- Exponentiation with base 2: a private key `a` has the public key `2 ^ a`. -/
def powers : KeyAgreement Nat Nat Nat where
  Generated a A := A = 2 ^ a
  dh a B := B ^ a
  comm := by
    rintro a _ b _ rfl rfl
    rw [← Nat.pow_mul, ← Nat.pow_mul, Nat.mul_comm]

/-- The second round regenerates the first pair only. -/
def regeneratesFirst (i : Nat) : Outcomes powers where
  gen1 := .ok ⟨(i + 3, 2 ^ (i + 3)), rfl⟩
  gen2 := if i = 0 then .ok ⟨(5, 2 ^ 5), rfl⟩ else .error 1
  derive1 := .ok ()
  derive2 := .ok ()
  blankA := (0, 0)
  blankB := (0, 0)
  locals _ := 0

def zeroMemory : Memory Nat Nat Nat := ⟨fun _ => 0, fun _ => 0, fun _ => 0⟩

/-- Secrets of pairs of different age agree: the second round prints no ERROR. -/
theorem rounds_agree_regeneratesFirst :
    .puts "ERROR" ∉ ((agreementRound .cryptocell false regeneratesFirst 1).exec []
        ((forRange 1 (agreementRound .cryptocell false regeneratesFirst)).exec []
          zeroMemory).state).trace ∧
      .puts "SUCCESS" ∈
        ((agreementRound .relic false regeneratesFirst 0).exec [] zeroMemory).trace := by
  obtain ⟨hnoError, hsuccess⟩ := rounds_agree false regeneratesFirst [] zeroMemory
  constructor
  · exact hnoError .cryptocell (by decide) 0 1 (by decide) rfl rfl [] _ ⟨rfl, rfl, rfl⟩
  · exact hsuccess 0 rfl rfl rfl rfl [] zeroMemory ⟨rfl, rfl, rfl⟩ (by decide)

end Example

end Ecdh
