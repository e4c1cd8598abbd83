import EwsnCrypto.Ecdh.Effects

/-!
# What SUCCESS says about the ECDH iteration that prints it

The applications check every derivation, but a failed key generation ends
`_gen_keypair` only, and `main` goes on with the keys that are in memory. An
iteration is sound when a SUCCESS means that all its calls succeeded on keys it
generated itself. It is, except where the derivations agree on older keys.
-/

open InputProgram Trigger EccSteps

namespace Ecdh

/-- The calls that an iteration relies on. -/
def Call.isCrypto : Call → Bool
  | .genKeyPair _ _ | .sharedSecret _ _ _ => true
  | _ => false

/-- A printed SUCCESS means that every key generation and derivation succeeded,
and that the keys of each derivation were generated in the same trace. -/
def Sound (trace : List (Event Call)) : Prop :=
  .puts "SUCCESS" ∈ trace →
    (∀ c ok, .call c ok ∈ trace → c.isCrypto = true → ok = true) ∧
    ∀ secret priv pub ok, .call (.sharedSecret secret priv pub) ok ∈ trace →
      (∃ pub', .call (.genKeyPair priv pub') true ∈ trace) ∧
      ∃ priv', .call (.genKeyPair priv' pub) true ∈ trace

variable {Priv Pub Secret : Type} {energy : Bool}

/-- Both derivations succeed with one secret only where both generations succeeded. -/
def Renewed (lib : Library) (r : Replies Priv Pub Secret) (m : Memory Priv Pub Secret) : Prop :=
  (∃ z, lib.application.secret1 r (lib.keys r m) = .ok z ∧
    lib.application.secret2 r (lib.keys r m) = .ok z) → ∃ p q, r.gen1 = .ok p ∧ r.gen2 = .ok q

/-- Soundness is about visible events. -/
theorem sound_filter {trace : List (Event Call)} : Sound (trace.filter visible) ↔ Sound trace := by
  have hcall (c : Call) (ok : Bool) : .call c ok ∈ trace.filter visible ↔ .call c ok ∈ trace := by
    simp [List.mem_filter]
  have hputs (line : String) : .puts line ∈ trace.filter visible ↔ .puts line ∈ trace := by
    simp [List.mem_filter]
  simp only [Sound, hcall, hputs]

section Events
variable {A : Application} {r : Replies Priv Pub Secret} {m : Memory Priv Pub Secret}

theorem call_mem_around {c c' : Call} {ok ok' : Bool} (hc : c'.isCrypto = true) :
    .call c' ok' ∈ A.around c ok ↔ c' = c ∧ ok' = ok := by
  have hcell : c' ≠ .cryptocellEnable ∧ c' ≠ .cryptocellDisable := by
    constructor <;> rintro rfl <;> simp [Call.isCrypto] at hc
  simp only [Application.around]
  split <;> simp [hcell.1, hcell.2]

theorem call_mem_report {c : Call} {ok : Bool} {report : Report} {code : Nat} :
    .call c ok ≠ (report.event code : Event Call) := by
  simp only [Report.event]
  split <;> simp

/-- A crypto call among the generation events says how that generation went. -/
theorem call_mem_genEvents {c : Call} {ok : Bool} (hc : c.isCrypto = true) :
    .call c ok ∈ A.genEvents r ↔
      (c = .genKeyPair A.priv1 A.pub1 ∧ ok = r.gen1.isOk) ∨
      (c = .genKeyPair A.priv2 A.pub2 ∧ r.gen1.isOk = true ∧ ok = r.gen2.isOk) := by
  simp only [Application.genEvents]
  cases r.gen1 with
  | error code => simp [call_mem_around hc, call_mem_report, Except.isOk, Except.toBool]
  | ok p =>
    cases r.gen2 <;> simp [call_mem_around hc, call_mem_report, Except.isOk, Except.toBool]

variable [DecidableEq Secret]

/-- The crypto calls of an iteration are those of its two functions. -/
theorem call_mem_events {lib : Library} {c : Call} {ok : Bool} (hc : c.isCrypto = true) :
    .call c ok ∈ lib.events r m ↔ .call c ok ∈ lib.application.genEvents r ∨
      .call c ok ∈ lib.application.deriveEvents r (lib.keys r m) := by
  have hprologue : .call c ok ∉ lib.prologueEvents := by
    cases lib <;> cases c <;> simp_all [Library.prologueEvents, Call.isCrypto]
  simp [Library.events, hprologue]

/-- SUCCESS is printed where both derivations yield one secret. -/
theorem success_mem_events {lib : Library} :
    .puts "SUCCESS" ∈ lib.events r m ↔
      ∃ z, lib.application.secret1 r (lib.keys r m) = .ok z ∧
        lib.application.secret2 r (lib.keys r m) = .ok z := by
  rw [verdict_mem_events (.inl rfl)]
  constructor
  · rintro ⟨z, z', h1, h2, heq⟩
    by_cases hne : z ≠ z'
    · simp [hne] at heq
    · obtain rfl : z = z' := not_not.mp hne
      exact ⟨z, h1, h2⟩
  · rintro ⟨z, h1, h2⟩
    exact ⟨z, z, h1, h2, by simp⟩

theorem call_mem_deriveEvents {c : Call} {ok : Bool} {z z' : Secret} (hc : c.isCrypto = true)
    (h1 : A.secret1 r m = .ok z) (h2 : A.secret2 r m = .ok z') :
    .call c ok ∈ A.deriveEvents r m ↔ (c = A.deriveCall1 ∨ c = A.deriveCall2) ∧ ok = true := by
  simp [Application.deriveEvents, h1, h2, call_mem_around hc, or_and_right]

/-- The keys of a derivation are keys of the two pairs. -/
theorem derive_keys {priv : PrivKey} {pub : PubKey}
    (h : (priv, pub) = A.derive1 ∨ (priv, pub) = A.derive2) :
    (priv = A.priv1 ∨ priv = A.priv2) ∧ (pub = A.pub1 ∨ pub = A.pub2) := by
  rcases A.crossed with ⟨h1, h2⟩ | ⟨h1, h2⟩ <;> rw [h1, h2] at h <;> rcases h with h | h <;>
    obtain ⟨rfl, rfl⟩ := Prod.mk.inj h <;> simp

theorem genKeyPair1_mem (lib : Library) : .call (.genKeyPair lib.application.priv1
    lib.application.pub1) r.gen1.isOk ∈ lib.events r m :=
  (call_mem_events rfl).mpr (.inl ((call_mem_genEvents rfl).mpr (.inl ⟨rfl, rfl⟩)))

theorem genKeyPair2_mem (lib : Library) (h : r.gen1.isOk = true) :
    .call (.genKeyPair lib.application.priv2 lib.application.pub2) r.gen2.isOk ∈ lib.events r m :=
  (call_mem_events rfl).mpr (.inl ((call_mem_genEvents rfl).mpr (.inr ⟨rfl, h, rfl⟩)))

theorem renewed_of_sound (lib : Library) (hsound : Sound (lib.events r m)) : Renewed lib r m := by
  intro hagree
  obtain ⟨hall, _⟩ := hsound (success_mem_events.mpr hagree)
  have hok1 := hall _ _ (genKeyPair1_mem lib) rfl
  have hok2 := hall _ _ (genKeyPair2_mem lib hok1) rfl
  cases h1 : r.gen1 with
  | error code => simp [h1, Except.isOk, Except.toBool] at hok1
  | ok p =>
    cases h2 : r.gen2 with
    | error code => simp [h2, Except.isOk, Except.toBool] at hok2
    | ok q => exact ⟨p, q, rfl, rfl⟩

/-- Behind renewed keys every crypto call has succeeded, and the derivations use
what was generated. -/
theorem sound_of_renewed (lib : Library) (hrenewed : Renewed lib r m) :
    Sound (lib.events r m) := by
  intro hsuccess
  have hagree := success_mem_events.mp hsuccess
  obtain ⟨p, q, hp, hq⟩ := hrenewed hagree
  obtain ⟨z, h1, h2⟩ := hagree
  have hok1 : r.gen1.isOk = true := by rw [hp]; rfl
  have hok2 : r.gen2.isOk = true := by rw [hq]; rfl
  have hfresh1 := genKeyPair1_mem (r := r) (m := m) lib
  have hfresh2 := genKeyPair2_mem (r := r) (m := m) lib hok1
  rw [hok1] at hfresh1
  rw [hok2] at hfresh2
  refine ⟨fun c ok hmem hc => ?_, fun secret priv pub ok hmem => ?_⟩
  · rcases (call_mem_events hc).mp hmem with hgen | hderive
    · rcases (call_mem_genEvents hc).mp hgen with ⟨_, hok⟩ | ⟨_, _, hok⟩
      · exact hok.trans hok1
      · exact hok.trans hok2
    · exact ((call_mem_deriveEvents hc h1 h2).mp hderive).2
  · have hc : (Call.sharedSecret secret priv pub).isCrypto = true := rfl
    have hkeys : (priv, pub) = lib.application.derive1 ∨ (priv, pub) = lib.application.derive2 := by
      rcases (call_mem_events hc).mp hmem with hgen | hderive
      · rcases (call_mem_genEvents hc).mp hgen with ⟨hne, _⟩ | ⟨hne, _⟩ <;> simp at hne
      · rcases ((call_mem_deriveEvents hc h1 h2).mp hderive).1 with heq | heq
        · exact .inl (by simp_all [Application.deriveCall1])
        · exact .inr (by simp_all [Application.deriveCall2])
    obtain ⟨hpriv, hpub⟩ := derive_keys hkeys
    constructor
    · rcases hpriv with rfl | rfl
      · exact ⟨_, hfresh1⟩
      · exact ⟨_, hfresh2⟩
    · rcases hpub with rfl | rfl
      · exact ⟨_, hfresh1⟩
      · exact ⟨_, hfresh2⟩

theorem sound_events_iff (lib : Library) : Sound (lib.events r m) ↔ Renewed lib r m :=
  ⟨renewed_of_sound lib, sound_of_renewed lib⟩

/-- An iteration is sound iff, when it finishes, agreement came from renewed keys. -/
theorem sound_iteration_iff (lib : Library) (ins : List Bool) :
    Sound ((lib.application.iteration (.measured energy) r).exec ins m).trace ↔
      (((lib.application.iteration (.measured energy) r).exec ins m).value = some () →
        Renewed lib r m) := by
  have hdoes : Does (.puts "SUCCESS") (lib.application.iteration (.measured energy) r) m () _ _ :=
    does_verdict lib (.inl rfl)
  rcases hdoes ins with ⟨hvalue, _, htrace⟩ | ⟨hvalue, hsilent⟩
  · rw [← sound_filter, htrace, sound_events_iff, hvalue]
    simp
  · rw [hvalue]
    exact ⟨fun _ hnone => by simp at hnone, fun _ hmem => False.elim (hsilent hmem)⟩

end Events

end Ecdh
