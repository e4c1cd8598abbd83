import EwsnCrypto.Ecdsa.Effects

/-!
# What VALID says about the ECDSA iteration that prints it

The verification is checked everywhere, but a failed key generation does not
reach `main`, and the status of the hash call is dropped, as is that of RELIC's
signing call. An iteration is sound when a VALID means that all its calls
succeeded on keys it generated itself. The condition for that is exact.
-/

open InputProgram Trigger EccSteps

namespace Ecdsa

variable {Priv Pub Sig : Type} {energy : Bool}

/-- The private key a call signs with. -/
def Call.signsWith : Call Priv Pub Sig → Option PrivKey
  | .uECCSign priv _ _ _ => some priv
  | .atcabSign priv _ _ => some priv
  | .cpEcdsaSig _ _ _ priv _ => some priv
  | .crysEcdsaSign priv _ _ _ _ _ => some priv
  | _ => none

/-- The public key a call verifies with. -/
def Call.verifiesWith : Call Priv Pub Sig → Option PubKey
  | .uECCVerify pub _ _ _ _ => some pub
  | .atcabVerifyExtern _ _ pub _ => some pub
  | .cpEcdsaVer _ _ _ _ pub _ => some pub
  | .crysEcdsaVerify pub _ _ _ _ _ _ => some pub
  | _ => none

def Call.isHash : Call Priv Pub Sig → Bool
  | .sha256 _ _ | .atcabHwSha2 _ _ | .mdMapSh256 _ _ => true
  | _ => false

def Call.isGen : Call Priv Pub Sig → Bool
  | .genKeyPair _ _ => true
  | _ => false

/-- The calls that an iteration relies on. -/
def Call.isCrypto (c : Call Priv Pub Sig) : Bool :=
  c.isGen || c.isHash || c.signsWith.isSome || c.verifiesWith.isSome

/-- A printed VALID means that every key generation, hash, signing and
verification call succeeded, and that the keys of each were generated in the
same trace. -/
def Sound (trace : List (Event (Call Priv Pub Sig))) : Prop :=
  .puts "VALID" ∈ trace →
    (∀ c ok, .call c ok ∈ trace → c.isCrypto = true → ok = true) ∧
    ∀ c ok, .call c ok ∈ trace →
      (∀ priv, c.signsWith = some priv → ∃ pub, .call (.genKeyPair priv pub) true ∈ trace) ∧
      ∀ pub, c.verifiesWith = some pub → ∃ priv, .call (.genKeyPair priv pub) true ∈ trace

namespace Library
variable (lib : Library) (r : Replies Priv Pub Sig) (msg : Message) (m : Memory Priv Pub Sig)

/-- The verification succeeds on what the calls before it have left, and so does
the signing call where its status is checked. -/
def Accepts : Prop :=
  (lib.signChecked = true →
    (r.sign (lib.signOf msg (lib.hashed r msg (lib.keyed r m)))).isOk = true) ∧
  let c := lib.verifyOf msg (lib.signed r msg (lib.hashed r msg (lib.keyed r m)))
  (r.verify c).isOk = true ∧ (lib = .atecc608a → r.isVerified c = true)

/-- The calls whose failure the iteration does not notice have succeeded. -/
def UncheckedSucceed : Prop :=
  r.gen.isOk = true ∧ (∀ c, lib.hashOf msg = some c → (r.hash c).isOk = true) ∧
    (r.sign (lib.signOf msg (lib.hashed r msg (lib.keyed r m)))).isOk = true

end Library

/-- What is accepted was computed by successful calls. -/
def Renewed (lib : Library) (r : Replies Priv Pub Sig) (msg : Message)
    (m : Memory Priv Pub Sig) : Prop := lib.Accepts r msg m → lib.UncheckedSucceed r msg m

theorem sound_filter {trace : List (Event (Call Priv Pub Sig))} :
    Sound (trace.filter visible) ↔ Sound trace := by
  have hcall (c : Call Priv Pub Sig) (ok : Bool) :
      .call c ok ∈ trace.filter visible ↔ .call c ok ∈ trace := by simp [List.mem_filter]
  have hputs (line : String) : .puts line ∈ trace.filter visible ↔ .puts line ∈ trace := by
    simp [List.mem_filter]
  simp only [Sound, hcall, hputs]

section Calls
variable (lib : Library) (msg : Message) (m : Memory Priv Pub Sig)

theorem hashOf_isHash {c : Call Priv Pub Sig} (h : lib.hashOf msg = some c) :
    c.isHash = true ∧ c.signsWith = none ∧ c.verifiesWith = none := by
  cases lib <;> simp only [Library.hashOf, Option.some.injEq, reduceCtorEq] at h <;> subst h <;>
    exact ⟨rfl, rfl, rfl⟩

theorem signOf_signsWith : (lib.signOf msg m).signsWith = some lib.application.priv ∧
    (lib.signOf msg m).verifiesWith = none := by
  cases lib <;> exact ⟨rfl, rfl⟩

theorem verifyOf_verifiesWith : (lib.verifyOf msg m).verifiesWith = some lib.application.pub ∧
    (lib.verifyOf msg m).signsWith = none := by
  cases lib <;> exact ⟨rfl, rfl⟩

end Calls

section Events
variable {lib : Library} {r : Replies Priv Pub Sig} {msg : Message} {m : Memory Priv Pub Sig}

theorem call_mem_around {c c' : Call Priv Pub Sig} {ok ok' : Bool} (hc : c'.isCrypto = true) :
    .call c' ok' ∈ lib.around c ok ↔ c' = c ∧ ok' = ok := by
  have hcell : c' ≠ .cryptocellEnable ∧ c' ≠ .cryptocellDisable := by
    constructor <;> rintro rfl <;> exact Bool.false_ne_true hc
  simp only [Library.around]
  split <;> simp [hcell.1, hcell.2]

theorem call_mem_report {c : Call Priv Pub Sig} {ok : Bool} {report : Report} {code : Nat} :
    .call c ok ≠ (report.event code : Event (Call Priv Pub Sig)) := by
  simp only [Report.event]
  split <;> simp

theorem call_ne_verdict {c : Call Priv Pub Sig} {ok : Bool} {result : Except Nat Unit}
    {isVerified : Bool} : .call c ok ≠ lib.verdict result isVerified := by
  cases lib <;> cases result <;> simp [Library.verdict]

/-- A VALID is printed after a successful verification, and by the ATECC608A
application only for a set flag. -/
theorem verdict_eq_valid {result : Except Nat Unit} {isVerified : Bool} :
    (.puts "VALID" : Event (Call Priv Pub Sig)) = lib.verdict result isVerified ↔
      result.isOk = true ∧ (lib = .atecc608a → isVerified = true) := by
  cases lib <;> cases result <;> cases isVerified <;>
    simp [Library.verdict, Except.isOk, Except.toBool]

theorem genEvents_calls {c : Call Priv Pub Sig} {ok : Bool} (hc : c.isCrypto = true) :
    .call c ok ∈ lib.genEvents r ↔
      c = .genKeyPair lib.application.priv lib.application.pub ∧ ok = r.gen.isOk := by
  simp only [Library.genEvents]
  cases r.gen <;> simp [call_mem_around hc, call_mem_report, Except.isOk, Except.toBool]

theorem hashEvents_calls {c : Call Priv Pub Sig} {ok : Bool} :
    .call c ok ∈ lib.hashEvents r msg ↔ lib.hashOf msg = some c ∧ ok = (r.hash c).isOk := by
  simp only [Library.hashEvents]
  cases h : (lib.hashOf msg : Option (Call Priv Pub Sig)) with
  | none => simp
  | some c' =>
    simp only [List.mem_singleton, Event.call.injEq, Option.some.injEq]
    constructor <;> rintro ⟨rfl, rfl⟩ <;> exact ⟨rfl, rfl⟩

/-- Where the verification is reached, the two calls and the line show. -/
theorem signEvents_reached
    (h : lib.signChecked = true → (r.sign (lib.signOf msg m)).isOk = true) :
    lib.signEvents r msg m = lib.around (lib.signOf msg m) (r.sign (lib.signOf msg m)).isOk ++
      (lib.around (lib.verifyOf msg (lib.signed r msg m))
        (r.verify (lib.verifyOf msg (lib.signed r msg m))).isOk ++
        [lib.verdict (r.verify (lib.verifyOf msg (lib.signed r msg m)))
          (r.isVerified (lib.verifyOf msg (lib.signed r msg m)))]) := by
  cases hsign : r.sign (lib.signOf msg m) with
  | ok sig => exact signEvents_ok hsign
  | error code =>
    cases hchecked : lib.signChecked with
    | true => simp [hsign, hchecked, Except.isOk, Except.toBool] at h
    | false => rw [signEvents_unchecked hchecked, hsign]

theorem valid_mem_signEvents : .puts "VALID" ∈ lib.signEvents r msg m ↔
    (lib.signChecked = true → (r.sign (lib.signOf msg m)).isOk = true) ∧
      (.puts "VALID" : Event (Call Priv Pub Sig)) =
        lib.verdict (r.verify (lib.verifyOf msg (lib.signed r msg m)))
          (r.isVerified (lib.verifyOf msg (lib.signed r msg m))) := by
  by_cases hreached : lib.signChecked = true → (r.sign (lib.signOf msg m)).isOk = true
  · rw [signEvents_reached hreached]
    simp only [List.mem_append, puts_notMem_around, false_or, List.mem_singleton]
    exact ⟨fun hline => ⟨hreached, hline⟩, fun h => h.2⟩
  · have hchecked : lib.signChecked = true := by
      by_contra hunchecked
      exact hreached fun hc => False.elim (hunchecked hc)
    have hfailed : .puts "VALID" ∉ lib.signEvents r msg m := by
      cases hsign : r.sign (lib.signOf msg m) with
      | ok sig => exact False.elim (hreached fun _ => by rw [hsign]; rfl)
      | error code =>
        have hline : (.puts "VALID" : Event (Call Priv Pub Sig)) ≠ lib.signFailed code := by
          cases lib <;> simp [Library.signFailed]
        rw [signEvents_error hchecked hsign]
        simp [puts_notMem_around, hline]
    exact ⟨fun hmem => False.elim (hfailed hmem), fun h => False.elim (hreached h.1)⟩

/-- VALID is printed in the accepting iterations. -/
theorem valid_mem_events : .puts "VALID" ∈ lib.events r msg m ↔ lib.Accepts r msg m := by
  have hprologue : .puts "VALID" ∉ (lib.prologueEvents : List (Event (Call Priv Pub Sig))) := by
    cases lib <;> simp [Library.prologueEvents]
  have hprepare : .puts "VALID" ∉ (lib.prepareEvents : List (Event (Call Priv Pub Sig))) := by
    cases lib <;> simp [Library.prepareEvents]
  have hhash : .puts "VALID" ∉ lib.hashEvents r msg := by
    simp only [Library.hashEvents]
    split <;> simp
  have hgen : .puts "VALID" ∉ lib.genEvents r := valid_notMem_genEvents
  simp only [Library.events, Library.verifyEvents, List.mem_append, hprologue, hprepare, hhash,
    hgen, List.mem_singleton, reduceCtorEq, false_or, or_false, valid_mem_signEvents,
    verdict_eq_valid, Library.Accepts]

theorem call_mem_events {c : Call Priv Pub Sig} {ok : Bool} (hc : c.isCrypto = true) :
    .call c ok ∈ lib.events r msg m ↔ .call c ok ∈ lib.genEvents r ∨
      .call c ok ∈ lib.hashEvents r msg ∨
      .call c ok ∈ lib.signEvents r msg (lib.hashed r msg (lib.keyed r m)) := by
  have hprologue : .call c ok ∉ (lib.prologueEvents : List (Event (Call Priv Pub Sig))) := by
    cases lib <;> cases c <;> simp_all [Library.prologueEvents, Call.isCrypto, Call.isGen,
      Call.isHash, Call.signsWith, Call.verifiesWith]
  have hprepare : .call c ok ∉ (lib.prepareEvents : List (Event (Call Priv Pub Sig))) := by
    cases lib <;> cases c <;> simp_all [Library.prepareEvents, Call.isCrypto, Call.isGen,
      Call.isHash, Call.signsWith, Call.verifiesWith]
  simp [Library.events, Library.verifyEvents, hprologue, hprepare]

theorem signEvents_calls {c : Call Priv Pub Sig} {ok : Bool} (hc : c.isCrypto = true)
    (h : lib.signChecked = true → (r.sign (lib.signOf msg m)).isOk = true) :
    .call c ok ∈ lib.signEvents r msg m ↔
      (c = lib.signOf msg m ∧ ok = (r.sign (lib.signOf msg m)).isOk) ∨
      (c = lib.verifyOf msg (lib.signed r msg m) ∧
        ok = (r.verify (lib.verifyOf msg (lib.signed r msg m))).isOk) := by
  rw [signEvents_reached h]
  simp [call_mem_around hc, call_ne_verdict]

theorem isCrypto_hashOf {c : Call Priv Pub Sig} (h : lib.hashOf msg = some c) :
    c.isCrypto = true := by
  simp [Call.isCrypto, (hashOf_isHash lib msg h).1]

theorem isCrypto_signOf : (lib.signOf msg m).isCrypto = true := by
  simp [Call.isCrypto, (signOf_signsWith lib msg m).1]

theorem genKeyPair_mem : .call (.genKeyPair lib.application.priv lib.application.pub)
    r.gen.isOk ∈ lib.events r msg m :=
  (call_mem_events rfl).mpr (.inl ((genEvents_calls rfl).mpr ⟨rfl, rfl⟩))

theorem renewed_of_sound (hsound : Sound (lib.events r msg m)) : Renewed lib r msg m := by
  intro haccepts
  obtain ⟨hall, _⟩ := hsound (valid_mem_events.mpr haccepts)
  refine ⟨hall _ _ genKeyPair_mem rfl, fun c hc => ?_, ?_⟩
  · exact hall c _ ((call_mem_events (isCrypto_hashOf hc)).mpr
      (.inr (.inl (hashEvents_calls.mpr ⟨hc, rfl⟩)))) (isCrypto_hashOf hc)
  · exact hall _ _ ((call_mem_events isCrypto_signOf).mpr
      (.inr (.inr ((signEvents_calls isCrypto_signOf haccepts.1).mpr (.inl ⟨rfl, rfl⟩)))))
      isCrypto_signOf

/-- Where a crypto call of an accepted iteration comes from. If what goes unchecked
has succeeded, so has the call. -/
theorem crypto_call_cases (haccepts : lib.Accepts r msg m)
    (hsucceed : lib.UncheckedSucceed r msg m) {c : Call Priv Pub Sig} {ok : Bool}
    (hc : c.isCrypto = true) (hmem : .call c ok ∈ lib.events r msg m) :
    ok = true ∧ (c = .genKeyPair lib.application.priv lib.application.pub ∨
      lib.hashOf msg = some c ∨ c = lib.signOf msg (lib.hashed r msg (lib.keyed r m)) ∨
      c = lib.verifyOf msg (lib.signed r msg (lib.hashed r msg (lib.keyed r m)))) := by
  obtain ⟨hgenOk, hhashOk, hsignOk⟩ := hsucceed
  rcases (call_mem_events hc).mp hmem with hmem | hmem | hmem
  · obtain ⟨heq, hok⟩ := (genEvents_calls hc).mp hmem
    exact ⟨hok.trans hgenOk, .inl heq⟩
  · obtain ⟨heq, hok⟩ := hashEvents_calls.mp hmem
    exact ⟨hok.trans (hhashOk c heq), .inr (.inl heq)⟩
  · rcases (signEvents_calls hc haccepts.1).mp hmem with ⟨heq, hok⟩ | ⟨heq, hok⟩
    · exact ⟨hok.trans hsignOk, .inr (.inr (.inl heq))⟩
    · exact ⟨hok.trans haccepts.2.1, .inr (.inr (.inr heq))⟩

theorem sound_of_renewed (hrenewed : Renewed lib r msg m) : Sound (lib.events r msg m) := by
  intro hvalid
  have haccepts := valid_mem_events.mp hvalid
  have hsucceed := hrenewed haccepts
  have hfresh : .call (.genKeyPair lib.application.priv lib.application.pub) true ∈
      lib.events r msg m := by
    rw [← hsucceed.1]
    exact genKeyPair_mem
  refine ⟨fun c ok hmem hc => (crypto_call_cases haccepts hsucceed hc hmem).1,
    fun c ok hmem => ⟨?_, ?_⟩⟩
  · intro priv hpriv
    have hc : c.isCrypto = true := by simp [Call.isCrypto, hpriv]
    rcases (crypto_call_cases haccepts hsucceed hc hmem).2 with rfl | heq | rfl | rfl
    · simp [Call.signsWith] at hpriv
    · simp [(hashOf_isHash lib msg heq).2.1] at hpriv
    · obtain rfl := Option.some.inj ((signOf_signsWith lib msg _).1.symm.trans hpriv)
      exact ⟨_, hfresh⟩
    · simp [(verifyOf_verifiesWith lib msg _).2] at hpriv
  · intro pub hpub
    have hc : c.isCrypto = true := by simp [Call.isCrypto, hpub]
    rcases (crypto_call_cases haccepts hsucceed hc hmem).2 with rfl | heq | rfl | rfl
    · simp [Call.verifiesWith] at hpub
    · simp [(hashOf_isHash lib msg heq).2.2] at hpub
    · simp [(signOf_signsWith lib msg _).2] at hpub
    · obtain rfl := Option.some.inj ((verifyOf_verifiesWith lib msg _).1.symm.trans hpub)
      exact ⟨_, hfresh⟩

theorem sound_events_iff : Sound (lib.events r msg m) ↔ Renewed lib r msg m :=
  ⟨renewed_of_sound, sound_of_renewed⟩

/-- An iteration is sound iff, when it finishes, what it accepts was renewed. -/
theorem sound_iteration_iff (ins : List Bool) :
    Sound ((lib.application.iteration (.measured energy) r msg).exec ins m).trace ↔
      (((lib.application.iteration (.measured energy) r msg).exec ins m).value = some () →
        Renewed lib r msg m) := by
  have hdoes : Does (.puts "VALID") (lib.application.iteration (.measured energy) r msg) m () _ _ :=
    does_iteration lib
  rcases hdoes ins with ⟨hvalue, _, htrace⟩ | ⟨hvalue, hsilent⟩
  · rw [← sound_filter, htrace, sound_events_iff, hvalue]
    simp
  · rw [hvalue]
    exact ⟨fun _ hnone => by simp at hnone, fun _ hmem => False.elim (hsilent hmem)⟩

end Events

end Ecdsa
