import EwsnCrypto.Ecdh.Model

/-!
# What one ECDH iteration does

Memory and visible events of an iteration of a measured build, as functions of
the library's answers and of the memory it starts from. An iteration that waits
for the sync pin has not printed a verdict yet.
-/

open InputProgram Trigger EccSteps

namespace Ecdh

variable {Priv Pub Secret : Type} {energy : Bool}

@[simp] theorem setPair_priv (m : Memory Priv Pub Secret) (priv : PrivKey) (pub : PubKey)
    (pair : Priv × Pub) :
    (m.setPair priv pub pair).priv = Function.update m.priv priv pair.1 := rfl

@[simp] theorem setPair_pub (m : Memory Priv Pub Secret) (priv : PrivKey) (pub : PubKey)
    (pair : Priv × Pub) :
    (m.setPair priv pub pair).pub = Function.update m.pub pub pair.2 := rfl

@[simp] theorem declared_priv (A : Application) (r : Replies Priv Pub Secret)
    (m : Memory Priv Pub Secret) : (A.declared r m).priv = m.priv := by
  simp only [Application.declared]
  split <;> rfl

@[simp] theorem declared_pub (A : Application) (r : Replies Priv Pub Secret)
    (m : Memory Priv Pub Secret) : (A.declared r m).pub = m.pub := by
  simp only [Application.declared]
  split <;> rfl

namespace Application
variable (A : Application)

/-- A call as it shows in the trace. -/
def around (c : Call) (ok : Bool) : List (Event Call) :=
  if A.usesCell then [.call .cryptocellEnable true, .call c ok, .call .cryptocellDisable true]
  else [.call c ok]

def genEvents (r : Replies Priv Pub Secret) : List (Event Call) :=
  match r.gen1, r.gen2 with
  | .error code, _ => A.around (.genKeyPair A.priv1 A.pub1) false ++ [A.genFailed1.event code]
  | .ok _, .error code =>
    A.around (.genKeyPair A.priv1 A.pub1) true ++
      (A.around (.genKeyPair A.priv2 A.pub2) false ++ [A.genFailed2.event code])
  | .ok _, .ok _ =>
    A.around (.genKeyPair A.priv1 A.pub1) true ++
      (A.around (.genKeyPair A.priv2 A.pub2) true ++ [])

/-- The memory after `_gen_keypair`. -/
def generated (r : Replies Priv Pub Secret) (m : Memory Priv Pub Secret) :
    Memory Priv Pub Secret :=
  match r.gen1, r.gen2 with
  | .error _, _ => m
  | .ok p, .error _ => m.setPair A.priv1 A.pub1 p
  | .ok p, .ok q => (m.setPair A.priv1 A.pub1 p).setPair A.priv2 A.pub2 q

/-- The answers to the two derivations on the keys in memory. -/
def secret1 (r : Replies Priv Pub Secret) (m : Memory Priv Pub Secret) : Except Nat Secret :=
  r.derive1 (m.priv A.derive1.1) (m.pub A.derive1.2)

def secret2 (r : Replies Priv Pub Secret) (m : Memory Priv Pub Secret) : Except Nat Secret :=
  r.derive2 (m.priv A.derive2.1) (m.pub A.derive2.2)

def deriveCall1 : Call := .sharedSecret .sharedSecret1 A.derive1.1 A.derive1.2

def deriveCall2 : Call := .sharedSecret .sharedSecret2 A.derive2.1 A.derive2.2

def deriveEvents [DecidableEq Secret] (r : Replies Priv Pub Secret) (m : Memory Priv Pub Secret) :
    List (Event Call) :=
  match A.secret1 r m, A.secret2 r m with
  | .error code, _ => A.around A.deriveCall1 false ++ [A.deriveFailed1.event code]
  | .ok _, .error code =>
    A.around A.deriveCall1 true ++ (A.around A.deriveCall2 false ++ [A.deriveFailed2.event code])
  | .ok z, .ok z' =>
    A.around A.deriveCall1 true ++
      (A.around A.deriveCall2 true ++ [.puts (if z ≠ z' then "ERROR" else "SUCCESS")])

/-- The memory after `_derive_shared_secret`. -/
def derived (r : Replies Priv Pub Secret) (m : Memory Priv Pub Secret) : Memory Priv Pub Secret :=
  match A.secret1 r m, A.secret2 r m with
  | .error _, _ => A.declared r m
  | .ok z, .error _ => (A.declared r m).setSecret .sharedSecret1 z
  | .ok z, .ok z' =>
    ((A.declared r m).setSecret .sharedSecret1 z).setSecret .sharedSecret2 z'

end Application

/-- What an iteration does to the keys before it generates new ones. -/
def Library.reset (lib : Library) (r : Replies Priv Pub Secret) (m : Memory Priv Pub Secret) :
    Memory Priv Pub Secret :=
  match lib with
  | .relic => (m.setPair .keyA .keyA r.blankA).setPair .keyB .keyB r.blankB
  | _ => m

def Library.prologueEvents : Library → List (Event Call)
  | .microEcc => [.call .uECCSecp256r1 true, .leave .initCurve]
  | .cryptocell => [.call .getEcDomain true]
  | .atecc608a => []
  | .relic => [.call .epParamSet true, .call (.initMem .keyA .keyA) true,
      .call (.initMem .keyB .keyB) true]

/-- The keys an iteration derives from. -/
def Library.keys (lib : Library) (r : Replies Priv Pub Secret) (m : Memory Priv Pub Secret) :
    Memory Priv Pub Secret := lib.application.generated r (lib.reset r m)

/-- The visible events of a finished iteration. -/
def Library.events [DecidableEq Secret] (lib : Library) (r : Replies Priv Pub Secret)
    (m : Memory Priv Pub Secret) : List (Event Call) :=
  lib.prologueEvents ++ (lib.application.genEvents r ++ [.leave .genKeypair] ++
    (lib.application.deriveEvents r (lib.keys r m) ++ [.leave .deriveSharedSecret]))

section Effects
variable {A : Application} {e : Event Call} {r : Replies Priv Pub Secret}
variable {m : Memory Priv Pub Secret}

theorem atomic_call {α : Type} {p : EcdhApp Priv Pub Secret α} {a : α}
    {m' : Memory Priv Pub Secret} {c : Call} {ok : Bool} (hp : Atomic p m a m' [.call c ok]) :
    Atomic (A.call p) m a m' (A.around c ok) := by
  simp only [Application.call, Application.around]
  split
  · exact hp.enclosed _ _
  · exact hp

theorem atomic_print (report : Report) (code : Nat) :
    Atomic (report.print code : EcdhApp Priv Pub Secret Unit) m () m [report.event code] := by
  simp only [Report.print, Report.event]
  split <;> exact atomic_emit _

theorem atomic_gen_ok (priv : PrivKey) (pub : PubKey) (pair : Priv × Pub) :
    Atomic (A.call (genKeyPair priv pub (.ok pair))) m (.ok pair) (m.setPair priv pub pair)
      (A.around (.genKeyPair priv pub) true) := atomic_call (atomic_libCall_ok rfl)

theorem atomic_gen_error (priv : PrivKey) (pub : PubKey) (code : Nat) :
    Atomic (A.call (genKeyPair priv pub (.error code))) m (.error code) m
      (A.around (.genKeyPair priv pub) false) := atomic_call (atomic_libCall_error rfl)

theorem atomic_secret_ok {secret : SecretBuf} {priv : PrivKey} {pub : PubKey}
    {reply : Priv → Pub → Except Nat Secret} {z : Secret}
    (h : reply (m.priv priv) (m.pub pub) = .ok z) :
    Atomic (A.call (sharedSecret secret priv pub reply)) m (.ok z) (m.setSecret secret z)
      (A.around (.sharedSecret secret priv pub) true) := atomic_call (atomic_libCall_ok h)

theorem atomic_secret_error {secret : SecretBuf} {priv : PrivKey} {pub : PubKey}
    {reply : Priv → Pub → Except Nat Secret} {code : Nat}
    (h : reply (m.priv priv) (m.pub pub) = .error code) :
    Atomic (A.call (sharedSecret secret priv pub reply)) m (.error code) m
      (A.around (.sharedSecret secret priv pub) false) := atomic_call (atomic_libCall_error h)

theorem does_genKeypair (he : visible e = true) :
    Does e (A.genKeypair (.measured energy) r) m () (A.generated r m)
      (A.genEvents r ++ [.leave .genKeypair]) := by
  apply Does.func
  simp only [Application.generated, Application.genEvents]
  cases r.gen1 with
  | error code => exact does_checkedPair_error1 he (atomic_gen_error _ _ _) (atomic_print _ _)
  | ok p =>
    cases r.gen2 with
    | error code =>
      exact does_checkedPair_error2 he (atomic_gen_ok _ _ _) (atomic_gen_error _ _ _)
        (atomic_print _ _)
    | ok q =>
      exact does_checkedPair_ok he (atomic_gen_ok _ _ _) (atomic_gen_ok _ _ _) (atomic_pure ())

theorem does_prologue (lib : Library) (he : visible e = true) :
    Does e (lib.application.prologue (.measured energy) r) m () (lib.reset r m)
      lib.prologueEvents := by
  cases lib with
  | microEcc => exact (does_measured he (atomic_emit _)).func
  | cryptocell => exact does_measured he (atomic_emit _)
  | atecc608a => exact does_measured he (atomic_pure ())
  | relic =>
    have hinit (priv : PrivKey) (pub : PubKey) (blank : Priv × Pub)
        (m : Memory Priv Pub Secret) : Atomic (initMem priv pub blank) m ()
          (m.setPair priv pub blank) [.call (.initMem priv pub) true] := fun _ => ⟨rfl, rfl, rfl⟩
    have hinitA : Atomic (plainCall .epParamSet >>= fun _ => initMem .keyA .keyA r.blankA) m ()
        (m.setPair .keyA .keyA r.blankA)
        ([.call .epParamSet true] ++ [.call (.initMem .keyA .keyA) true]) :=
      (atomic_emit _).bind (hinit _ _ _ m)
    exact (does_measured he hinitA).bind_atomic (hinit _ _ _ _)

theorem puts_notMem_around {c : Call} {ok : Bool} {line : String} :
    .puts line ∉ A.around c ok := by
  simp only [Application.around]
  split <;> simp

theorem report_event_ne {report : Report} {code : Nat} {line : String}
    (hline : line = "SUCCESS" ∨ line = "ERROR") :
    (report.event code : Event Call) ≠ .puts line := by
  simp only [Report.event]
  obtain ⟨hsuccess, herror, _⟩ := report.no_verdict
  split
  · simp
  · rcases hline with rfl | rfl
    · simpa using hsuccess
    · simpa using herror

/-- No verdict is printed before the derivations. -/
theorem verdict_notMem_genEvents {line : String} (hline : line = "SUCCESS" ∨ line = "ERROR") :
    .puts line ∉ A.genEvents r := by
  simp only [Application.genEvents]
  split <;> simp [puts_notMem_around, (report_event_ne hline).symm]

variable [DecidableEq Secret]

theorem atomic_compareSecrets (z z' : Secret) :
    Atomic Application.compareSecrets ((m.setSecret .sharedSecret1 z).setSecret .sharedSecret2 z')
      () ((m.setSecret .sharedSecret1 z).setSecret .sharedSecret2 z')
      [.puts (if z ≠ z' then "ERROR" else "SUCCESS")] := by
  intro ins
  simp [Application.compareSecrets, Memory.setSecret]

theorem does_deriveSharedSecret (he : visible e = true) :
    Does e (A.deriveSharedSecret (.measured energy) r) m () (A.derived r m)
      (A.deriveEvents r m ++ [.leave .deriveSharedSecret]) := by
  refine Does.func ((atomic_act _).does.bind he List.not_mem_nil ?_)
  have hsecret1 : A.secret1 r (A.declared r m) = A.secret1 r m := by simp [Application.secret1]
  have hsecret2 : A.secret2 r (A.declared r m) = A.secret2 r m := by simp [Application.secret2]
  simp only [Application.derived]
  cases h1 : A.secret1 r m with
  | error code =>
    rw [← hsecret1] at h1
    exact does_checkedPair_error1 he (atomic_secret_error h1) (atomic_print _ _)
  | ok z =>
    rw [← hsecret1] at h1
    cases h2 : A.secret2 r m with
    | error code =>
      rw [← hsecret2] at h2
      exact does_checkedPair_error2 he (atomic_secret_ok h1) (atomic_secret_error h2)
        (atomic_print _ _)
    | ok z' =>
      rw [← hsecret2] at h2
      exact does_checkedPair_ok he (atomic_secret_ok h1) (atomic_secret_ok h2)
        (atomic_compareSecrets z z')

/-- An iteration that waits has not come to an event of the derivations. -/
theorem does_iteration (lib : Library) (he : visible e = true) (hprologue : e ∉ lib.prologueEvents)
    (hgen : e ∉ lib.application.genEvents r) (hleave : e ≠ .leave .genKeypair) :
    Does e (lib.application.iteration (.measured energy) r) m ()
      (lib.application.derived r (lib.keys r m)) (lib.events r m) := by
  have hquiet : e ∉ lib.application.genEvents r ++ [.leave .genKeypair] := by
    simpa using ⟨hgen, hleave⟩
  exact (does_prologue lib he).bind he hprologue
    ((does_genKeypair he).bind he hquiet (does_deriveSharedSecret he))

theorem does_verdict (lib : Library) {line : String} (hline : line = "SUCCESS" ∨ line = "ERROR") :
    Does (.puts line) (lib.application.iteration (.measured energy) r) m ()
      (lib.application.derived r (lib.keys r m)) (lib.events r m) := by
  have hquiet : .puts line ∉ lib.prologueEvents := by
    cases lib <;> simp [Library.prologueEvents]
  exact does_iteration lib rfl hquiet (verdict_notMem_genEvents hline) (by simp)

/-- A derivation is called behind the last wait of the iteration. -/
theorem does_derivation (lib : Library) (secret : SecretBuf) (priv : PrivKey) (pub : PubKey)
    (ok : Bool) : Does (.call (.sharedSecret secret priv pub) ok)
      (lib.application.iteration (.measured energy) r) m ()
      (lib.application.derived r (lib.keys r m)) (lib.events r m) := by
  have hreport (report : Report) (code : Nat) :
      .call (.sharedSecret secret priv pub) ok ≠ (report.event code : Event Call) := by
    simp only [Report.event]
    split <;> simp
  have haround (priv' : PrivKey) (pub' : PubKey) (ok' : Bool) :
      .call (.sharedSecret secret priv pub) ok ∉
        lib.application.around (.genKeyPair priv' pub') ok' := by
    simp only [Application.around]
    split <;> simp
  refine does_iteration lib rfl ?_ ?_ (by simp)
  · cases lib <;> simp [Library.prologueEvents]
  · simp only [Application.genEvents]
    split <;> simp [hreport, haround]

theorem verdict_notMem_deriveEvents {line : String} (hline : line = "SUCCESS" ∨ line = "ERROR")
    (hfailed : ∀ z z', A.secret1 r m = .ok z → A.secret2 r m ≠ .ok z') :
    .puts line ∉ A.deriveEvents r m := by
  have hreport (report : Report) (code : Nat) : .puts line ≠ (report.event code : Event Call) :=
    (report_event_ne hline).symm
  simp only [Application.deriveEvents]
  cases h1 : A.secret1 r m with
  | error code => simp [hreport, puts_notMem_around]
  | ok z =>
    cases h2 : A.secret2 r m with
    | error code => simp [hreport, puts_notMem_around]
    | ok z' => exact False.elim (hfailed z z' h1 h2)

/-- The verdict of an iteration compares two derived secrets. -/
theorem verdict_mem_events {lib : Library} {line : String}
    (hline : line = "SUCCESS" ∨ line = "ERROR") :
    .puts line ∈ lib.events r m ↔ ∃ z z', lib.application.secret1 r (lib.keys r m) = .ok z ∧
      lib.application.secret2 r (lib.keys r m) = .ok z' ∧
      line = if z ≠ z' then "ERROR" else "SUCCESS" := by
  have hprologue : .puts line ∉ lib.prologueEvents := by
    cases lib <;> simp [Library.prologueEvents]
  have hgen : .puts line ∉ lib.application.genEvents r := verdict_notMem_genEvents hline
  have hderive : .puts line ∈ lib.events r m ↔
      .puts line ∈ lib.application.deriveEvents r (lib.keys r m) := by
    simp [Library.events, hprologue, hgen]
  rw [hderive]
  constructor
  · intro hmem
    by_cases hok : ∃ z z', lib.application.secret1 r (lib.keys r m) = .ok z ∧
        lib.application.secret2 r (lib.keys r m) = .ok z'
    · obtain ⟨z, z', h1, h2⟩ := hok
      refine ⟨z, z', h1, h2, ?_⟩
      simpa [Application.deriveEvents, h1, h2, puts_notMem_around] using hmem
    · refine False.elim (verdict_notMem_deriveEvents hline (fun z z' h1 h2 => ?_) hmem)
      exact hok ⟨z, z', h1, h2⟩
  · rintro ⟨z, z', h1, h2, heq⟩
    simp [Application.deriveEvents, h1, h2, ← heq]

end Effects

end Ecdh
