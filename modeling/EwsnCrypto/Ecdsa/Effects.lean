import EwsnCrypto.Ecdsa.Model

/-!
# What one ECDSA iteration does

The four `_sign_verify` functions are seen here as one sequence: hash where the
library does not, sign, verify, print. They differ in the calls, in whether a
failed signature ends the function, and in what counts as a valid signature.
The theorems connect this view to each function of the source.
-/

open InputProgram Trigger EccSteps

namespace Ecdsa

variable {Priv Pub Sig : Type} {energy : Bool}

/-- The memory after `_gen_keypair`. -/
def generated (r : Replies Priv Pub Sig) (m : Memory Priv Pub Sig) : Memory Priv Pub Sig :=
  match r.gen with
  | .ok pair => m.setPair pair
  | .error _ => m

namespace Library
variable (lib : Library) (r : Replies Priv Pub Sig) (msg : Message)

def hashOf : Option (Call Priv Pub Sig) :=
  match lib with
  | .microEcc => some (.sha256 msg.toList messageSize)
  | .cryptocell => none
  | .atecc608a => some (.atcabHwSha2 msg.toList messageSize)
  | .relic => some (.mdMapSh256 msg.toList messageSize)

def signOf (m : Memory Priv Pub Sig) : Call Priv Pub Sig :=
  match lib with
  | .microEcc => .uECCSign .userPrivKey1 m.priv m.hash.toList digestSize
  | .cryptocell => .crysEcdsaSign .userPrivKey m.priv .sha256 msg.toList messageSize m.sigSize
  | .atecc608a => .atcabSign (.slot Atecc608a.keyId) m.priv msg.toList
  | .relic => .cpEcdsaSig m.hash.toList digestSize 1 .keyA m.priv

def verifyOf (m : Memory Priv Pub Sig) : Call Priv Pub Sig :=
  match lib with
  | .microEcc => .uECCVerify .userPubKey1 m.pub m.hash.toList digestSize m.signature
  | .cryptocell =>
    .crysEcdsaVerify .userPubKey m.pub .sha256 m.signature m.sigSize msg.toList messageSize
  | .atecc608a => .atcabVerifyExtern msg.toList m.signature .userPubKey m.pub
  | .relic => .cpEcdsaVer m.signature m.hash.toList digestSize 1 .keyA m.pub

/-- The signing call as the program of the application makes it. -/
def signStep : EcdsaApp Priv Pub Sig (Except Nat (Sig × Nat)) :=
  match lib with
  | .microEcc => MicroEcc.sign r
  | .cryptocell => Cryptocell.sign r msg
  | .atecc608a => Atecc608a.sign r msg
  | .relic => Relic.sig r 1

/-- RELIC's program ignores the status of the signing call. -/
def signChecked : Bool := lib ≠ .relic

def prepareEvents : List (Event (Call Priv Pub Sig)) :=
  match lib with
  | .relic => [.call .bnNew true, .call .bnNew true]
  | _ => []

def signFailed (code : Nat) : Event (Call Priv Pub Sig) :=
  match lib with
  | .microEcc => .puts "ERROR generating shared secret 1"
  | .cryptocell => .printf "CRYS_ECDSA_Sign failed with 0x%x \n" code
  | .atecc608a => .printf " Signing failed with 0x%x \n" code
  | .relic => .puts "INVALID"

/-- The line printed after the verification. -/
def verdict (result : Except Nat Unit) (isVerified : Bool) : Event (Call Priv Pub Sig) :=
  match lib, result with
  | .microEcc, .error _ => .puts "INVALID"
  | .cryptocell, .error code => .printf "CRYS_ECDSA_Verify failed with 0x%x \n" code
  | .atecc608a, .error code => .printf " Verifying failed with 0x%x \n" code
  | .relic, .error _ => .puts "INVALID"
  | .atecc608a, .ok _ => .puts (if isVerified then "VALID" else "INVALID")
  | _, .ok _ => .puts "VALID"

/-- A call as it shows in the trace. -/
def around (c : Call Priv Pub Sig) (ok : Bool) : List (Event (Call Priv Pub Sig)) :=
  if lib.application.usesCell then
    [.call .cryptocellEnable true, .call c ok, .call .cryptocellDisable true]
  else [.call c ok]

/-- The memory after the hash call. -/
def hashed (m : Memory Priv Pub Sig) : Memory Priv Pub Sig :=
  match lib.hashOf msg with
  | none => m
  | some c =>
    match r.hash c with
    | .ok digest => { m with hash := digest }
    | .error _ => m

/-- The memory after the signing call. -/
def signed (m : Memory Priv Pub Sig) : Memory Priv Pub Sig :=
  match r.sign (lib.signOf msg m) with
  | .error _ => m
  | .ok sig =>
    match lib with
    | .cryptocell => { m with signature := sig.1, sigSize := sig.2 }
    | _ => { m with signature := sig.1 }

def hashEvents : List (Event (Call Priv Pub Sig)) :=
  match lib.hashOf msg with
  | none => []
  | some c => [.call c (r.hash c).isOk]

/-- From the signing call on. -/
def signEvents (m : Memory Priv Pub Sig) : List (Event (Call Priv Pub Sig)) :=
  match r.sign (lib.signOf msg m), lib.signChecked with
  | .error code, true => lib.around (lib.signOf msg m) false ++ [lib.signFailed code]
  | result, _ =>
    let c := lib.verifyOf msg (lib.signed r msg m)
    lib.around (lib.signOf msg m) result.isOk ++
      (lib.around c (r.verify c).isOk ++ [lib.verdict (r.verify c) (r.isVerified c)])

def verifyEvents (m : Memory Priv Pub Sig) : List (Event (Call Priv Pub Sig)) :=
  lib.prepareEvents ++ (lib.hashEvents r msg ++ lib.signEvents r msg (lib.hashed r msg m))

def genEvents : List (Event (Call Priv Pub Sig)) :=
  match r.gen with
  | .ok _ => lib.around (.genKeyPair lib.application.priv lib.application.pub) true ++ []
  | .error code => lib.around (.genKeyPair lib.application.priv lib.application.pub) false ++
      [lib.application.genFailed.event code]

def prologueEvents : List (Event (Call Priv Pub Sig)) :=
  match lib with
  | .microEcc => [.call .uECCSecp256r1 true, .leave .initCurve]
  | .cryptocell => [.call .getEcDomain true]
  | .atecc608a => []
  | .relic => [.call .epParamSet true, .call (.initMem .keyA .keyA) true]

/-- What an iteration does to the keys before it generates new ones. -/
def reset (m : Memory Priv Pub Sig) : Memory Priv Pub Sig :=
  match lib with
  | .relic => m.setPair r.blank
  | _ => m

/-- The memory in which `_sign_verify` makes its first call: the keys are those of the
iteration or older, the buffers hold what their declarations leave. -/
def keyed (m : Memory Priv Pub Sig) : Memory Priv Pub Sig :=
  (generated r (lib.reset r m)).setLocals r.locals

/-- The memory in which an iteration ends. -/
def finished (m : Memory Priv Pub Sig) : Memory Priv Pub Sig :=
  lib.signed r msg (lib.hashed r msg (lib.keyed r m))

/-- Whether the signing call of an iteration succeeds. -/
def signs (m : Memory Priv Pub Sig) : Bool :=
  (r.sign (lib.signOf msg (lib.hashed r msg (lib.keyed r m)))).isOk

/-- The memory in which iteration `i` of a run from `m` starts. -/
def memoryBefore (replies : Nat → Replies Priv Pub Sig) (m : Memory Priv Pub Sig) :
    Nat → Memory Priv Pub Sig
  | 0 => m
  | i + 1 => lib.finished (replies i) msg (memoryBefore replies m i)

/-- The visible events of a finished iteration. -/
def events (m : Memory Priv Pub Sig) : List (Event (Call Priv Pub Sig)) :=
  lib.prologueEvents ++ (lib.genEvents r ++ [.leave .genKeypair] ++
    (lib.verifyEvents r msg (lib.keyed r m) ++ [.leave .signVerify]))

end Library

section Effects
variable {e : Event (Call Priv Pub Sig)} {r : Replies Priv Pub Sig} {msg : Message}
variable {m m' : Memory Priv Pub Sig} {tr : List (Event (Call Priv Pub Sig))}

theorem does_step {α β : Type} {p : EcdsaApp Priv Pub Sig α} {f : α → EcdsaApp Priv Pub Sig β}
    {a : α} {c : β} {m'' : Memory Priv Pub Sig} {tr' : List (Event (Call Priv Pub Sig))}
    (he : visible e = true) (hp : Atomic p m a m' tr) (hquiet : e ∉ tr)
    (hf : Does e (f a) m' c m'' tr') :
    Does e (measured (.measured energy) p >>= f) m c m'' (tr ++ tr') :=
  (does_measured he hp).bind he hquiet hf

theorem does_declareLocals {α : Type} {p : EcdsaApp Priv Pub Sig α} {a : α}
    (he : visible e = true) (hp : Does e p (m.setLocals r.locals) a m' tr) :
    Does e (declareLocals r >>= fun _ => p) m a m' tr :=
  (atomic_act _).does.bind he List.not_mem_nil hp

/-- A call of an application, with the CryptoCell around it or not. -/
theorem atomic_call (lib : Library) {α : Type} {p : EcdsaApp Priv Pub Sig α} {a : α}
    {c : Call Priv Pub Sig} {ok : Bool} (hp : Atomic p m a m' [.call c ok]) :
    Atomic (lib.application.call p) m a m' (lib.around c ok) := by
  simp only [Application.call, Library.around]
  split
  · exact hp.enclosed _ _
  · exact hp

theorem puts_notMem_around {lib : Library} {c : Call Priv Pub Sig} {ok : Bool} {line : String} :
    .puts line ∉ lib.around c ok := by
  simp only [Library.around]
  split <;> simp

theorem signEvents_error {lib : Library} {code : Nat} (hchecked : lib.signChecked = true)
    (h : r.sign (lib.signOf msg m) = .error code) :
    lib.signEvents r msg m = lib.around (lib.signOf msg m) false ++ [lib.signFailed code] := by
  simp [Library.signEvents, h, hchecked]

theorem signEvents_ok {lib : Library} {sig : Sig × Nat} (h : r.sign (lib.signOf msg m) = .ok sig) :
    lib.signEvents r msg m = lib.around (lib.signOf msg m) true ++
      (lib.around (lib.verifyOf msg (lib.signed r msg m))
        (r.verify (lib.verifyOf msg (lib.signed r msg m))).isOk ++
        [lib.verdict (r.verify (lib.verifyOf msg (lib.signed r msg m)))
          (r.isVerified (lib.verifyOf msg (lib.signed r msg m)))]) := by
  simp [Library.signEvents, h, Except.isOk, Except.toBool]

theorem atomic_hashCall {lib : Library} {c : Call Priv Pub Sig} (hc : lib.hashOf msg = some c) :
    Atomic (hashCall r c) m (r.hash c) (lib.hashed r msg m) (lib.hashEvents r msg) := by
  simp only [Library.hashed, Library.hashEvents, hc]
  cases h : r.hash c with
  | ok digest => exact atomic_libCall_ok h
  | error code => exact atomic_libCall_error h

theorem atomic_signStep (lib : Library) : Atomic (lib.signStep r msg) m
    (r.sign (lib.signOf msg m)) (lib.signed r msg m)
    [.call (lib.signOf msg m) (r.sign (lib.signOf msg m)).isOk] := by
  simp only [Library.signed]
  cases h : r.sign (lib.signOf msg m) with
  | ok sig => cases lib <;> exact atomic_libCall_ok h
  | error code => cases lib <;> exact atomic_libCall_error h

theorem atomic_verifyCall (c : Memory Priv Pub Sig → Call Priv Pub Sig) :
    Atomic (verifyCall r c) m (r.verify (c m)) m [.call (c m) (r.verify (c m)).isOk] := by
  cases h : r.verify (c m) with
  | ok u => exact atomic_libCall_ok h
  | error code => exact atomic_libCall_error h

theorem signEvents_unchecked {lib : Library} (hchecked : lib.signChecked = false) :
    lib.signEvents r msg m = lib.around (lib.signOf msg m) (r.sign (lib.signOf msg m)).isOk ++
      (lib.around (lib.verifyOf msg (lib.signed r msg m))
        (r.verify (lib.verifyOf msg (lib.signed r msg m))).isOk ++
        [lib.verdict (r.verify (lib.verifyOf msg (lib.signed r msg m)))
          (r.isVerified (lib.verifyOf msg (lib.signed r msg m)))]) := by
  simp [Library.signEvents, hchecked]

/-- The verification and the line printed after it. -/
theorem does_verify (lib : Library) {c : Memory Priv Pub Sig → Call Priv Pub Sig}
    {f : Except Nat Unit → EcdsaApp Priv Pub Sig Unit}
    {v : Except Nat Unit → Event (Call Priv Pub Sig)}
    (he : visible e = true) (hf : ∀ result, Atomic (f result) m () m [v result]) :
    Does e (measured (.measured energy) (lib.application.call (verifyCall r c)) >>= f) m () m
      (lib.around (c m) (r.verify (c m)).isOk ++ [v (r.verify (c m))]) :=
  (does_measured he (atomic_call lib (atomic_verifyCall c))).bind_atomic (hf _)

theorem microEcc_does :
    Does (.puts "VALID") (MicroEcc.signVerify (.measured energy) r msg) m ()
      (Library.microEcc.signed r msg (Library.microEcc.hashed r msg (m.setLocals r.locals)))
      (Library.microEcc.verifyEvents r msg (m.setLocals r.locals)) := by
  refine does_declareLocals rfl ?_
  generalize m.setLocals r.locals = m
  have hevents : Library.microEcc.verifyEvents r msg m = Library.microEcc.hashEvents r msg ++
    Library.microEcc.signEvents r msg (Library.microEcc.hashed r msg m) := rfl
  rw [hevents]
  refine does_step rfl (atomic_hashCall rfl) (by simp [Library.hashEvents, Library.hashOf]) ?_
  cases hsign : r.sign (Library.microEcc.signOf msg (Library.microEcc.hashed r msg m)) with
  | error code =>
    rw [signEvents_error rfl hsign]
    simp only [Library.signed, hsign]
    exact does_step rfl (atomic_call .microEcc (atomic_libCall_error hsign)) puts_notMem_around
      (atomic_emit _).does
  | ok sig =>
    rw [signEvents_ok hsign]
    simp only [Library.signed, hsign]
    refine does_step rfl (atomic_call .microEcc (atomic_libCall_ok hsign)) puts_notMem_around ?_
    refine does_verify .microEcc (v := fun result => Library.microEcc.verdict result _) rfl ?_
    rintro (code | u) <;> exact atomic_emit _

theorem cryptocell_does :
    Does (.puts "VALID") (Cryptocell.signVerify (.measured energy) r msg) m ()
      (Library.cryptocell.signed r msg (Library.cryptocell.hashed r msg (m.setLocals r.locals)))
      (Library.cryptocell.verifyEvents r msg (m.setLocals r.locals)) := by
  refine does_declareLocals rfl ?_
  generalize m.setLocals r.locals = m
  have hevents : Library.cryptocell.verifyEvents r msg m =
    Library.cryptocell.signEvents r msg (Library.cryptocell.hashed r msg m) := rfl
  rw [hevents]
  cases hsign : r.sign (Library.cryptocell.signOf msg (Library.cryptocell.hashed r msg m)) with
  | error code =>
    rw [signEvents_error rfl hsign]
    simp only [Library.signed, hsign]
    exact does_step rfl (atomic_call .cryptocell (atomic_libCall_error hsign)) puts_notMem_around
      (atomic_emit _).does
  | ok sig =>
    rw [signEvents_ok hsign]
    simp only [Library.signed, hsign]
    refine does_step rfl (atomic_call .cryptocell (atomic_libCall_ok hsign)) puts_notMem_around ?_
    refine does_verify .cryptocell (v := fun result => Library.cryptocell.verdict result _) rfl ?_
    rintro (code | u) <;> exact atomic_emit _

theorem atomic_verifyExtern (c : Memory Priv Pub Sig → Call Priv Pub Sig) :
    Atomic (libCall c (fun m => (r.verify (c m)).map fun _ => r.isVerified (c m)) fun _ m => m) m
      ((r.verify (c m)).map fun _ => r.isVerified (c m)) m
      [.call (c m) (r.verify (c m)).isOk] := by
  cases h : r.verify (c m) with
  | ok u => exact atomic_libCall_ok (by rw [h]; rfl)
  | error code => exact atomic_libCall_error (by rw [h]; rfl)

theorem atecc608a_does :
    Does (.puts "VALID") (Atecc608a.signVerify (.measured energy) r msg) m ()
      (Library.atecc608a.signed r msg (Library.atecc608a.hashed r msg (m.setLocals r.locals)))
      (Library.atecc608a.verifyEvents r msg (m.setLocals r.locals)) := by
  refine does_declareLocals rfl ?_
  generalize m.setLocals r.locals = m
  have hevents : Library.atecc608a.verifyEvents r msg m = Library.atecc608a.hashEvents r msg ++
    Library.atecc608a.signEvents r msg (Library.atecc608a.hashed r msg m) := rfl
  rw [hevents]
  refine does_step rfl (atomic_hashCall rfl) (by simp [Library.hashEvents, Library.hashOf]) ?_
  cases hsign : r.sign (Library.atecc608a.signOf msg (Library.atecc608a.hashed r msg m)) with
  | error code =>
    rw [signEvents_error rfl hsign]
    simp only [Library.signed, hsign]
    exact does_step rfl (atomic_call .atecc608a (atomic_libCall_error hsign)) puts_notMem_around
      (atomic_emit _).does
  | ok sig =>
    rw [signEvents_ok hsign]
    simp only [Library.signed, hsign]
    refine does_step rfl (atomic_call .atecc608a (atomic_libCall_ok hsign)) puts_notMem_around ?_
    refine (does_measured rfl (atomic_call .atecc608a (atomic_verifyExtern _))).bind_atomic ?_
    simp only [Library.verifyOf]
    cases r.verify (.atcabVerifyExtern msg.toList sig.1 .userPubKey
        (Library.atecc608a.hashed r msg m).pub) with
    | error code => exact atomic_emit _
    | ok u => exact atomic_emit _

theorem relic_does :
    Does (.puts "VALID") (Relic.signVerify (.measured energy) r msg) m ()
      (Library.relic.signed r msg (Library.relic.hashed r msg (m.setLocals r.locals)))
      (Library.relic.verifyEvents r msg (m.setLocals r.locals)) := by
  refine does_declareLocals rfl ?_
  generalize m.setLocals r.locals = m
  have hevents : Library.relic.verifyEvents r msg m =
      [.call .bnNew true] ++ ([.call .bnNew true] ++ (Library.relic.hashEvents r msg ++
        Library.relic.signEvents r msg (Library.relic.hashed r msg m))) := rfl
  rw [hevents, signEvents_unchecked rfl]
  refine (atomic_emit _).does.bind rfl (by simp) ((atomic_emit _).does.bind rfl (by simp) ?_)
  refine does_step rfl (atomic_hashCall rfl) (by simp [Library.hashEvents, Library.hashOf]) ?_
  refine does_step rfl (atomic_call .relic (atomic_signStep .relic)) puts_notMem_around ?_
  refine does_verify .relic (v := fun result => Library.relic.verdict result _) rfl ?_
  rintro (code | u) <;> exact atomic_emit _

theorem does_signVerify (lib : Library) :
    Does (.puts "VALID") (lib.application.signVerify (.measured energy) r msg) m ()
      (lib.signed r msg (lib.hashed r msg (m.setLocals r.locals)))
      (lib.verifyEvents r msg (m.setLocals r.locals)) := by
  cases lib with
  | microEcc => exact microEcc_does
  | cryptocell => exact cryptocell_does
  | atecc608a => exact atecc608a_does
  | relic => exact relic_does

theorem atomic_gen_ok (lib : Library) (priv : PrivKey) (pub : PubKey) (pair : Priv × Pub) :
    Atomic (lib.application.call (genKeyPair priv pub (.ok pair))) m (.ok pair) (m.setPair pair)
      (lib.around (.genKeyPair priv pub) true) := atomic_call lib (atomic_libCall_ok rfl)

theorem atomic_gen_error (lib : Library) (priv : PrivKey) (pub : PubKey) (code : Nat) :
    Atomic (lib.application.call (genKeyPair priv pub (.error code))) m (.error code) m
      (lib.around (.genKeyPair priv pub) false) := atomic_call lib (atomic_libCall_error rfl)

theorem atomic_print (report : Report) (code : Nat) :
    Atomic (report.print code : EcdsaApp Priv Pub Sig Unit) m () m [report.event code] := by
  simp only [Report.print, Report.event]
  split <;> exact atomic_emit _

theorem does_genKeypair (lib : Library) (he : visible e = true) :
    Does e (lib.application.genKeypair (.measured energy) r) m () (generated r m)
      (lib.genEvents r ++ [.leave .genKeypair]) := by
  have hmeasured : lib.application.isMeasured (.measured energy) = true := by cases lib <;> rfl
  apply Does.func
  rw [hmeasured, if_pos rfl]
  simp only [Library.genEvents, generated]
  cases r.gen with
  | ok pair => exact (does_measured he (atomic_gen_ok lib _ _ pair)).bind_atomic (atomic_pure ())
  | error code =>
    exact (does_measured he (atomic_gen_error lib _ _ code)).bind_atomic (atomic_print _ _)

theorem does_prologue (lib : Library) (he : visible e = true) :
    Does e (lib.application.prologue (.measured energy) r) m () (lib.reset r m)
      lib.prologueEvents := by
  cases lib with
  | microEcc => exact (does_measured he (atomic_emit _)).func
  | cryptocell => exact does_measured he (atomic_emit _)
  | atecc608a => exact does_measured he (atomic_pure ())
  | relic =>
    have hinit : Atomic (Relic.initMem r.blank) m () (m.setPair r.blank)
        [.call .epParamSet true, .call (.initMem .keyA .keyA) true] := fun _ => ⟨rfl, rfl, rfl⟩
    exact does_measured he hinit

theorem valid_notMem_genEvents {lib : Library} : .puts "VALID" ∉ lib.genEvents r := by
  have hreport (code : Nat) : .puts "VALID" ≠
      (lib.application.genFailed.event code : Event (Call Priv Pub Sig)) := by
    simp only [Report.event]
    split
    · simp
    · simpa using (lib.application.genFailed.no_verdict.2.2).symm
  simp only [Library.genEvents]
  split <;> simp [puts_notMem_around, hreport]

/-- One round of the loop, from the memory that the rounds before it leave. -/
theorem does_iteration (lib : Library) :
    Does (.puts "VALID") (lib.application.iteration (.measured energy) r msg) m ()
      (lib.finished r msg m) (lib.events r msg m) := by
  have hquiet : .puts "VALID" ∉ (lib.prologueEvents : List (Event (Call Priv Pub Sig))) := by
    cases lib <;> simp [Library.prologueEvents]
  have hquiet' : .puts "VALID" ∉ lib.genEvents r ++ [.leave .genKeypair] := by
    simpa using valid_notMem_genEvents
  have hgen : Does (.puts "VALID") (lib.application.genKeypair (.measured energy) r)
      (lib.reset r m) () (generated r (lib.reset r m)) (lib.genEvents r ++ [.leave .genKeypair]) :=
    does_genKeypair lib rfl
  have hverify : Does (.puts "VALID")
      (func .signVerify (lib.application.signVerify (.measured energy) r msg))
      (generated r (lib.reset r m)) () (lib.finished r msg m)
      (lib.verifyEvents r msg (lib.keyed r m) ++ [.leave .signVerify]) := (does_signVerify lib).func
  exact (does_prologue lib rfl).bind rfl hquiet (hgen.bind rfl hquiet' hverify)

end Effects

end Ecdsa
