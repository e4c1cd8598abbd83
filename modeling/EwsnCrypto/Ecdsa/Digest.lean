import EwsnCrypto.Ecdsa.Progress

/-!
# Which bytes are signed

The value a signing or verification call authenticates depends on the library:
some read 32 bytes of the buffer they are given, RELIC hashes unless its flag
says that the input is a digest, the CryptoCell hashes. The hash function is
arbitrary. Three applications authenticate the digest of the whole message; the
ATECC608A application passes the message buffer itself.
-/

open InputProgram Trigger EccSteps

namespace Ecdsa

variable {Priv Pub Sig : Type}

section Values
variable (sha : List UInt8 → Digest)

/-- The bytes that a call signs or verifies against. -/
def authenticated : Call Priv Pub Sig → Option (List UInt8)
  | .uECCSign _ _ hash _ => some (hash.take digestSize)
  | .uECCVerify _ _ hash _ _ => some (hash.take digestSize)
  | .atcabSign _ _ msg => some (msg.take digestSize)
  | .atcabVerifyExtern msg _ _ _ => some (msg.take digestSize)
  | .cpEcdsaSig msg len hash _ _ =>
    some (if hash ≠ 0 then msg.take len else (sha (msg.take len)).toList)
  | .cpEcdsaVer _ msg len hash _ _ =>
    some (if hash ≠ 0 then msg.take len else (sha (msg.take len)).toList)
  | .crysEcdsaSign _ _ .sha256 msg len _ => some (sha (msg.take len)).toList
  | .crysEcdsaVerify _ _ .sha256 _ _ msg len => some (sha (msg.take len)).toList
  | _ => none

def eventValue : Event (Call Priv Pub Sig) → Option (List UInt8)
  | .call c _ => authenticated sha c
  | _ => none

/-- The values authenticated in a run, in order. -/
def authenticatedValues (trace : List (Event (Call Priv Pub Sig))) : List (List UInt8) :=
  trace.filterMap (eventValue sha)

/-- Every authenticated value is the digest of the whole message. -/
def AuthenticatesDigest (msg : Message) (trace : List (Event (Call Priv Pub Sig))) : Prop :=
  ∀ v ∈ authenticatedValues sha trace, v = (sha msg.toList).toList

instance (msg : Message) (trace : List (Event (Call Priv Pub Sig))) :
    Decidable (AuthenticatesDigest sha msg trace) := inferInstanceAs (Decidable (∀ v ∈ _, _))

/-- The same library, whose hash calls compute `sha`. -/
def Replies.hashing (r : Replies Priv Pub Sig) : Replies Priv Pub Sig :=
  { r with hash := fun c => match c with
    | .sha256 data len => .ok (sha (data.take len))
    | .atcabHwSha2 data len => .ok (sha (data.take len))
    | .mdMapSh256 data len => .ok (sha (data.take len))
    | c => r.hash c }

/-- The event authenticates nothing but the digest. -/
def SignsDigest (msg : Message) (e : Event (Call Priv Pub Sig)) : Prop :=
  ∀ v, eventValue sha e = some v → v = (sha msg.toList).toList

end Values

variable {sha : List UInt8 → Digest} {msg : Message} {energy : Bool} {m : Memory Priv Pub Sig}
variable {r : Replies Priv Pub Sig}

theorem authenticatesDigest_iff {trace : List (Event (Call Priv Pub Sig))} :
    AuthenticatesDigest sha msg trace ↔ ∀ e ∈ trace, SignsDigest sha msg e := by
  simp only [AuthenticatesDigest, authenticatedValues, List.mem_filterMap, SignsDigest]
  constructor
  · intro h e he v hv
    exact h v ⟨e, he, hv⟩
  · rintro h v ⟨e, he, hv⟩
    exact h e he v hv

theorem digest_of_no_value {e : Event (Call Priv Pub Sig)} (he : eventValue sha e = none) :
    SignsDigest sha msg e := by
  intro v hv
  rw [he] at hv
  exact False.elim (Option.some_ne_none v hv.symm)

theorem digest_of_pin (e : Event (Call Priv Pub Sig)) (he : visible e = false) :
    SignsDigest sha msg e := by
  apply digest_of_no_value
  cases e <;> simp_all [eventValue]

theorem message_take : msg.toList.take messageSize = msg.toList :=
  List.take_of_length_le (by simp)

theorem digest_take (d : Digest) : d.toList.take digestSize = d.toList :=
  List.take_of_length_le (by simp)

/-- The declarations of the buffers authenticate nothing. -/
theorem keeps_declareLocals {α : Type} {p : EcdsaApp Priv Pub Sig α}
    {Q : α → Memory Priv Pub Sig → Prop}
    (hp : Keeps (SignsDigest sha msg) p Q (m.setLocals r.locals)) :
    Keeps (SignsDigest sha msg) (declareLocals r >>= fun _ => p) Q m :=
  keeps_bind (keeps_act (fun _ he => False.elim (List.not_mem_nil he)) hp)

/-- A hash call leaves the digest in the hash buffer. -/
theorem keeps_hashCall {c : Call Priv Pub Sig} (hc : authenticated sha c = none)
    (hreply : (r.hashing sha).hash c = .ok (sha msg.toList)) :
    Keeps (SignsDigest sha msg) (hashCall (r.hashing sha) c)
      (fun _ m => m.hash = sha msg.toList) m := by
  apply keeps_libCall
  · exact fun _ => digest_of_no_value hc
  · intro digest hdigest
    rw [hreply] at hdigest
    exact (Except.ok.inj hdigest).symm
  · intro code hcode
    rw [hreply] at hcode
    exact False.elim (by simp at hcode)

/-- A signing call on a state where its value is the digest keeps the hash buffer. -/
theorem keeps_signCall {c : Memory Priv Pub Sig → Call Priv Pub Sig}
    (hc : authenticated sha (c m) = some (sha msg.toList).toList) :
    Keeps (SignsDigest sha msg) (signCall r c) (fun _ m' => m'.hash = m.hash) m := by
  apply keeps_libCall
  · rintro ok v hv
    exact Option.some.inj (hv.symm.trans hc)
  · exact fun _ _ => rfl
  · exact fun _ _ => rfl

theorem keeps_verifyCall {c : Memory Priv Pub Sig → Call Priv Pub Sig}
    (hc : authenticated sha (c m) = some (sha msg.toList).toList) :
    Keeps (SignsDigest sha msg) (verifyCall r c) (fun _ _ => True) m := by
  apply keeps_libCall
  · rintro ok v hv
    exact Option.some.inj (hv.symm.trans hc)
  · exact fun _ _ => trivial
  · exact fun _ _ => trivial

theorem keeps_line {e : Event (Call Priv Pub Sig)} (he : eventValue sha e = none) :
    Keeps (SignsDigest sha msg) (emit e : EcdsaApp Priv Pub Sig Unit) (fun _ _ => True) m :=
  keeps_emit (digest_of_no_value he) trivial

theorem microEcc_keeps : Keeps (SignsDigest sha msg)
    (MicroEcc.signVerify (.measured energy) (r.hashing sha) msg) (fun _ _ => True) m := by
  have hsha : Keeps (SignsDigest sha msg) (MicroEcc.sha256 (r.hashing sha) msg)
      (fun _ m => m.hash = sha msg.toList) (m.setLocals r.locals) :=
    keeps_hashCall rfl (by simp [Replies.hashing, message_take])
  refine keeps_declareLocals (keeps_bind (keeps_measured digest_of_pin (keeps_mono hsha ?_)))
  intro _ m hhash
  have hvalue : some (m.hash.toList.take digestSize) = some (sha msg.toList).toList := by
    rw [hhash, digest_take]
  refine keeps_bind (keeps_measured digest_of_pin (keeps_mono (keeps_signCall hvalue) ?_))
  intro reply m' hkept
  cases reply with
  | error code => exact keeps_line rfl
  | ok sig =>
    have hvalue' : some (m'.hash.toList.take digestSize) = some (sha msg.toList).toList := by
      rw [hkept, hvalue]
    refine keeps_bind (keeps_measured digest_of_pin (keeps_mono (keeps_verifyCall hvalue') ?_))
    intro reply _ _
    cases reply with
    | error code => exact keeps_line rfl
    | ok _ => exact keeps_line rfl

theorem relic_keeps : Keeps (SignsDigest sha msg)
    (Relic.signVerify (.measured energy) (r.hashing sha) msg) (fun _ _ => True) m := by
  have hsha : Keeps (SignsDigest sha msg) (Relic.mdMapSh256 (r.hashing sha) msg)
      (fun _ m => m.hash = sha msg.toList) (m.setLocals r.locals) :=
    keeps_hashCall rfl (by simp [Replies.hashing, message_take])
  refine keeps_declareLocals (keeps_bind (keeps_emit (digest_of_no_value rfl) (keeps_bind
    (keeps_emit (digest_of_no_value rfl) ?_))))
  refine keeps_bind (keeps_measured digest_of_pin (keeps_mono hsha ?_))
  intro _ m hhash
  -- the flag 1 tells the library that the input is already a digest
  have hvalue : some (m.hash.toList.take digestSize) = some (sha msg.toList).toList := by
    rw [hhash, digest_take]
  refine keeps_bind (keeps_measured digest_of_pin (keeps_mono (keeps_signCall hvalue) ?_))
  intro _ m' hkept
  have hvalue' : some (m'.hash.toList.take digestSize) = some (sha msg.toList).toList := by
    rw [hkept, hvalue]
  refine keeps_bind (keeps_measured digest_of_pin (keeps_mono (keeps_verifyCall hvalue') ?_))
  intro reply _ _
  cases reply with
  | error code => exact keeps_line rfl
  | ok _ => exact keeps_line rfl

theorem keeps_withCell {α : Type} {p : EcdsaApp Priv Pub Sig α}
    {Q : α → Memory Priv Pub Sig → Prop} (hp : Keeps (SignsDigest sha msg) p Q m) :
    Keeps (SignsDigest sha msg) (withCell p) Q m :=
  keeps_enclosed (digest_of_no_value rfl) (digest_of_no_value rfl) hp

theorem cryptocell_keeps : Keeps (SignsDigest sha msg)
    (Cryptocell.signVerify (.measured energy) r msg) (fun _ _ => True) m := by
  have hvalue : some (sha (msg.toList.take messageSize)).toList =
      some (sha msg.toList).toList := by rw [message_take]
  have hsign : Keeps (SignsDigest sha msg) (Cryptocell.sign r msg) (fun _ _ => True)
      (m.setLocals r.locals) := by
    apply keeps_libCall
    · rintro ok v hv
      exact Option.some.inj (hv.symm.trans hvalue)
    · exact fun _ _ => trivial
    · exact fun _ _ => trivial
  refine keeps_declareLocals
    (keeps_bind (keeps_measured digest_of_pin (keeps_withCell (keeps_mono hsign ?_))))
  intro reply m' _
  cases reply with
  | error code => exact keeps_line rfl
  | ok sig =>
    refine keeps_bind (keeps_measured digest_of_pin (keeps_withCell
      (keeps_mono (keeps_verifyCall hvalue) ?_)))
    intro reply _ _
    cases reply with
    | error code => exact keeps_line rfl
    | ok _ => exact keeps_line rfl

/-- The message buffer is signed, so its first 32 bytes have to be the digest. -/
theorem atecc608a_keeps (hmsg : msg.toList.take digestSize = (sha msg.toList).toList) :
    Keeps (SignsDigest sha msg)
      (Atecc608a.signVerify (.measured energy) (r.hashing sha) msg) (fun _ _ => True) m := by
  have hsha : Keeps (SignsDigest sha msg) (Atecc608a.hwSha2 (r.hashing sha) msg)
      (fun _ m => m.hash = sha msg.toList) (m.setLocals r.locals) :=
    keeps_hashCall rfl (by simp [Replies.hashing, message_take])
  have hvalue : some (msg.toList.take digestSize) = some (sha msg.toList).toList := by rw [hmsg]
  refine keeps_declareLocals (keeps_bind (keeps_measured digest_of_pin (keeps_mono hsha ?_)))
  intro _ m _
  refine keeps_bind (keeps_measured digest_of_pin (keeps_mono (keeps_signCall hvalue) ?_))
  intro reply m' _
  cases reply with
  | error code => exact keeps_line rfl
  | ok sig =>
    have hverify : Keeps (SignsDigest sha msg) (Atecc608a.verifyExtern (r.hashing sha) msg)
        (fun _ _ => True) m' := by
      apply keeps_libCall
      · rintro ok v hv
        exact Option.some.inj (hv.symm.trans hvalue)
      · exact fun _ _ => trivial
      · exact fun _ _ => trivial
    refine keeps_bind (keeps_measured digest_of_pin (keeps_mono hverify ?_))
    intro reply _ _
    cases reply with
    | error code => exact keeps_line rfl
    | ok isVerified => exact keeps_line rfl

/-- The condition: what the ATECC608A application signs is the digest. -/
def SignedBufferIsDigest (sha : List UInt8 → Digest) (lib : Library) (msg : Message) : Prop :=
  lib = .atecc608a → msg.toList.take digestSize = (sha msg.toList).toList

theorem emits_genKeypair (A : Application) (b : Build) :
    Emits (SignsDigest sha msg) (A.genKeypair b r) := by
  have hgen : Emits (SignsDigest sha msg)
      (A.call (genKeyPair A.priv A.pub r.gen) : EcdsaApp Priv Pub Sig _) := by
    have hplain : Emits (SignsDigest sha msg)
        (genKeyPair A.priv A.pub r.gen : EcdsaApp Priv Pub Sig _) :=
      emits_libCall fun _ _ => digest_of_no_value rfl
    simp only [Application.call]
    split
    · exact emits_enclosed (digest_of_no_value rfl) (digest_of_no_value rfl) hplain
    · exact hplain
  refine emits_func ?_ (digest_of_no_value rfl)
  split
  · refine .bind (emits_measured digest_of_pin hgen) fun reply => ?_
    cases reply with
    | error code =>
      refine .emit (digest_of_no_value ?_)
      simp only [Report.event]
      split <;> rfl
    | ok _ => exact .pure ()
  · exact .bind hgen fun _ => .pure ()

theorem emits_prologue (lib : Library) :
    Emits (SignsDigest sha msg) (lib.application.prologue (.measured energy) r) := by
  have hcall (c : Call Priv Pub Sig) (hc : authenticated sha c = none) :
      Emits (SignsDigest sha msg) (plainCall c : EcdsaApp Priv Pub Sig Unit) :=
    .emit (digest_of_no_value hc)
  cases lib with
  | microEcc =>
    exact emits_func (emits_measured digest_of_pin (hcall _ rfl)) (digest_of_no_value rfl)
  | cryptocell => exact emits_measured digest_of_pin (hcall _ rfl)
  | atecc608a => exact emits_measured digest_of_pin (.pure ())
  | relic =>
    refine emits_measured digest_of_pin (.bind (hcall _ rfl) fun _ => .act fun _ => ?_)
    simpa using digest_of_no_value rfl

theorem emits_iteration {lib : Library} (hdigest : SignedBufferIsDigest sha lib msg) :
    Emits (SignsDigest sha msg)
      (lib.application.iteration (.measured energy) (r.hashing sha) msg) := by
  refine .bind (emits_prologue lib) fun _ => .bind (emits_genKeypair _ _) fun _ =>
    emits_func ?_ (digest_of_no_value rfl)
  intro m
  cases lib with
  | microEcc => exact microEcc_keeps
  | cryptocell => exact cryptocell_keeps
  | atecc608a => exact atecc608a_keeps (hdigest rfl)
  | relic => exact relic_keeps

theorem emits_forM {events : List (Event (Call Priv Pub Sig))}
    (h : ∀ e ∈ events, eventValue sha e = none) :
    Emits (SignsDigest sha msg) (events.forM emit : EcdsaApp Priv Pub Sig Unit) := by
  induction events with
  | nil => exact .pure ()
  | cons e events ih =>
    refine .bind (.emit (digest_of_no_value (h e List.mem_cons_self))) fun _ => ih ?_
    exact fun e' he' => h e' (List.mem_cons_of_mem e he')

theorem emits_main {lib : Library} {n : Nat} (hdigest : n = 0 ∨ SignedBufferIsDigest sha lib msg)
    (replies : Nat → Replies Priv Pub Sig) :
    Emits (SignsDigest sha msg)
      (lib.application.main (.measured energy) n (fun i => (replies i).hashing sha) msg) := by
  have hsetup : ∀ e ∈ (lib.application.setup (.measured energy) :
      List (Event (Call Priv Pub Sig))), eventValue sha e = none := by
    cases lib with
    | relic =>
      simp [Library.application, Relic.application, Relic.setup, Build.measured, eventValue,
        authenticated]
    | _ => intro e he; exact False.elim (List.not_mem_nil he)
  have hteardown : ∀ e ∈ (lib.application.teardown : List (Event (Call Priv Pub Sig))),
      eventValue sha e = none := by
    cases lib <;> simp [Library.application, MicroEcc.application, Cryptocell.application,
      Atecc608a.application, Relic.application, eventValue, authenticated]
  have hmeasured : lib.application.isMeasured (.measured energy) = true := by cases lib <;> rfl
  refine emits_func (.bind (emits_forM hsetup) fun _ => .bind ?_ fun _ =>
    .bind (.pure ()) fun _ => .bind (emits_forM hteardown) fun _ =>
    .emit (digest_of_no_value rfl)) (digest_of_no_value rfl)
  simp only [Application.experiment]
  rw [hmeasured]
  refine .bind (.emit (digest_of_no_value rfl)) fun _ =>
    .bind (emits_initTrigger digest_of_pin _) fun _ => ?_
  rcases hdigest with rfl | hdigest
  · exact .pure ()
  · exact .forRange fun _ => emits_iteration hdigest

/-- A finished run of the ATECC608A application with at least one iteration
signs the first 32 bytes of the message buffer. -/
theorem atecc608a_signs_buffer (n : Nat) (replies : Nat → Replies Priv Pub Sig) :
    Contains (fun e => eventValue sha e = some (msg.toList.take digestSize))
      (Atecc608a.application.main (.measured energy) (n + 1) replies msg) := by
  have hsign (r : Replies Priv Pub Sig) :
      Contains (fun e => eventValue sha e = some (msg.toList.take digestSize))
        (Atecc608a.sign r msg) := contains_libCall fun _ _ => rfl
  have hiteration (i : Nat) :
      Contains (fun e => eventValue sha e = some (msg.toList.take digestSize))
        (Atecc608a.application.iteration (.measured energy) (replies i) msg) :=
    .bind_right fun _ => .bind_right fun _ => .bind_left (.bind_right fun _ => .bind_right fun _ =>
      .bind_left (.bind_right fun _ => .bind_left (hsign _)))
  exact .bind_left (.bind_right fun _ => .bind_left (.bind_right fun _ =>
    .bind_right fun _ => .forRange_succ hiteration))

/-- A run of the measured build with a library that hashes with `sha`. -/
def run (lib : Library) (energy : Bool) (n : Nat) (sha : List UInt8 → Digest)
    (replies : Nat → Replies Priv Pub Sig) (m : Memory Priv Pub Sig) (ins : List Bool)
    (msg : Message) : List (Event (Call Priv Pub Sig)) :=
  ((lib.application.main (.measured energy) n (fun i => (replies i).hashing sha) msg).exec
    ins m).trace

/-- Every run authenticates the digest of the message only, iff the program makes
no iteration or the buffer it signs is the digest. Under that condition the
values authenticated for messages with different digests differ. -/
theorem authenticatesDigest_run_iff (lib : Library) (energy : Bool) (n : Nat)
    (sha : List UInt8 → Digest) (replies : Nat → Replies Priv Pub Sig)
    (m : Memory Priv Pub Sig) :
    (∀ msg, (∀ ins, AuthenticatesDigest sha msg (run lib energy n sha replies m ins msg)) ↔
      n = 0 ∨ SignedBufferIsDigest sha lib msg) ∧
    ∀ msg msg', SignedBufferIsDigest sha lib msg → SignedBufferIsDigest sha lib msg' →
      sha msg.toList ≠ sha msg'.toList → ∀ ins ins',
      ∀ v ∈ authenticatedValues sha (run lib energy n sha replies m ins msg),
        ∀ v' ∈ authenticatedValues sha (run lib energy n sha replies m ins' msg'), v ≠ v' := by
  have hsafe (msg : Message) (hdigest : n = 0 ∨ SignedBufferIsDigest sha lib msg)
      (ins : List Bool) : AuthenticatesDigest sha msg (run lib energy n sha replies m ins msg) :=
    authenticatesDigest_iff.mpr (emits_main hdigest replies).mem
  refine ⟨fun msg => ⟨fun hall => ?_, hsafe msg⟩, ?_⟩
  · by_cases hn : n = 0
    · exact .inl hn
    · refine .inr fun hlib => ?_
      subst hlib
      obtain ⟨k, rfl⟩ := Nat.exists_eq_succ_of_ne_zero hn
      have hfinishes : Finishes (Library.atecc608a.application.main (.measured energy) (k + 1)
          (fun i => (replies i).hashing sha) msg) := main_finishes _ _ _
      have hsigns : Contains (fun e => eventValue sha e = some (msg.toList.take digestSize))
          (Library.atecc608a.application.main (.measured energy) (k + 1)
            (fun i => (replies i).hashing sha) msg) := atecc608a_signs_buffer k _
      obtain ⟨ins, tr, st, a, hexec⟩ := hfinishes m
      obtain ⟨e, he, hv⟩ := hsigns (ins ++ []) m a (by rw [hexec])
      exact authenticatesDigest_iff.mp (hall (ins ++ [])) e he _ hv
  · intro msg msg' hdigest hdigest' hne ins ins' v hv v' hv' heq
    have hleft := hsafe msg (.inr hdigest) ins v hv
    have hright := hsafe msg' (.inr hdigest') ins' v' hv'
    exact hne (Vector.toList_inj.mp (hleft.symm.trans (heq.trans hright)))

section Counterexample

/-- A hash function that maps every message to zeros, and a library that never fails. -/
def zeroSha (_ : List UInt8) : Digest := Vector.replicate digestSize 0

def alwaysOk : Replies Unit Unit Unit where
  gen := .ok ((), ())
  hash _ := .ok (zeroSha [])
  sign _ := .ok ((), 64)
  verify _ := .ok ()
  isVerified _ := true
  blank := ((), ())
  locals := (zeroSha [], ())

/-- One iteration of the timing variant, with the message of the source. -/
theorem atecc608a_signs_message : ¬ AuthenticatesDigest zeroSha ecdsaMessage
    (run .atecc608a false 1 zeroSha (fun _ => alwaysOk) ⟨(), (), zeroSha [], (), 0⟩ []
      ecdsaMessage) := by
  decide

end Counterexample

end Ecdsa
