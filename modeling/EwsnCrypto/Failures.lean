import EwsnCrypto.Base.Pairing
import EwsnCrypto.Ecdh.Model
import EwsnCrypto.Ecdsa.Model

/-!
# Failing calls and their reports

In the measured builds of the eight applications a failing call ends its function with
a line of its own. Between the two stand at most the pin writes that end the measurement
and the call that disables the CryptoCell, and the line comes for no other reason. The
hash calls and RELIC's signature are not looked at.
-/

open InputProgram Trigger EccSteps

namespace Failures

variable {C σ ρ α : Type}

/-- The line that a call is followed by if it fails, the calls that may come before that
line, and all lines that report failures. -/
structure Roles (C : Type) where
  report : C → Option String
  between : C → Bool
  reports : List String

namespace Roles
variable (R : Roles C)

def line (text : String) : Mark String := if text ∈ R.reports then .effect text else .other

def callMark (c : C) (ok : Bool) : Mark String :=
  if ok then .other else (R.report c).elim .other .cause

/-- Writes of the pins have no mark, and neither have the calls that may come between. -/
def mark : Event C → Option (Mark String)
  | .call c ok => if R.between c then none else some (R.callMark c ok)
  | .puts text => some (R.line text)
  | .printf text _ => some (R.line text)
  | .gpioWrite _ _ => none
  | _ => some .other

end Roles

/-- The line that is due behind a call. -/
def failed (report : Option String) : Except Nat ρ → Option String
  | .ok _ => none
  | .error _ => report

section Steps
variable {R : Roles C} {b : Build} {due : Option String}

theorem mark_line {text : String} (h : text ∉ R.reports) :
    R.mark (.puts text) = some .other := by
  rw [Roles.mark, Roles.line, if_neg h]

/-- A step of which nothing shows. -/
theorem reacts_silent {f : σ → Unit × σ × List (Event C)} (h : ∀ m, (f m).2.2 = []) :
    Reacts R.mark none (act f : App C σ Unit) fun _ => none := by
  refine .act fun m => ?_
  rw [h m]
  rfl

theorem reacts_puts {text : String} (h : text ∉ R.reports) :
    Reacts R.mark none (puts text : App C σ Unit) fun _ => none := .other (mark_line h)

theorem reacts_print {r : Report} (h : r.line ∈ R.reports) (code : Nat) :
    Reacts R.mark (some r.line) (r.print code : App C σ Unit) fun _ => none := by
  refine .effect ?_
  rw [Report.event]
  split
  · rw [Roles.mark, Roles.line, if_pos h]
  · rw [Roles.mark, Roles.line, if_pos h]

theorem reacts_startTrigger :
    Reacts R.mark none (startTrigger b : App C σ Unit) fun _ => none := by
  rw [startTrigger]
  split
  · exact .bind (.pollWhile fun _ => rfl) fun _ => .bind (.pollWhile fun _ => rfl) fun _ =>
      .unread rfl
  · exact .unread rfl

theorem reacts_stopTrigger :
    Reacts R.mark due (stopTrigger b : App C σ Unit) fun _ => due := by
  rw [stopTrigger]
  split
  · exact .bind (.unread rfl) fun _ => .bind (.unread rfl) fun _ => .unread rfl
  · exact .unread rfl

theorem reacts_initTrigger :
    Reacts R.mark none (initTrigger b : App C σ Unit) fun _ => none := by
  rw [initTrigger]
  split
  · exact .bind (.other rfl) fun _ => .bind (.other rfl) fun _ => .bind (.other rfl) fun _ =>
      .bind (.unread rfl) fun _ => .unread rfl
  · exact .bind (.other rfl) fun _ => .unread rfl

theorem reacts_measured {p : App C σ α} {after : α → Option String}
    (hp : Reacts R.mark none p after) :
    Reacts R.mark none (measured b p) after :=
  .bind reacts_startTrigger fun _ => .bind hp fun _ => .bind reacts_stopTrigger fun _ => .pure rfl

theorem mark_call (c : C) : R.mark (.call c true : Event C) = none ∨
    R.mark (.call c true : Event C) = some .other := by
  have hcall : R.callMark c true = .other := rfl
  rw [Roles.mark, hcall]
  cases R.between c <;> simp

theorem reacts_plainCall (c : C) :
    Reacts R.mark none (plainCall c : App C σ Unit) fun _ => none := by
  rcases mark_call (R := R) c with hmark | hmark
  · exact .unread hmark
  · exact .other hmark

theorem reacts_enclosed {enable disable : C} {p : App C σ α} {after : α → Option String}
    (hdisable : R.between disable = true) (hp : Reacts R.mark none p after) :
    Reacts R.mark none (enclosed enable disable p) after := by
  refine .bind (reacts_plainCall enable) fun _ => .bind hp fun _ => ?_
  exact .bind (.unread (if_pos hdisable)) fun _ => .pure rfl

/-- A call that fails leaves its line due, if it has one. -/
theorem reacts_libCall {c : σ → C} {reply : σ → Except Nat ρ} {store : ρ → σ → σ}
    {report : Option String} (hbetween : ∀ m, R.between (c m) = false)
    (hreport : ∀ m, R.report (c m) = report) :
    Reacts R.mark none (libCall c reply store) (failed report) := by
  have hmark (m : σ) (ok : Bool) : R.mark (.call (c m) ok) = some (R.callMark (c m) ok) :=
    if_neg (by rw [hbetween]; exact Bool.false_ne_true)
  refine .act fun m => ?_
  cases reply m with
  | ok x => simp [hmark, Roles.callMark, failed, Paired]
  | error code => cases report <;> simp [hmark, Roles.callMark, hreport, failed, Paired]

theorem reacts_checkedPair {first second : App C σ (Except Nat ρ)} {text1 text2 : String}
    {failed1 failed2 : Nat → App C σ Unit} {finish : App C σ Unit}
    (h1 : Reacts R.mark none first (failed (some text1)))
    (hfail1 : ∀ code, Reacts R.mark (some text1) (failed1 code) fun _ => none)
    (h2 : Reacts R.mark none second (failed (some text2)))
    (hfail2 : ∀ code, Reacts R.mark (some text2) (failed2 code) fun _ => none)
    (hfinish : Reacts R.mark none finish fun _ => none) :
    Reacts R.mark none (checkedPair b first failed1 second failed2 finish) fun _ => none := by
  refine .bind (reacts_measured h1) fun x => ?_
  cases x with
  | error code => exact hfail1 code
  | ok x =>
    refine .bind h2 fun y => ?_
    cases y with
    | error code => exact hfail2 code
    | ok y => exact hfinish

theorem reacts_func {f : Fn} {body : App C σ Unit}
    (h : Reacts R.mark none body fun _ => none) :
    Reacts R.mark none (func f body) fun _ => none := .bind h fun _ => .other rfl

end Steps

section Ecdh
variable {Priv Pub Secret : Type}

def ecdhRoles (A : Ecdh.Application) : Roles Ecdh.Call where
  report
    | .genKeyPair priv _ => some (if priv = A.priv1 then A.genFailed1.line else A.genFailed2.line)
    | .sharedSecret .sharedSecret1 _ _ => some A.deriveFailed1.line
    | .sharedSecret .sharedSecret2 _ _ => some A.deriveFailed2.line
    | _ => none
  between
    | .cryptocellDisable => true
    | _ => false
  reports := [A.genFailed1.line, A.genFailed2.line, A.deriveFailed1.line, A.deriveFailed2.line]

variable {A : Ecdh.Application} {b : Build} {r : Ecdh.Replies Priv Pub Secret}

theorem verdict_notMem_reports {text : String} (h : text = "SUCCESS" ∨ text = "ERROR") :
    text ∉ (ecdhRoles A).reports := by
  have hline (report : Report) : report.line ≠ text := by
    obtain ⟨hsuccess, herror, _⟩ := report.no_verdict
    rcases h with rfl | rfl
    · exact hsuccess
    · exact herror
  simp only [ecdhRoles, List.mem_cons, List.not_mem_nil, or_false, not_or]
  exact ⟨(hline _).symm, (hline _).symm, (hline _).symm, (hline _).symm⟩

theorem reacts_ecdhCall {ρ : Type} {c : Ecdh.Call} {text : String}
    {reply : Ecdh.Memory Priv Pub Secret → Except Nat ρ}
    {store : ρ → Ecdh.Memory Priv Pub Secret → Ecdh.Memory Priv Pub Secret}
    (hbetween : (ecdhRoles A).between c = false) (hreport : (ecdhRoles A).report c = some text) :
    Reacts (ecdhRoles A).mark none (A.call (libCall (fun _ => c) reply store))
      (failed (some text)) := by
  have hcall : Reacts (ecdhRoles A).mark none (libCall (fun _ => c) reply store)
      (failed (some text)) := reacts_libCall (fun _ => hbetween) fun _ => hreport
  rw [Ecdh.Application.call]
  split
  · exact reacts_enclosed rfl hcall
  · exact hcall

theorem reacts_ecdhIteration [DecidableEq Secret] (hb : b.isMeasured = true)
    (hprologue : Reacts (ecdhRoles A).mark none (A.prologue b r) fun _ => none) :
    Reacts (ecdhRoles A).mark none (A.iteration b r) fun _ => none := by
  have hcompare : Reacts (ecdhRoles A).mark none
      (Ecdh.Application.compareSecrets : Ecdh.EcdhApp Priv Pub Secret Unit) fun _ => none := by
    refine .act fun m => ?_
    have hverdict (text : String) (h : text = "SUCCESS" ∨ text = "ERROR") :
        (ecdhRoles A).mark (.puts text) = some .other := mark_line (verdict_notMem_reports h)
    rw [List.filterMap_cons_some (hverdict _ (by split <;> simp))]
    rfl
  have hfirst : (ecdhRoles A).report (.genKeyPair A.priv1 A.pub1) = some A.genFailed1.line :=
    congrArg some (if_pos rfl)
  have hsecond : (ecdhRoles A).report (.genKeyPair A.priv2 A.pub2) = some A.genFailed2.line :=
    congrArg some (if_neg A.priv_ne.symm)
  refine .bind hprologue fun _ => .bind (reacts_func ?_) fun _ =>
    reacts_func (.bind (reacts_silent fun _ => rfl) fun _ => ?_)
  · rw [if_pos hb]
    exact reacts_checkedPair (reacts_ecdhCall rfl hfirst) (reacts_print (by simp [ecdhRoles]))
      (reacts_ecdhCall rfl hsecond) (reacts_print (by simp [ecdhRoles])) (.pure rfl)
  · rw [if_pos hb]
    exact reacts_checkedPair (reacts_ecdhCall rfl rfl) (reacts_print (by simp [ecdhRoles]))
      (reacts_ecdhCall rfl rfl) (reacts_print (by simp [ecdhRoles])) hcompare

theorem reacts_ecdhMain [DecidableEq Secret] {n : Nat}
    {replies : Nat → Ecdh.Replies Priv Pub Secret} (hb : b.isMeasured = true)
    (hbanner : A.banner ∉ (ecdhRoles A).reports)
    (hdone : "DONE" ∉ (ecdhRoles A).reports)
    (hprologue : ∀ r : Ecdh.Replies Priv Pub Secret,
      Reacts (ecdhRoles A).mark none (A.prologue b r) fun _ => none) :
    Reacts (ecdhRoles A).mark none (A.main b n replies) fun _ => none := by
  have hexperiment : Reacts (ecdhRoles A).mark none (A.experiment b n replies) fun _ => none := by
    rw [Ecdh.Application.experiment, if_pos hb]
    exact .bind (reacts_puts hbanner) fun _ => .bind reacts_initTrigger fun _ =>
      .forRange fun i => reacts_ecdhIteration hb (hprologue (replies i))
  refine reacts_func ?_
  exact .bind (.forM fun c _ => reacts_plainCall c) fun _ => .bind hexperiment fun _ =>
    .bind (.onlyIf (.forM fun _ _ => .other rfl)) fun _ =>
    .bind (.forM fun c _ => reacts_plainCall c) fun _ => reacts_puts hdone

theorem reacts_ecdhPrologue (l : Ecdh.Library) (hb : b.isMeasured = true) :
    Reacts (ecdhRoles l.application).mark none (l.application.prologue b r) fun _ => none := by
  cases l with
  | microEcc =>
    refine reacts_func ?_
    rw [if_pos hb]
    exact reacts_measured (reacts_plainCall _)
  | cryptocell =>
    simp only [Ecdh.Library.application, Ecdh.Cryptocell.application, hb, if_true]
    exact reacts_measured (reacts_plainCall _)
  | atecc608a =>
    simp only [Ecdh.Library.application, Ecdh.Atecc608a.application, hb, if_true]
    exact reacts_measured (.pure rfl)
  | relic =>
    have hinit (R : Roles Ecdh.Call) (hR : ∀ priv pub, R.mark (.call (.initMem priv pub) true) =
        some .other) (priv : PrivKey) (pub : PubKey) (blank : Priv × Pub) :
        Reacts R.mark none (Ecdh.initMem priv pub blank :
          Ecdh.EcdhApp Priv Pub Secret Unit) fun _ => none := by
      refine .act fun _ => ?_
      rw [List.filterMap_cons_some (hR priv pub)]
      rfl
    simp only [Ecdh.Library.application, Ecdh.Relic.application, hb, if_true]
    exact .bind (reacts_measured (.bind (reacts_plainCall _) fun _ =>
      hinit _ (fun _ _ => rfl) _ _ _)) fun _ => hinit _ (fun _ _ => rfl) _ _ _

/-- In the measured ECDH applications, in any run: behind a failing key generation or
derivation stands its line, with at most pin writes and the call that disables the CryptoCell
in between, and such lines stand nowhere else. -/
theorem ecdh_failures_reported [DecidableEq Secret] (l : Ecdh.Library) (b : Build)
    (hb : b.isMeasured = true) (n : Nat) (replies : Nat → Ecdh.Replies Priv Pub Secret)
    (ins : List Bool) (m : Ecdh.Memory Priv Pub Secret) :
    Answered (((l.application.main b n replies).exec ins m).trace.filterMap
      (ecdhRoles l.application).mark) := by
  have hmain : Reacts (ecdhRoles l.application).mark none (l.application.main b n replies)
      fun _ => none :=
    reacts_ecdhMain hb (by cases l <;> decide) (by cases l <;> decide)
      fun _ => reacts_ecdhPrologue l hb
  exact hmain.answered ins m

/-- A library whose first derivation fails. -/
def failingDerivation : Ecdh.Replies Unit Unit Unit :=
  { Ecdh.failingReplies with
    gen1 := .ok ((), ())
    gen2 := .ok ((), ())
    derive1 := fun _ _ => .error 5 }

/-- A derivation fails in a build with the CryptoCell and a pulse on the sync pin for
each window. -/
theorem ecdh_failures_reported_cryptocell :
    Answered (((Ecdh.Library.cryptocell.application.main (Build.measured true) 1
      fun _ => failingDerivation).exec [false, true, false, true, false, true]
        ⟨fun _ => (), fun _ => (), fun _ => ()⟩).trace.filterMap
      (ecdhRoles Ecdh.Library.cryptocell.application).mark) :=
  ecdh_failures_reported .cryptocell (Build.measured true) rfl 1
    (fun _ => failingDerivation)
    [false, true, false, true, false, true] ⟨fun _ => (), fun _ => (), fun _ => ()⟩

end Ecdh

section Ecdsa
variable {Priv Pub Sig : Type}

/-- The lines of each application that follow a failing call. -/
def ecdsaReports (l : Ecdsa.Library) : List String :=
  l.application.genFailed.line :: match l with
    | .microEcc => ["ERROR generating shared secret 1", "INVALID"]
    | .cryptocell =>
      ["CRYS_ECDSA_Sign failed with 0x%x \n", "CRYS_ECDSA_Verify failed with 0x%x \n"]
    | .atecc608a => [" Signing failed with 0x%x \n", " Verifying failed with 0x%x \n"]
    | .relic => ["INVALID"]

/-- What is not looked at are the hash calls and RELIC's signature. -/
def ecdsaRoles (l : Ecdsa.Library) : Roles (Ecdsa.Call Priv Pub Sig) where
  report
    | .genKeyPair _ _ => some l.application.genFailed.line
    | .uECCSign _ _ _ _ => some "ERROR generating shared secret 1"
    | .uECCVerify _ _ _ _ _ => some "INVALID"
    | .crysEcdsaSign _ _ _ _ _ _ => some "CRYS_ECDSA_Sign failed with 0x%x \n"
    | .crysEcdsaVerify _ _ _ _ _ _ _ => some "CRYS_ECDSA_Verify failed with 0x%x \n"
    | .atcabSign _ _ _ => some " Signing failed with 0x%x \n"
    | .atcabVerifyExtern _ _ _ _ => some " Verifying failed with 0x%x \n"
    | .cpEcdsaVer _ _ _ _ _ _ => some "INVALID"
    | _ => none
  between
    | .cryptocellDisable => true
    | _ => false
  reports := ecdsaReports l

variable {l : Ecdsa.Library} {b : Build} {r : Ecdsa.Replies Priv Pub Sig} {msg : Ecdsa.Message}

abbrev EcdsaReacts (l : Ecdsa.Library) (p : Ecdsa.EcdsaApp Priv Pub Sig Unit) : Prop :=
  Reacts (ecdsaRoles l).mark none p fun _ => none

theorem reacts_withCell {ρ : Type} {p : Ecdsa.EcdsaApp Priv Pub Sig ρ} {after : ρ → Option String}
    (hp : Reacts (ecdsaRoles l).mark none p after) :
    Reacts (ecdsaRoles l).mark none (Ecdsa.withCell p) after := reacts_enclosed rfl hp

theorem reacts_ecdsaGenKeypair (hb : l.application.isMeasured b = true) :
    EcdsaReacts l (l.application.genKeypair b r) := by
  have hgen : Reacts (ecdsaRoles l).mark none (Ecdsa.genKeyPair l.application.priv l.application.pub
      r.gen : Ecdsa.EcdsaApp Priv Pub Sig _) (failed (some l.application.genFailed.line)) :=
    reacts_libCall (fun _ => rfl) fun _ => rfl
  have hcall : Reacts (ecdsaRoles l).mark none (l.application.call (Ecdsa.genKeyPair
      l.application.priv l.application.pub r.gen : Ecdsa.EcdsaApp Priv Pub Sig _))
        (failed (some l.application.genFailed.line)) := by
    rw [Ecdsa.Application.call]
    split
    · exact reacts_withCell hgen
    · exact hgen
  refine reacts_func ?_
  rw [if_pos hb]
  refine .bind (reacts_measured hcall) fun x => ?_
  cases x with
  | error code => exact reacts_print List.mem_cons_self code
  | ok x => exact .pure rfl

/-- A call that is not looked at. -/
theorem reacts_ignored {ρ : Type} {p : Ecdsa.EcdsaApp Priv Pub Sig (Except Nat ρ)}
    {q : Ecdsa.EcdsaApp Priv Pub Sig Unit} (hp : Reacts (ecdsaRoles l).mark none p (failed none))
    (hq : EcdsaReacts l q) : EcdsaReacts l (measured b p >>= fun _ => q) := by
  refine .bind (reacts_measured hp) fun x => ?_
  cases x with
  | error code => exact hq
  | ok x => exact hq

theorem mark_report {text : String} (h : text ∈ ecdsaReports l) :
    (ecdsaRoles l).mark (.puts text : Event (Ecdsa.Call Priv Pub Sig)) = some (.effect text) ∧
      ∀ code, (ecdsaRoles l).mark (.printf text code : Event (Ecdsa.Call Priv Pub Sig)) =
        some (.effect text) := by
  have hline : (ecdsaRoles l : Roles (Ecdsa.Call Priv Pub Sig)).line text = .effect text := if_pos h
  exact ⟨congrArg some hline, fun _ => congrArg some hline⟩

theorem reacts_ecdsaPuts {text : String} (h : text ∉ ecdsaReports l) :
    EcdsaReacts l (puts text : Ecdsa.EcdsaApp Priv Pub Sig Unit) := reacts_puts h

theorem reacts_declareLocals :
    EcdsaReacts l (Ecdsa.declareLocals r : Ecdsa.EcdsaApp Priv Pub Sig Unit) :=
  reacts_silent fun _ => rfl

theorem reacts_microEcc (hb : b.isMeasured = true) :
    EcdsaReacts .microEcc (Ecdsa.MicroEcc.signVerify b r msg) := by
  refine .bind reacts_declareLocals fun _ => ?_
  rw [if_pos hb]
  refine reacts_ignored (reacts_libCall (fun _ => rfl) fun _ => rfl) ?_
  refine .bind (reacts_measured (reacts_libCall (fun _ => rfl) fun _ => rfl)) fun x => ?_
  cases x with
  | error code => exact .effect (mark_report (by decide)).1
  | ok x =>
    refine .bind (reacts_measured (reacts_libCall (fun _ => rfl) fun _ => rfl)) fun y => ?_
    cases y with
    | error code => exact .effect (mark_report (by decide)).1
    | ok y => exact reacts_ecdsaPuts (by decide)

theorem reacts_cryptocell (hb : Ecdsa.Cryptocell.isMeasured b = true) :
    EcdsaReacts .cryptocell (Ecdsa.Cryptocell.signVerify b r msg) := by
  refine .bind reacts_declareLocals fun _ => ?_
  rw [if_pos hb]
  refine .bind (reacts_measured (reacts_withCell
    (reacts_libCall (fun _ => rfl) fun _ => rfl))) fun x => ?_
  cases x with
  | error code => exact .effect ((mark_report (by decide)).2 code)
  | ok x =>
    refine .bind (reacts_measured (reacts_withCell
      (reacts_libCall (fun _ => rfl) fun _ => rfl))) fun y => ?_
    cases y with
    | error code => exact .effect ((mark_report (by decide)).2 code)
    | ok y => exact reacts_ecdsaPuts (by decide)

theorem reacts_atecc608a (hb : b.isMeasured = true) :
    EcdsaReacts .atecc608a (Ecdsa.Atecc608a.signVerify b r msg) := by
  refine .bind reacts_declareLocals fun _ => ?_
  rw [if_pos hb]
  refine reacts_ignored (reacts_libCall (fun _ => rfl) fun _ => rfl) ?_
  refine .bind (reacts_measured (reacts_libCall (fun _ => rfl) fun _ => rfl)) fun x => ?_
  cases x with
  | error code => exact .effect ((mark_report (by decide)).2 code)
  | ok x =>
    refine .bind (reacts_measured (reacts_libCall (fun _ => rfl) fun _ => rfl)) fun y => ?_
    cases y with
    | error code => exact .effect ((mark_report (by decide)).2 code)
    | ok isVerified => cases isVerified with
      | true => exact reacts_ecdsaPuts (by decide)
      | false => exact reacts_ecdsaPuts (by decide)

theorem reacts_relic (hb : b.isMeasured = true) :
    EcdsaReacts .relic (Ecdsa.Relic.signVerify b r msg) := by
  simp only [Ecdsa.Relic.signVerify, hb, if_true]
  refine .bind reacts_declareLocals fun _ => ?_
  refine .bind (reacts_plainCall _) fun _ => .bind (reacts_plainCall _) fun _ => ?_
  refine reacts_ignored (reacts_libCall (fun _ => rfl) fun _ => rfl) ?_
  refine reacts_ignored (reacts_libCall (fun _ => rfl) fun _ => rfl) ?_
  refine .bind (reacts_measured (reacts_libCall (fun _ => rfl) fun _ => rfl)) fun y => ?_
  cases y with
  | error code => exact .effect (mark_report (by decide)).1
  | ok y => exact reacts_ecdsaPuts (by decide)

theorem reacts_signVerify (hb : l.application.isMeasured b = true) :
    EcdsaReacts l (l.application.signVerify b r msg) := by
  cases l with
  | microEcc => exact reacts_microEcc hb
  | cryptocell => exact reacts_cryptocell hb
  | atecc608a => exact reacts_atecc608a hb
  | relic => exact reacts_relic hb

theorem reacts_ecdsaPrologue (hb : l.application.isMeasured b = true) :
    EcdsaReacts l (l.application.prologue b r) := by
  cases l with
  | microEcc =>
    have hmeasured : b.isMeasured = true := hb
    refine reacts_func ?_
    rw [if_pos hmeasured]
    exact reacts_measured (reacts_plainCall _)
  | cryptocell =>
    have hmeasured : Ecdsa.Cryptocell.isMeasured b = true := hb
    simp only [Ecdsa.Library.application, Ecdsa.Cryptocell.application, hmeasured, if_true]
    exact reacts_measured (reacts_plainCall _)
  | atecc608a =>
    have hmeasured : b.isMeasured = true := hb
    simp only [Ecdsa.Library.application, Ecdsa.Atecc608a.application, hmeasured, if_true]
    exact reacts_measured (.pure rfl)
  | relic =>
    have hmeasured : b.isMeasured = true := hb
    simp only [Ecdsa.Library.application, Ecdsa.Relic.application, hmeasured, if_true]
    exact reacts_measured (.bind (reacts_plainCall _) fun _ => .act fun _ => rfl)

theorem mark_setup (e : Event (Ecdsa.Call Priv Pub Sig)) (he : e ∈ l.application.setup b) :
    (ecdsaRoles l).mark e = some .other := by
  rcases Ecdsa.mem_setup he with rfl | ⟨format, rfl⟩ <;> rfl

theorem mark_teardown (e : Event (Ecdsa.Call Priv Pub Sig)) (he : e ∈ l.application.teardown) :
    (ecdsaRoles l).mark e = some .other := by
  obtain rfl := Ecdsa.mem_teardown he
  rfl

theorem reacts_ecdsaMain {n : Nat} {replies : Nat → Ecdsa.Replies Priv Pub Sig}
    (hb : l.application.isMeasured b = true) :
    EcdsaReacts l (l.application.main b n replies msg) := by
  have hexperiment : EcdsaReacts l (l.application.experiment b n replies msg) := by
    have hbanner : l.application.banner ∉ ecdsaReports l := by cases l <;> decide
    rw [Ecdsa.Application.experiment, if_pos hb]
    refine .bind (reacts_ecdsaPuts hbanner) fun _ => .bind reacts_initTrigger fun _ =>
      .forRange fun i => ?_
    exact .bind (reacts_ecdsaPrologue hb) fun _ => .bind (reacts_ecdsaGenKeypair hb) fun _ =>
      reacts_func (reacts_signVerify hb)
  have hdone : "DONE" ∉ ecdsaReports l := by cases l <;> decide
  refine reacts_func ?_
  exact .bind (.forM fun e he => .other (mark_setup e he)) fun _ => .bind hexperiment fun _ =>
    .bind (.onlyIf (.forM fun _ _ => .other rfl)) fun _ =>
    .bind (.forM fun e he => .other (mark_teardown e he)) fun _ => reacts_ecdsaPuts hdone

/-- In the measured ECDSA applications, in any run: behind a failing key generation,
signature or verification stands its line, with at most pin writes and the call that
disables the CryptoCell in between, and such lines stand nowhere else. RELIC's signature has
none. -/
theorem ecdsa_failures_reported (l : Ecdsa.Library) (b : Build)
    (hb : l.application.isMeasured b = true) (n : Nat) (replies : Nat → Ecdsa.Replies Priv Pub Sig)
    (msg : Ecdsa.Message) (ins : List Bool) (m : Ecdsa.Memory Priv Pub Sig) :
    Answered (((l.application.main b n replies msg).exec ins m).trace.filterMap
      (ecdsaRoles l).mark) := (reacts_ecdsaMain hb).answered ins m

/-- A library that generates and signs, but verifies nothing. -/
def failingVerification : Ecdsa.Replies Unit Unit Unit :=
  { Ecdsa.failingReplies with
    gen := .ok ((), ())
    hash := fun _ => .ok (Vector.replicate Ecdsa.digestSize 0)
    sign := fun _ => .ok ((), 64) }

/-- A verification fails in the timing variant of RELIC. -/
theorem ecdsa_failures_reported_relic :
    Answered (((Ecdsa.Library.relic.application.main (Build.measured false) 1
      (fun _ => failingVerification)
        Ecdsa.ecdsaMessage).exec [] ⟨(), (), Vector.replicate 32 0, (), 0⟩).trace.filterMap
      (ecdsaRoles Ecdsa.Library.relic).mark) :=
  ecdsa_failures_reported .relic (Build.measured false) rfl 1
    (fun _ => failingVerification) Ecdsa.ecdsaMessage [] ⟨(), (), Vector.replicate 32 0, (), 0⟩

end Ecdsa

end Failures
