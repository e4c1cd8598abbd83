import EwsnCrypto.Ecdsa.Model

/-!
# Every iteration finishes

Whatever the library answers, enough pulses on the sync pin take each of the
ECDSA applications through all of its iterations.
-/

open InputProgram Trigger EccSteps

namespace Ecdsa

variable {Priv Pub Sig : Type} {b : Build} {msg : Message}

/-- `_sign_verify`: a window for each call, and a line behind the last one made. -/
theorem signVerify_finishes (lib : Library) (r : Replies Priv Pub Sig) :
    Finishes (lib.application.signVerify b r msg) := by
  cases lib with
  | microEcc =>
    show Finishes (MicroEcc.signVerify b r msg)
    refine .bind (.act _) fun _ => ?_
    split
    · refine .bind (measured_finishes (.act _)) fun _ =>
        .bind (measured_finishes (.act _)) fun reply => ?_
      cases reply with
      | error code => exact .emit _
      | ok sig =>
        refine .bind (measured_finishes (.act _)) fun reply => ?_
        cases reply <;> exact .emit _
    · exact .bind (.act _) fun _ => .bind (.act _) fun _ => .bind (.act _) fun _ => .pure _
  | cryptocell =>
    show Finishes (Cryptocell.signVerify b r msg)
    refine .bind (.act _) fun _ => ?_
    split
    · refine .bind (measured_finishes (enclosed_finishes (.act _))) fun reply => ?_
      cases reply with
      | error code => exact .emit _
      | ok sig =>
        refine .bind (measured_finishes (enclosed_finishes (.act _))) fun reply => ?_
        cases reply <;> exact .emit _
    · exact .bind (enclosed_finishes (.act _)) fun _ => .bind (enclosed_finishes (.act _))
        fun _ => .pure _
  | atecc608a =>
    show Finishes (Atecc608a.signVerify b r msg)
    refine .bind (.act _) fun _ => ?_
    split
    · refine .bind (measured_finishes (.act _)) fun _ =>
        .bind (measured_finishes (.act _)) fun reply => ?_
      cases reply with
      | error code => exact .emit _
      | ok sig =>
        refine .bind (measured_finishes (.act _)) fun reply => ?_
        cases reply <;> exact .emit _
    · exact .bind (.act _) fun _ => .bind (.act _) fun _ => .bind (.act _) fun _ => .pure _
  | relic =>
    show Finishes (Relic.signVerify b r msg)
    refine .bind (.act _) fun _ => .bind (.emit _) fun _ => .bind (.emit _) fun _ => ?_
    split
    · refine .bind (measured_finishes (.act _)) fun _ =>
        .bind (measured_finishes (.act _)) fun _ =>
        .bind (measured_finishes (.act _)) fun reply => ?_
      cases reply <;> exact .emit _
    · exact .bind (.act _) fun _ => .bind (.act _) fun _ => .bind (.act _) fun _ => .pure _

/-- `_gen_keypair`, whether or not the key generation succeeds. -/
theorem genKeypair_finishes (A : Application) (r : Replies Priv Pub Sig) :
    Finishes (A.genKeypair b r) := by
  have hgen : Finishes (A.call (genKeyPair A.priv A.pub r.gen) : EcdsaApp Priv Pub Sig _) := by
    simp only [Application.call]
    split
    · exact enclosed_finishes (.act _)
    · exact .act _
  apply func_finishes
  split
  · refine .bind (measured_finishes hgen) fun reply => ?_
    cases reply with
    | error code => exact .emit _
    | ok _ => exact .pure ()
  · exact .bind hgen fun _ => .pure ()

/-- What an iteration does before it generates its keys: a curve, a domain, an empty window
or fresh RELIC keys. -/
theorem prologue_finishes (lib : Library) (r : Replies Priv Pub Sig) :
    Finishes (lib.application.prologue b r) := by
  cases lib with
  | microEcc =>
    apply func_finishes
    split
    · exact measured_finishes (.emit _)
    · exact .emit _
  | cryptocell =>
    show Finishes (if _ then _ else _)
    split
    · exact measured_finishes (.emit _)
    · exact .emit _
  | atecc608a =>
    show Finishes (if _ then _ else _)
    split
    · exact measured_finishes (.pure _)
    · exact .pure _
  | relic =>
    show Finishes (if _ then _ else _)
    split
    · exact measured_finishes (.bind (.emit _) fun _ => .act _)
    · exact .bind (.emit _) fun _ => .act _

/-- An iteration ends on every answer of the library. -/
theorem iteration_finishes (lib : Library) (r : Replies Priv Pub Sig) :
    Finishes (lib.application.iteration b r msg) :=
  .bind (prologue_finishes lib r) fun _ => .bind (genKeypair_finishes _ r) fun _ =>
    func_finishes (signVerify_finishes lib r)

/-- The whole program ends, once the sync pin has shown as many pulses as it waits for. -/
theorem main_finishes (lib : Library) (n : Nat) (replies : Nat → Replies Priv Pub Sig) :
    Finishes (lib.application.main b n replies msg) := by
  refine func_finishes (.bind (.forM fun _ => .emit _) fun _ => .bind ?_ fun _ =>
    .bind (.onlyIf (.forM fun _ => .emit _)) fun _ => .bind (.forM fun _ => .emit _) fun _ =>
    .emit _)
  simp only [Application.experiment]
  split
  · exact .bind (.emit _) fun _ => .bind (initTrigger_finishes b) fun _ =>
      .forRange fun i => iteration_finishes lib (replies i)
  · exact iteration_finishes lib (replies 0)

end Ecdsa
