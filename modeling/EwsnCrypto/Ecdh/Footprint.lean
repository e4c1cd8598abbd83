import EwsnCrypto.Base.Sections
import EwsnCrypto.Ecdh.Model

/-!
# What the stack and memory builds of ECDH compute

The footprint builds make one pair of keys and derive with that pair alone, where a
measured iteration makes two and crosses them. They are about the measurement all the
same: their calls are those that lie in its windows, on their own pair.
-/

open InputProgram Trigger EccSteps

namespace Ecdh

variable {Priv Pub Secret : Type}

/-- What a run does to the board: it accesses a pin or makes a call. -/
inductive Use where
  | pin
  | call (c : Call)
deriving DecidableEq

def use : Event Call → Option Use
  | .gpioInit _ _ | .gpioWrite _ _ | .gpioRead _ _ => some .pin
  | .call c _ => some (.call c)
  | _ => none

/-- The active pin is low in a window of the energy build, and high in one of the other. -/
def tick (energy : Bool) : Event Call → Option (Tick Call)
  | .gpioWrite .active high => some (if high = energy then .closing else .opening)
  | .call c _ => some (.inside c)
  | _ => none

/-- The calls that lie in a window of the measured run, for each of its windows. -/
def windows (energy : Bool) (tr : List (Event Call)) : List (List Call) :=
  sections none (tr.filterMap (tick energy))

namespace Library
variable (lib : Library)

/-- A call with the switches of the CryptoCell around it. -/
def switched (c : Call) : List Call :=
  if lib.application.usesCell then [.cryptocellEnable, c, .cryptocellDisable] else [c]

/-- What is called before the keys are made. -/
def initCalls : List Call :=
  match lib with
  | .microEcc => [.uECCSecp256r1]
  | .cryptocell => [.getEcDomain]
  | .atecc608a => []
  | .relic => [.epParamSet, .initMem .keyA .keyA]

/-- The calls of an iteration in parts, with the keys of the derivation. -/
def parts (keys : PrivKey × PubKey) : List (List Call) :=
  [lib.initCalls, lib.switched (.genKeyPair lib.application.priv1 lib.application.pub1),
    lib.switched (.sharedSecret .sharedSecret1 keys.1 keys.2)]

/-- The pair that the footprint builds make. -/
def ownPair : PrivKey × PubKey := (lib.application.priv1, lib.application.pub1)

end Library

section Shown
variable {δ : Type} {read : Event Call → Option δ} {f : Call → δ} {lib : Library}
  (hread : ∀ c ok, read (.call c ok) = some (f c))
include hread

theorem shows_plainCall (c : Call) :
    Shows read (plainCall c : EcdhApp Priv Pub Secret Unit) [f c] := .emit (hread c true)

theorem shows_initMem (priv : PrivKey) (pub : PubKey) (blank : Priv × Pub) :
    Shows read (initMem priv pub blank : EcdhApp Priv Pub Secret Unit) [f (.initMem priv pub)] :=
  .act fun _ => List.filterMap_cons_some (hread _ true)

theorem shows_call {ρ : Type} {c : Call} {reply : Memory Priv Pub Secret → Except Nat ρ}
    {store : ρ → Memory Priv Pub Secret → Memory Priv Pub Secret} :
    Shows read (lib.application.call (libCall (fun _ => c) reply store))
      ((lib.switched c).map f) := by
  have hcall : Shows read (libCall (fun _ => c) reply store) [f c] := by
    refine .act fun m => ?_
    cases reply m with
    | ok x => exact List.filterMap_cons_some (hread c true)
    | error code => exact List.filterMap_cons_some (hread c false)
  rw [Application.call, Library.switched]
  split
  · exact (shows_plainCall hread _).bind fun _ => hcall.bind fun _ =>
      (shows_plainCall hread _).then_unread fun _ => .pure _
  · exact hcall

/-- What a window around the preparations holds. -/
theorem shows_initCalls (priv : PrivKey) (pub : PubKey) (blank : Priv × Pub) :
    Shows read (plainCall .epParamSet >>= fun _ => initMem priv pub blank :
      EcdhApp Priv Pub Secret Unit) [f .epParamSet, f (.initMem priv pub)] :=
  (shows_plainCall hread _).bind fun _ => shows_initMem hread priv pub blank

end Shown

section Measured
variable {energy : Bool} {lib : Library} {r : Replies Priv Pub Secret}

theorem tick_call (c : Call) (ok : Bool) : tick energy (.call c ok) = some (.inside c) := rfl

theorem opens_startTrigger {σ : Type} :
    Opens (tick energy) (startTrigger (.measured energy) : App Call σ Unit) := by
  cases energy with
  | true => exact .after_poll (fun _ => rfl) (.after_poll (fun _ => rfl) (.emit rfl))
  | false => exact .emit rfl

theorem shows_stopTrigger {σ : Type} :
    Shows (tick energy) (stopTrigger (.measured energy) : App Call σ Unit) [.closing] := by
  cases energy with
  | true =>
    exact .bind_unread (.unread rfl) fun _ => .then_unread (.emit rfl) fun _ => .unread rfl
  | false => exact .emit rfl

theorem sectioned_measured {σ α : Type} {p : App Call σ α} {xs : List Call}
    (hp : Shows (tick energy) p (xs.map .inside)) :
    Sectioned (tick energy) (measured (.measured energy) p) [xs] :=
  .window opens_startTrigger (fun _ => hp) fun _ _ =>
    shows_stopTrigger.then_unread fun _ => .pure _

theorem unopened_of_shows {σ α : Type} {p : App Call σ α} {cs : List Call}
    (hp : Shows (tick energy) p (cs.map .inside)) : Sectioned (tick energy) p [] := by
  refine .of_unopened fun ins st t ht => ?_
  rw [(hp ins st).2, List.mem_map] at ht
  obtain ⟨_, _, rfl⟩ := ht
  rfl

theorem sectioned_puts {σ : Type} (line : String) :
    Sectioned (tick energy) (puts line : App Call σ Unit) [] := .emit rfl

theorem sectioned_print {σ : Type} (report : Report) (code : Nat) :
    Sectioned (tick energy) (report.print code : App Call σ Unit) [] := by
  refine .emit ?_
  rw [Report.event]
  split <;> rfl

theorem sectioned_func {σ : Type} {f : Fn} {body : App Call σ Unit} {out : List (List Call)}
    (h : Sectioned (tick energy) body out) : Sectioned (tick energy) (func f body) out :=
  h.then_unopened fun _ => .emit rfl

/-- Only the first of two calls lies in a window. -/
theorem sectioned_checkedPair {σ ρ : Type} {first second : App Call σ (Except Nat ρ)}
    {failed1 failed2 : Report} {finish : App Call σ Unit} {xs ys : List Call}
    (h1 : Shows (tick energy) first (xs.map .inside))
    (h2 : Shows (tick energy) second (ys.map .inside))
    (hfinish : Sectioned (tick energy) finish []) :
    Sectioned (tick energy) (checkedPair (.measured energy) first failed1.print second failed2.print
      finish) [xs] := by
  refine (sectioned_measured h1).then_unopened fun x => ?_
  cases x with
  | error code => exact sectioned_print failed1 code
  | ok x =>
    refine (unopened_of_shows h2).bind_unopened fun y => ?_
    cases y with
    | error code => exact sectioned_print failed2 code
    | ok y => exact hfinish

theorem sectioned_prologue :
    Sectioned (tick energy) (lib.application.prologue (.measured energy) r) [lib.initCalls] := by
  cases lib with
  | microEcc => exact sectioned_func (sectioned_measured (shows_plainCall tick_call _))
  | cryptocell => exact sectioned_measured (shows_plainCall tick_call _)
  | atecc608a => exact sectioned_measured (.pure ())
  | relic =>
    exact (sectioned_measured (shows_initCalls tick_call _ _ _)).then_unopened fun _ =>
      .act fun _ e he => by rw [List.mem_singleton.mp he]; rfl

theorem sectioned_iteration [DecidableEq Secret] :
    Sectioned (tick energy) (lib.application.iteration (.measured energy) r)
      (lib.parts lib.application.derive1) := by
  have hcompare : Sectioned (tick energy)
      (Application.compareSecrets : EcdhApp Priv Pub Secret Unit) [] :=
    .act fun _ e he => by rw [List.mem_singleton.mp he]; rfl
  have hgen : Sectioned (tick energy) (lib.application.genKeypair (.measured energy) r)
      [lib.switched (.genKeyPair lib.application.priv1 lib.application.pub1)] :=
    sectioned_func (sectioned_checkedPair (shows_call tick_call) (shows_call tick_call) (.pure ()))
  have hderive : Sectioned (tick energy) (lib.application.deriveSharedSecret (.measured energy) r)
      [lib.switched (.sharedSecret .sharedSecret1 lib.application.derive1.1
        lib.application.derive1.2)] :=
    sectioned_func (.bind_unopened (.act fun _ _ he => False.elim (List.not_mem_nil he)) fun _ =>
      sectioned_checkedPair (shows_call tick_call) (shows_call tick_call) hcompare)
  exact sectioned_prologue.bind fun _ => hgen.bind fun _ => hderive

theorem sectioned_main [DecidableEq Secret] (n : Nat) (replies : Nat → Replies Priv Pub Secret) :
    Sectioned (tick energy) (lib.application.main (.measured energy) n replies)
      (List.replicate n (lib.parts lib.application.derive1)).flatten := by
  have hcalls (cs : List Call) :
      Sectioned (tick energy) (cs.forM plainCall : EcdhApp Priv Pub Secret Unit) [] :=
    .forM fun _ => .emit rfl
  have htrigger : Sectioned (tick energy)
      (initTrigger (.measured energy) : EcdhApp Priv Pub Secret Unit) [] := by
    cases energy with
    | true =>
      exact .bind_unopened (.emit rfl) fun _ => .bind_unopened (.emit rfl) fun _ =>
        .bind_unopened (.emit rfl) fun _ => .bind_unopened (.emit rfl) fun _ => .emit rfl
    | false => exact .bind_unopened (.emit rfl) fun _ => .emit rfl
  refine sectioned_func ((hcalls _).bind_unopened fun _ => ?_)
  refine .then_unopened ?_ fun _ => .bind_unopened (.pure ()) fun _ =>
    (hcalls _).bind_unopened fun _ => sectioned_puts _
  exact (sectioned_puts _).bind_unopened fun _ => htrigger.bind_unopened fun _ =>
    .forRange fun i => sectioned_iteration

end Measured

section Unmeasured
variable {lib : Library} {b : Build} {r : Replies Priv Pub Secret}

theorem use_call (c : Call) (ok : Bool) : use (.call c ok) = some (.call c) := rfl

theorem shows_func {σ : Type} {f : Fn} {body : App Call σ Unit} {out : List Use}
    (h : Shows use body out) : Shows use (func f body) out :=
  h.then_unread fun _ => .unread rfl

theorem shows_prologue (hb : b.isMeasured = false) :
    Shows use (lib.application.prologue b r) (lib.initCalls.map .call) := by
  cases lib with
  | microEcc =>
    refine shows_func ?_
    rw [hb]
    exact shows_plainCall use_call _
  | cryptocell =>
    simp only [Library.application, Cryptocell.application, hb]
    exact shows_plainCall use_call _
  | atecc608a =>
    simp only [Library.application, Atecc608a.application, hb]
    exact .pure ()
  | relic =>
    simp only [Library.application, Relic.application, hb]
    exact shows_initCalls use_call _ _ _

theorem shows_iteration [DecidableEq Secret] (hb : b.isMeasured = false) :
    Shows use (lib.application.iteration b r) ((lib.parts lib.ownPair).flatten.map .call) := by
  have hgen : Shows use (lib.application.genKeypair b r)
      ((lib.switched (.genKeyPair lib.application.priv1 lib.application.pub1)).map .call) := by
    refine shows_func ?_
    rw [hb]
    exact (shows_call use_call).then_unread fun _ => .pure ()
  have hderive : Shows use (lib.application.deriveSharedSecret b r)
      ((lib.switched (.sharedSecret .sharedSecret1 lib.ownPair.1 lib.ownPair.2)).map .call) := by
    refine shows_func (.bind_unread (.act fun _ => rfl) fun _ => ?_)
    rw [hb]
    exact (shows_call use_call).then_unread fun _ => .pure ()
  have hparts : (lib.parts lib.ownPair).flatten.map Use.call = lib.initCalls.map .call ++
      ((lib.switched (.genKeyPair lib.application.priv1 lib.application.pub1)).map .call ++
        (lib.switched (.sharedSecret .sharedSecret1 lib.ownPair.1 lib.ownPair.2)).map .call) := by
    simp [Library.parts]
  rw [hparts]
  exact (shows_prologue hb).bind fun _ => hgen.bind fun _ => hderive

theorem shows_main [DecidableEq Secret] (hb : b.isMeasured = false) (n : Nat)
    (replies : Nat → Replies Priv Pub Secret) :
    Shows use (lib.application.main b n replies)
      ((lib.application.setup ++ (lib.parts lib.ownPair).flatten ++ lib.application.teardown).map
        .call) := by
  have hcalls (cs : List Call) :
      Shows use (cs.forM plainCall : EcdhApp Priv Pub Secret Unit) (cs.map .call) := by
    rw [← List.flatMap_pure_eq_map]
    exact .forM fun c => shows_plainCall use_call c
  have hsizes : Shows use (lib.application.sizes.forM diag : EcdhApp Priv Pub Secret Unit) [] := by
    have hnone : (lib.application.sizes.flatMap fun _ => ([] : List Use)) = [] :=
      List.flatMap_eq_nil_iff.mpr fun _ _ => rfl
    rw [← hnone]
    exact .forM fun _ => .unread rfl
  have hexperiment : Shows use (lib.application.experiment b n replies)
      ((lib.parts lib.ownPair).flatten.map .call) := by
    rw [Application.experiment, hb]
    exact shows_iteration hb
  rw [List.map_append, List.map_append, List.append_assoc]
  refine shows_func ((hcalls _).bind fun _ => hexperiment.bind fun _ => ?_)
  exact hsizes.onlyIf.bind_unread fun _ => (hcalls _).then_unread fun _ => .unread rfl

end Unmeasured

/-- The windows of a measured run are those of its iterations, whichever calls fail. A
footprint build makes the calls of one iteration's windows, with the keys of its own
pair for the derivation, and accesses no pin. -/
theorem footprint_of_windows [DecidableEq Secret] (lib : Library) (b : Build)
    (hb : b.isMeasured = false) (energy : Bool) (n : Nat)
    (replies : Nat → Replies Priv Pub Secret) (ins : List Bool) (m : Memory Priv Pub Secret) :
    let run := (lib.application.main (.measured energy) n replies).exec ins m
    let measured := (List.replicate n (lib.parts lib.application.derive1)).flatten
    let footprint := (lib.application.main b n replies).exec ins m
    (windows energy run.trace <+: measured ∧
        (run.value = some () → windows energy run.trace = measured)) ∧
      footprint.value = some () ∧ footprint.trace.filterMap use =
        (lib.application.setup ++ (lib.parts lib.ownPair).flatten ++
          lib.application.teardown).map .call := by
  have hmeasured : Sectioned (tick energy) (lib.application.main (.measured energy) n replies)
      (List.replicate n (lib.parts lib.application.derive1)).flatten := sectioned_main n replies
  obtain ⟨hended, hcalls⟩ := shows_main hb n replies ins m
  refine ⟨⟨hmeasured.begins ins m, fun hvalue => ?_⟩, ?_, hcalls⟩
  · exact hmeasured.ends (hvalue ▸ Option.some_ne_none ())
  · obtain ⟨_, hvalue⟩ := Option.ne_none_iff_exists'.mp hended
    exact hvalue

/-- The stack build of the CryptoCell program, with a library all of whose calls fail. -/
theorem footprint_of_windows_cryptocell :
    ((Library.cryptocell.application.main ⟨false, true, false, false⟩ 50
      fun _ => failingReplies).exec []
      ⟨fun _ => (), fun _ => (), fun _ => ()⟩).trace.filterMap use =
        [.call .getEcDomain, .call .cryptocellEnable,
          .call (.genKeyPair .userPrivKey1 .userPubKey1), .call .cryptocellDisable,
          .call .cryptocellEnable, .call (.sharedSecret .sharedSecret1 .userPrivKey1 .userPubKey1),
          .call .cryptocellDisable] := by
  have h := footprint_of_windows .cryptocell ⟨false, true, false, false⟩ rfl false 50
    (fun _ => failingReplies) [] ⟨fun _ => (), fun _ => (), fun _ => ()⟩
  exact h.2.2

end Ecdh
