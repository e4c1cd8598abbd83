import EwsnCrypto.Ecc.Windows

/-!
# The handshake of an energy measurement

The measuring instrument asks for a round by a pulse on the sync pin. The program
polls the pin, lowers the start pin for the operation, and closes the window with
a pulse on the stop pin. Here is what a trace must look like for the two sides to
agree on the number of windows, and why one polled round keeps it so.
-/

open InputProgram Trigger EccSteps Windows

namespace EnergyHandshake

variable {C σ α : Type}

def reading : Event C → Option Bool
  | .gpioRead .sync high => some high
  | _ => none

def pinWrite : Event C → Option (Pin × Bool)
  | .gpioWrite p high => some (p, high)
  | _ => none

/-- The readings of the sync pin, in order. -/
def readings (tr : List (Event C)) : List Bool := tr.filterMap reading

/-- The levels written to the output pins, in order. -/
def waveform (tr : List (Event C)) : List (Pin × Bool) := tr.filterMap pinWrite

/-- Low-to-high transitions between consecutive readings. -/
def rises : List Bool → Nat
  | false :: true :: xs => rises (true :: xs) + 1
  | _ :: xs => rises xs
  | [] => 0

/-- Start-low, stop-high, start-high, stop-low. -/
def cycle : List (Pin × Bool) :=
  [(.active, false), (.aesKey, true), (.active, true), (.aesKey, false)]

def cycles (k : Nat) : List (Pin × Bool) := (List.replicate k cycle).flatten

/-- Falling edges of the start pin, where it starts high. -/
def windows (tr : List (Event C)) : Nat := (waveform tr).count (.active, false)

/-- What holds where a window opens: the last two events are the readings of a
transition, and no window has been opened for it. -/
structure MayOpen (h : List (Event C)) : Prop where
  rise : ∃ h', h = h' ++ [.gpioRead .sync false, .gpioRead .sync true]
  count : windows h + 1 = rises (readings h)

/-- What holds where the program waits for the sync pin: every transition had its
window, all windows are closed, start is high and stop is low. -/
structure Waits (init h : List (Event C)) : Prop where
  count : windows h = rises (readings h)
  complete : waveform h = cycles (windows h)
  idle : PinsIdle true (init ++ h)

/-- The trace `tr` of an energy measurement whose initialisation was `init`. -/
structure Handshake (init tr : List (Event C)) : Prop where
  opens : ∀ pre post, tr = pre ++ .gpioWrite .active false :: post → MayOpen pre
  reads : ∀ pre high post, tr = pre ++ .gpioRead .sync high :: post → Waits init pre
  ends : Waits init tr

def monitor (init : List (Event C)) : Monitor (List (Event C)) (Event C) :=
  history (fun h e => (e = .gpioWrite .active false → MayOpen h) ∧
    ∀ high, e = .gpioRead .sync high → Waits init h) (Waits init)

section Extension
variable {init h : List (Event C)} {e : Event C}

theorem readings_concat (e : Event C) : readings (h ++ [e]) = readings h ++ (reading e).toList := by
  cases he : reading e <;> simp [readings, he]

theorem waveform_concat (e : Event C) :
    waveform (h ++ [e]) = waveform h ++ (pinWrite e).toList := by
  cases he : pinWrite e <;> simp [waveform, he]

theorem rises_concat (xs : List Bool) (x : Bool) :
    rises (xs ++ [x]) = rises xs + if xs.getLast? = some false ∧ x = true then 1 else 0 := by
  induction xs using rises.induct with
  | case1 xs ih =>
    have hlast : (false :: true :: xs).getLast? = (true :: xs).getLast? := List.getLast?_cons_cons
    simp only [List.cons_append, rises] at ih ⊢
    rw [hlast, ih]
    omega
  | case2 y xs hne ih =>
    cases xs with
    | nil => cases y <;> cases x <;> simp [rises]
    | cons z zs =>
      have hlast : (y :: z :: zs).getLast? = (z :: zs).getLast? := List.getLast?_cons_cons
      have hskip (zs : List Bool) : rises (y :: z :: zs) = rises (z :: zs) := by
        cases y
        · cases z
          · rfl
          · exact False.elim (hne _ rfl rfl)
        · cases z <;> rfl
      rw [List.cons_append, List.cons_append, hskip, hskip, hlast]
      exact ih
  | case3 => simp [rises]

theorem cycles_succ (k : Nat) : cycles (k + 1) = cycles k ++ cycle := by
  simp [cycles, List.replicate_succ', List.flatten_append]

theorem windows_concat (e : Event C) :
    windows (h ++ [e]) = windows h + if pinWrite e = some (.active, false) then 1 else 0 := by
  cases he : pinWrite e <;>
    simp [windows, waveform_concat, he, List.count_append, List.count_singleton]

theorem level_concat (p : Pin) (e : Event C) :
    level p (init ++ (h ++ [e])) = (writtenLevel p e).or (level p (init ++ h)) := by
  rw [← List.append_assoc]
  simp only [level, writes_concat, getLast?_append_toList]

end Extension

/-- Between windows the last reading is that of the last transition. -/
structure Between (init h : List (Event C)) : Prop extends Waits init h where
  last : (readings h).getLast? ≠ some false

/-- The second loop has the low level as its last reading. -/
structure SeenLow (init h : List (Event C)) : Prop extends Waits init h where
  last : ∃ h', h = h' ++ [.gpioRead .sync false]

/-- A transition has been read. -/
structure Risen (init h : List (Event C)) : Prop extends MayOpen h where
  complete : waveform h = cycles (windows h)
  idle : PinsIdle true (init ++ h)

/-- The last window is open; its transition was the last reading. -/
structure Opened (h : List (Event C)) : Prop where
  count : windows h = rises (readings h)
  last : (readings h).getLast? = some true
  complete : ∃ k, windows h = k + 1 ∧ waveform h = cycles k ++ [(.active, false)]

section Steps
variable {init h : List (Event C)} {e : Event C}

/-- A reading that is no transition leaves the program waiting. -/
theorem Waits.read {high : Bool} (hs : Waits init h)
    (hflat : ¬ ((readings h).getLast? = some false ∧ high = true)) :
    Waits init (h ++ [.gpioRead .sync high]) := by
  have hwindows : windows (h ++ [.gpioRead .sync high]) = windows h := by
    simp [windows_concat, pinWrite]
  constructor
  · rw [hwindows, hs.count, readings_concat]
    simp only [reading, Option.toList_some, rises_concat, hflat, if_false, Nat.add_zero]
  · rw [hwindows, waveform_concat, hs.complete]
    simp [pinWrite]
  · simpa [PinsIdle, level_concat, writtenLevel] using hs.idle

theorem follows_whileSyncHigh :
    Follows (monitor init) (Between init) (whileSyncHigh : App C σ Unit) (SeenLow init) := by
  refine follows_pollWhile (fun h hs => hs.toWaits) ?_ ?_ ?_
  · intro h high hs
    exact ⟨by simp, fun _ _ => hs.toWaits⟩
  · intro h high hs hhigh
    obtain rfl : high = true := hhigh
    refine ⟨hs.toWaits.read fun hrise => hs.last hrise.1, ?_⟩
    simp [monitor, history, readings_concat, reading]
  · intro h high hs hlow
    obtain rfl : high = false := by simpa using hlow
    exact ⟨hs.toWaits.read (by simp), h, rfl⟩

theorem SeenLow.last_reading (hs : SeenLow init h) : (readings h).getLast? = some false := by
  obtain ⟨h', rfl⟩ := hs.last
  simp [readings_concat, reading]

theorem follows_whileSyncLow :
    Follows (monitor init) (SeenLow init) (whileSyncLow : App C σ Unit) (Risen init) := by
  refine follows_pollWhile (fun h hs => hs.toWaits) ?_ ?_ ?_
  · intro h high hs
    exact ⟨by simp, fun _ _ => hs.toWaits⟩
  · intro h high hs hlow
    obtain rfl : high = false := by simpa using hlow
    exact ⟨hs.toWaits.read (by simp), h, rfl⟩
  · intro h high hs hhigh
    obtain rfl : high = true := by simpa using hhigh
    have hwindows : windows (h ++ [.gpioRead .sync true]) = windows h := by
      simp [windows_concat, pinWrite]
    refine ⟨⟨?_, ?_⟩, ?_, ?_⟩
    · obtain ⟨h', rfl⟩ := hs.last
      exact ⟨h', by simp [monitor, history]⟩
    · simp only [monitor, history]
      rw [hwindows, hs.count, readings_concat]
      simp [reading, rises_concat, hs.last_reading]
    · simp only [monitor, history]
      rw [hwindows, waveform_concat, hs.complete]
      simp [pinWrite]
    · simpa [monitor, history, PinsIdle, level_concat, writtenLevel] using hs.idle

theorem follows_gpioClear :
    Follows (monitor init) (Risen init) (gpioClear .active : App C σ Unit) Opened := by
  refine follows_emit fun h hs => ⟨⟨fun _ => hs.toMayOpen, by simp⟩, ?_⟩
  obtain ⟨h', hrise⟩ := hs.rise
  have hwindows : windows (h ++ [.gpioWrite .active false]) = windows h + 1 := by
    simp [windows_concat, pinWrite]
  have hreadings : readings (h ++ [.gpioWrite .active false]) = readings h := by
    simp [readings_concat, reading]
  simp only [monitor, history]
  refine ⟨?_, ?_, windows h, hwindows, ?_⟩
  · rw [hwindows, hreadings, hs.count]
  · rw [hreadings, hrise]
    simp [readings, reading]
  · rw [waveform_concat, hs.complete]
    rfl

/-- The three writes of `_stop_trigger` complete the cycle. -/
theorem Opened.close (hs : Opened h) :
    Between init (h ++ [.gpioWrite .aesKey true] ++ [.gpioWrite .active true] ++
      [.gpioWrite .aesKey false]) := by
  obtain ⟨k, hk, hwave⟩ := hs.complete
  have hwindows : windows (h ++ [.gpioWrite .aesKey true] ++ [.gpioWrite .active true] ++
      [.gpioWrite .aesKey false]) = k + 1 := by
    rw [windows_concat, windows_concat, windows_concat]
    simp [pinWrite, hk]
  have hreadings : readings (h ++ [.gpioWrite .aesKey true] ++ [.gpioWrite .active true] ++
      [.gpioWrite .aesKey false]) = readings h := by
    rw [readings_concat, readings_concat, readings_concat]
    simp [reading]
  refine ⟨⟨?_, ?_, ?_⟩, ?_⟩
  · rw [hwindows, hreadings, ← hs.count, hk]
  · rw [hwindows, cycles_succ, waveform_concat, waveform_concat, waveform_concat, hwave]
    simp [pinWrite, cycle]
  · simp only [PinsIdle, level_concat]
    simp [writtenLevel]
  · rw [hreadings, hs.last]
    simp

theorem follows_close :
    Follows (monitor init) Opened (gpioSet .aesKey >>= fun _ => gpioSet .active >>= fun _ =>
      gpioClear .aesKey : App C σ Unit) (Between init) := by
  intro h hs ins st
  have hclose : Between init _ := hs.close
  constructor
  · simp [gpioSet, gpioClear, monitor, history]
  · simpa [gpioSet, gpioClear, monitor, history] using hclose

end Steps

/-- What runs inside a window. -/
abbrev Operation (C σ α : Type) : Type := {p : App C σ α // Quiet p}

section Visible
variable {init h tr : List (Event C)}

theorem filterMap_visible {β : Type} {f : Event C → Option β}
    (hf : ∀ e, visible e = true → f e = none) (htr : ∀ e ∈ tr, visible e = true) :
    tr.filterMap f = [] :=
  List.filterMap_eq_nil_iff.mpr fun e he => hf e (htr e he)

theorem reading_of_visible {e : Event C} (he : visible e = true) : reading e = none := by
  cases e <;> simp_all [reading]

theorem pinWrite_of_visible {e : Event C} (he : visible e = true) : pinWrite e = none := by
  cases e <;> simp_all [pinWrite]

theorem readings_append (htr : ∀ e ∈ tr, visible e = true) : readings (h ++ tr) = readings h := by
  simp only [readings, List.filterMap_append, filterMap_visible (fun _ => reading_of_visible) htr,
    List.append_nil]

theorem waveform_append (htr : ∀ e ∈ tr, visible e = true) : waveform (h ++ tr) = waveform h := by
  simp only [waveform, List.filterMap_append, filterMap_visible (fun _ => pinWrite_of_visible) htr,
    List.append_nil]

theorem level_append (p : Pin) (htr : ∀ e ∈ tr, visible e = true) :
    level p (init ++ (h ++ tr)) = level p (init ++ h) := by
  have hwritten : tr.filterMap (writtenLevel p) = [] := by
    refine filterMap_visible (fun e he => ?_) htr
    cases e <;> simp_all [writtenLevel]
  simp only [level, writes, List.filterMap_append, hwritten, List.append_nil]

theorem Between.append (hs : Between init h) (htr : ∀ e ∈ tr, visible e = true) :
    Between init (h ++ tr) := by
  have hwindows : windows (h ++ tr) = windows h := by rw [windows, waveform_append htr, windows]
  refine ⟨⟨?_, ?_, ?_⟩, ?_⟩
  · rw [hwindows, readings_append htr, hs.count]
  · rw [hwindows, waveform_append htr, hs.complete]
  · simpa only [PinsIdle, level_append _ htr] using hs.idle
  · rw [readings_append htr]
    exact hs.last

theorem Opened.append (hs : Opened h) (htr : ∀ e ∈ tr, visible e = true) : Opened (h ++ tr) := by
  have hwindows : windows (h ++ tr) = windows h := by rw [windows, waveform_append htr, windows]
  refine ⟨?_, ?_, ?_⟩
  · rw [hwindows, readings_append htr, hs.count]
  · rw [readings_append htr, hs.last]
  · rw [hwindows, waveform_append htr]
    exact hs.complete

theorem accepts_visible (htr : ∀ e ∈ tr, visible e = true) : (monitor init).Accepts h tr := by
  induction tr generalizing h with
  | nil => trivial
  | cons e tr ih =>
    obtain ⟨hhead, htail⟩ := List.forall_mem_cons.mp htr
    refine ⟨⟨?_, ?_⟩, ih htail⟩
    · rintro rfl
      simp at hhead
    · rintro high rfl
      simp at hhead

/-- A quiet program keeps what does not depend on visible events. -/
theorem quiet_follows {I : List (Event C) → Prop} {p : App C σ α} (hp : Quiet p)
    (hI : ∀ h tr, I h → (∀ e ∈ tr, Trigger.visible e = true) → I (h ++ tr)) :
    Follows (monitor init) I p I := by
  intro h hs ins st
  refine ⟨accepts_visible (hp.visible ins st), ?_⟩
  obtain ⟨a, ha⟩ := hp.finishes ins st
  rw [ha]
  have hafter : (monitor init).after h (p.exec ins st).trace = h ++ (p.exec ins st).trace :=
    history_after _ _
  simpa only [hafter] using hI h _ hs (hp.visible ins st)

end Visible

section Rounds
variable {init : List (Event C)} {b : Build}

theorem follows_measured (hb : b.testEnergy = true) {p : App C σ α} (hp : Quiet p) :
    Follows (monitor init) (Between init) (measured b p) (Between init) := by
  have hstart : Follows (monitor init) (Between init) (startTrigger b : App C σ Unit) Opened := by
    simp only [startTrigger, hb, if_true]
    exact follows_bind follows_whileSyncHigh fun _ => follows_bind follows_whileSyncLow fun _ =>
      follows_gpioClear
  have hstop : Follows (monitor init) Opened (stopTrigger b : App C σ Unit) (Between init) := by
    simp only [stopTrigger, hb, if_true]
    exact follows_close
  exact follows_bind hstart fun _ =>
    follows_bind (quiet_follows hp fun _ _ => Opened.append) fun r =>
    follows_bind hstop fun _ => follows_pure r

/-- Every program of windows around steady steps keeps the handshake. -/
theorem follows_windowed {role : C → CellRole} {triggered : Bool} (hb : b.testEnergy = true)
    {p : App C σ α} (h : Windowed b triggered role p) :
    Follows (monitor init) (Between init) p (Between init) := by
  induction h with
  | steady h => exact quiet_follows h.quiet fun _ _ => Between.append
  | measured _ h => exact follows_measured hb h.quiet
  | bind _ _ hp hf => exact follows_bind hp hf
  | func _ h => exact follows_bind h fun _ => quiet_follows (.emit rfl) fun _ _ => Between.append

/-- A run that starts right after the initialisation. -/
theorem handshake_of_follows (hinit : PinsIdle true init) {p : App C σ α}
    (hp : Follows (monitor init) (Between init) p (Between init)) (ins : List Bool) (st : σ) :
    Handshake init (p.exec ins st).trace := by
  have hstart : Between init [] := ⟨⟨rfl, rfl, by simpa using hinit⟩, by simp [readings]⟩
  obtain ⟨haccepts, hend⟩ := hp [] hstart ins st
  have hafter (tr : List (Event C)) : (monitor init).after [] tr = tr := history_after _ _
  constructor
  · intro pre post heq
    have hok := haccepts.split heq
    rw [hafter] at hok
    exact hok.1 rfl
  · intro pre high post heq
    have hok := haccepts.split heq
    rw [hafter] at hok
    exact hok.2 high rfl
  · rw [hafter] at hend
    split at hend
    · exact hend.toWaits
    · exact hend

/-- `_init_trigger` with TEST_ENERGY. -/
def triggerEvents : List (Event C) :=
  [.gpioInit .active .output, .gpioInit .aesKey .output, .gpioInit .sync .input,
    .gpioWrite .active true, .gpioWrite .aesKey false]

theorem initTrigger_exec (hb : b.testEnergy = true) (ins : List Bool) (st : σ) :
    (initTrigger b : App C σ Unit).exec ins st = ⟨triggerEvents, st, ins, some ()⟩ := by
  simp [initTrigger, hb, gpioInit, gpioSet, gpioClear, triggerEvents]

/-- The pins are idle behind `_init_trigger`, whatever else came before. -/
theorem triggerEvents_idle {before : List (Event C)} (hbefore : ∀ e ∈ before, visible e = true) :
    PinsIdle true (before ++ triggerEvents) := by
  have hwritten (p : Pin) : before.filterMap (writtenLevel p) = [] := by
    refine filterMap_visible (fun e he => ?_) hbefore
    cases e <;> simp_all [writtenLevel]
  have hactive : writes .active (before ++ triggerEvents) = [true] := by
    simp [writes, hwritten, triggerEvents, List.filterMap_cons, writtenLevel]
  have haesKey : writes .aesKey (before ++ triggerEvents) = [false] := by
    simp [writes, hwritten, triggerEvents, List.filterMap_cons, writtenLevel]
  simp [PinsIdle, level, hactive, haesKey]

/-- What follows `_init_trigger` in a program keeps the handshake. -/
theorem handshake_behind_initTrigger (hb : b.testEnergy = true) {first : App C σ Unit}
    (hfirst : Quiet first) {p : App C σ α}
    (hp : ∀ init, Follows (monitor init) (Between init) p (Between init)) (ins : List Bool)
    (st : σ) :
    ∃ before tr, ((do first; initTrigger b; p).exec ins st).trace = before ++ triggerEvents ++ tr ∧
      (∀ e ∈ before, visible e = true) ∧ Handshake (before ++ triggerEvents) tr := by
  obtain ⟨u, hu⟩ := hfirst.finishes ins st
  refine ⟨(first.exec ins st).trace, (p.exec ins (first.exec ins st).state).trace, ?_,
    hfirst.visible ins st,
    handshake_of_follows (triggerEvents_idle (hfirst.visible ins st)) (hp _) _ _⟩
  rw [bind_exec, andThen_of_value hu, hfirst.rest, bind_exec, initTrigger_exec hb, andThen_some,
    List.append_assoc]

end Rounds

end EnergyHandshake
