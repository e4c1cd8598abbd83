import EwsnCrypto.Atecc.Context

/-!
# When saving the context is transparent

`context_size` is the capacity of the next read and the size of the last one, so
a read fails for a context that has grown, and the old context is written back.
From what the buffer holds at the start of an iteration follows the state in
which the iteration finishes.
-/

open InputProgram
open Atecc (Reading Saved Stopwatch atcaSuccess)

namespace ShaContext

variable {Ctx σ Digest : Type} (chip : Chip Ctx σ Digest) (message : List UInt8)

namespace Chip

def digest (hash : Ctx × σ) : Digest := (chip.finish hash).1

/-- Of two hash states, the one whose context the buffer holds after a read in
state `s`, where it was that of `held`. -/
def keep (held s : σ) : σ := if chip.size s ≤ chip.size held then s else held

/-- `ctx` and the hash state after the update of a fresh hash. -/
def hashed : Ctx × σ := chip.update message chip.start

/-- `ctx` and the hash state before the finish of an iteration in which the buffer
holds the context of `held` at first. -/
def rehashed (held : σ) : Ctx × σ :=
  let restored := chip.keep held chip.start.2
  let hash := chip.update message (chip.start.1, restored)
  (hash.1, chip.keep restored hash.2)

/-- The state whose context the buffer holds at the start of iteration `i`. -/
def heldAt : Nat → σ
  | 0 => chip.start.2
  | i + 1 => (chip.rehashed message (heldAt i)).2

/-- `ctx` and the hash state before the finish of iteration `i`, when each iteration
updates the state whose context the one before has left. -/
def resumed : Nat → Ctx × σ
  | 0 => chip.hashed message
  | i + 1 =>
    let hash := chip.update message (chip.start.1, (resumed i).2)
    (hash.1, chip.keep (resumed i).2 hash.2)

/-- The buffer holds the context of `s`, and its size. -/
structure Holds (saved : Saved) (s : σ) : Prop where
  size : saved.size = chip.size s
  context : saved.context.take saved.size = chip.save s

/-- After a read in the initial hash state, the buffer holds what it does if it held
the context of `held` before. -/
def Ready (saved : Saved) (held : σ) : Prop :=
  chip.Holds (chip.read chip.start.2 saved).2 (chip.keep held chip.start.2)

variable {chip} {message}

theorem holds_read_of_le {saved : Saved} {s : σ} (h : chip.size s ≤ saved.size) :
    chip.Holds (chip.read s saved).2 s := by
  rw [read, if_pos h]
  exact ⟨rfl, List.take_left⟩

/-- A read that fails leaves the older context. -/
theorem holds_read {saved : Saved} {held : σ} (h : chip.Holds saved held) (s : σ) :
    chip.Holds (chip.read s saved).2 (chip.keep held s) := by
  by_cases hfits : chip.size s ≤ chip.size held
  · rw [keep, if_pos hfits]
    exact holds_read_of_le (h.size ▸ hfits)
  · rw [keep, if_neg hfits, read, if_neg (h.size ▸ hfits)]
    exact h

/-- What is written back is the state whose context is held. -/
theorem load_held {saved : Saved} {held : σ} (h : chip.Holds saved held) (s : σ) :
    chip.load (saved.context.take saved.size) s = held := by
  rw [h.context, chip.load_save]

theorem ready_of_holds {saved : Saved} {held : σ} (h : chip.Holds saved held) :
    chip.Ready saved held := holds_read h _

theorem ready_freshContext :
    chip.Ready (Atecc.freshContext chip.shaContextMaxSize) chip.start.2 := by
  rw [Ready, keep, ite_self]
  exact holds_read_of_le (chip.save_length _)

/-- A hash that starts anew keeps the update unless its context has grown. -/
theorem rehashed_of_le {held : σ} (h : chip.size chip.start.2 ≤ chip.size held) :
    chip.rehashed message held =
      ((chip.hashed message).1, chip.keep chip.start.2 (chip.hashed message).2) := by
  simp only [rehashed, hashed]
  rw [keep, if_pos h]

theorem rehashed_of_lt {held : σ} (h : chip.size held < chip.size chip.start.2) :
    chip.rehashed message held =
      ((chip.update message (chip.start.1, held)).1,
        chip.keep held (chip.update message (chip.start.1, held)).2) := by
  have hkeep : chip.keep held chip.start.2 = held := if_neg (Nat.not_le.mpr h)
  simp only [rehashed, hkeep]

theorem size_keep_le (held s : σ) : chip.size (chip.keep held s) ≤ chip.size held := by
  rw [keep]
  split <;> omega

theorem le_size_keep {n : Nat} {held s : σ} (hheld : n ≤ chip.size held) (hs : n ≤ chip.size s) :
    n ≤ chip.size (chip.keep held s) := by
  rw [keep]
  split <;> omega

theorem size_heldAt (h : chip.size chip.start.2 ≤ chip.size (chip.hashed message).2) (i : Nat) :
    chip.size chip.start.2 ≤ chip.size (chip.heldAt message i) := by
  induction i with
  | zero => exact Nat.le_refl _
  | succ i ih =>
    rw [heldAt, rehashed_of_le ih]
    exact le_size_keep (Nat.le_refl _) h

theorem size_resumed (h : chip.size (chip.hashed message).2 < chip.size chip.start.2) (i : Nat) :
    chip.size (chip.resumed message i).2 < chip.size chip.start.2 := by
  induction i with
  | zero => exact h
  | succ i ih => exact Nat.lt_of_le_of_lt (size_keep_le _ _) ih

/-- As long as the update does not make the context smaller, every iteration hashes
anew. -/
theorem rehashed_heldAt_of_le (h : chip.size chip.start.2 ≤ chip.size (chip.hashed message).2)
    (i : Nat) : chip.rehashed message (chip.heldAt message i) =
      ((chip.hashed message).1, chip.keep chip.start.2 (chip.hashed message).2) :=
  rehashed_of_le (size_heldAt h i)

/-- Once the buffer holds a context smaller than that of a fresh hash, no fresh
hash is read any more. -/
theorem rehashed_heldAt_of_lt (h : chip.size (chip.hashed message).2 < chip.size chip.start.2)
    (i : Nat) : chip.rehashed message (chip.heldAt message i) = chip.resumed message i := by
  induction i with
  | zero =>
    have hkeep : chip.keep chip.start.2 (chip.hashed message).2 = (chip.hashed message).2 :=
      if_pos (Nat.le_of_lt h)
    rw [heldAt, rehashed_of_le (Nat.le_refl _), hkeep, resumed]
  | succ i ih => rw [heldAt, ih, rehashed_of_lt (size_resumed h i), resumed]

end Chip

/-- The context is as large after the update as before it; or it is larger, and the
chip gives the same digest without the update; or it is smaller, and going on from
one iteration to the next does not change the digest. -/
def SurvivesSaving (chip : Chip Ctx σ Digest) (message : List UInt8) (numIter : Nat) : Prop :=
  numIter = 0 ∨
  chip.size (chip.hashed message).2 = chip.size chip.start.2 ∨
  chip.size chip.start.2 < chip.size (chip.hashed message).2 ∧
    chip.digest ((chip.hashed message).1, chip.start.2) = chip.digest (chip.hashed message) ∨
  chip.size (chip.hashed message).2 < chip.size chip.start.2 ∧
    ∀ i < numIter, chip.digest (chip.resumed message i) = chip.digest (chip.hashed message)

theorem digests_agree_iff (numIter : Nat) :
    (∀ i < numIter, chip.digest (chip.rehashed message (chip.heldAt message i)) =
      chip.digest (chip.hashed message)) ↔ SurvivesSaving chip message numIter := by
  rcases Nat.lt_trichotomy (chip.size chip.start.2) (chip.size (chip.hashed message).2) with
    hgrown | hsame | hshrunk
  · have hstale : chip.keep chip.start.2 (chip.hashed message).2 = chip.start.2 :=
      if_neg (Nat.not_le.mpr hgrown)
    simp only [Chip.rehashed_heldAt_of_le (Nat.le_of_lt hgrown), hstale]
    constructor
    · intro h
      rcases Nat.eq_zero_or_pos numIter with hzero | hpos
      · exact .inl hzero
      · exact .inr (.inr (.inl ⟨hgrown, h 0 hpos⟩))
    · rintro (rfl | hsame | ⟨_, h⟩ | ⟨hshrunk, _⟩) i hi
      · omega
      · omega
      · exact h
      · omega
  · have hkept : chip.keep chip.start.2 (chip.hashed message).2 = (chip.hashed message).2 :=
      if_pos (Nat.le_of_eq hsame.symm)
    simp only [Chip.rehashed_heldAt_of_le (Nat.le_of_eq hsame), hkept]
    exact ⟨fun _ => .inr (.inl hsame.symm), fun _ _ _ => trivial⟩
  · simp only [Chip.rehashed_heldAt_of_lt hshrunk]
    constructor
    · intro h
      exact .inr (.inr (.inr ⟨hshrunk, h⟩))
    · rintro (rfl | hsame | ⟨hgrown, _⟩ | ⟨_, h⟩) i hi
      · omega
      · omega
      · omega
      · exact h i hi

section Calls
variable {chip} {message} {board : Board Ctx σ} {msg : Nat → Atecc.Event}
  {Q : Unit → Board Ctx σ → Prop}

theorem yields_lineIf {c : Bool} {e : Atecc.Event} (hQ : Q () board) :
    Yields digestOf (onlyIf c (emit (.app e)) : Session Ctx σ Digest Unit) [] Q board :=
  yields_of_keeps (keeps_onlyIf (keeps_emit rfl hQ) hQ)

theorem yields_line {e : Atecc.Event} (hQ : Q () board) :
    Yields digestOf (emit (.app e) : Session Ctx σ Digest Unit) [] Q board :=
  yields_of_keeps (keeps_emit rfl hQ)

theorem yields_check {f : Board Ctx σ → Nat × Board Ctx σ × List (Event Digest)}
    {out : List Digest} (hout : (f board).2.2.filterMap digestOf = out) (hQ : Q () (f board).2.1) :
    Yields digestOf (check (act f) msg) out Q board := by
  apply yields_bind_then_silent
  rw [← hout]
  apply yields_act
  exact yields_lineIf hQ

variable {hash : Ctx × σ} {saved : Saved}

theorem yields_init (hQ : Q () ⟨chip.start, saved⟩) :
    Yields digestOf (check (hwSha2Init chip) msg) [] Q ⟨hash, saved⟩ := yields_check rfl hQ

theorem yields_update (hQ : Q () ⟨chip.update message hash, saved⟩) :
    Yields digestOf (check (hwSha2Update chip message) msg) [] Q ⟨hash, saved⟩ :=
  yields_check rfl hQ

theorem yields_finish (hQ : Q () ⟨(chip.finish hash).2, saved⟩) :
    Yields digestOf (check (hwSha2Finish chip) msg) [chip.digest hash] Q ⟨hash, saved⟩ :=
  yields_check rfl hQ

theorem yields_read (hQ : Q () ⟨hash, (chip.read hash.2 saved).2⟩) :
    Yields digestOf (check (shaReadContext chip) msg) [] Q ⟨hash, saved⟩ := yields_check rfl hQ

theorem yields_write {held : σ} (hheld : chip.Holds saved held)
    (hQ : Q () ⟨(hash.1, held), saved⟩) :
    Yields digestOf (check (shaWriteContext chip) msg) [] Q ⟨hash, saved⟩ := by
  rw [← Chip.load_held hheld hash.2] at hQ
  exact yields_check rfl hQ

/-- An iteration leaves the digest of the state that what the buffer held leads to. -/
theorem yields_hashWithCtxSave {held : σ} (hready : chip.Ready saved held) :
    Yields digestOf (hashWithCtxSave chip message) [chip.digest (chip.rehashed message held)]
      (fun _ board => chip.Ready board.saved (chip.rehashed message held).2) ⟨hash, saved⟩ := by
  have hheld := Chip.holds_read hready
    (chip.update message (chip.start.1, chip.keep held chip.start.2)).2
  apply yields_bind_silent
  apply yields_init
  apply yields_bind_silent
  apply yields_read
  apply yields_bind_silent
  apply yields_write hready
  apply yields_bind_silent
  apply yields_update
  apply yields_bind_silent
  apply yields_read
  apply yields_bind_silent
  apply yields_write hheld
  apply yields_finish
  exact Chip.ready_of_holds hheld

theorem yields_hashWithoutCtxSave (i : Nat) :
    Yields digestOf (hashWithoutCtxSave chip message i) [chip.digest (chip.hashed message)]
      (fun _ _ => True) ⟨hash, saved⟩ := by
  apply yields_bind_silent
  apply yields_init
  apply yields_bind_silent
  apply yields_update
  apply yields_finish
  trivial

end Calls

section Trigger
variable {P : Atecc.Event → Prop} (hP : ∀ e, P e)
include hP

theorem keeps_startTrigger (b : Atecc.Build) {Q : Unit → Saved → Prop} {saved : Saved}
    (hQ : Q () saved) : Keeps P (Atecc.startTrigger b) Q saved := by
  simp only [Atecc.startTrigger]
  split
  · apply keeps_bind
    apply keeps_pollWhile (fun _ => hP _)
    apply keeps_bind
    apply keeps_pollWhile (fun _ => hP _)
    apply keeps_bind
    have hclear : Keeps P (Atecc.gpioClear .active) Q saved := keeps_emit (hP _) hQ
    exact keeps_onlyIf (keeps_emit (hP _) hclear) hclear
  · exact keeps_emit (hP _) hQ

theorem keeps_stopTrigger (b : Atecc.Build) {Q : Unit → Saved → Prop} {saved : Saved}
    (hQ : Q () saved) : Keeps P (Atecc.stopTrigger b) Q saved := by
  simp only [Atecc.stopTrigger]
  split
  · apply keeps_bind
    apply keeps_emit (hP _)
    apply keeps_bind
    apply keeps_emit (hP _)
    exact keeps_emit (hP _) hQ
  · exact keeps_emit (hP _) hQ

end Trigger

theorem startTrigger_finishes (b : Atecc.Build) : Finishes (Atecc.startTrigger b) := by
  simp only [Atecc.startTrigger]
  split
  · have hlow : ¬ Reading.high ⟨false, 0⟩ = true := by decide
    have hhigh : ¬ Reading.low ⟨true, 0⟩ = true := by decide
    exact .bind (.pollWhile hlow _) fun _ => .bind (.pollWhile hhigh _) fun _ =>
      .bind (.onlyIf (.emit _)) fun _ => .emit _
  · exact .emit _

theorem stopTrigger_finishes (b : Atecc.Build) : Finishes (Atecc.stopTrigger b) := by
  simp only [Atecc.stopTrigger]
  split
  · exact .bind (.emit _) fun _ => .bind (.emit _) fun _ => .emit _
  · exact .emit _

section Runs
variable {chip} {message} {board : Board Ctx σ}

theorem yields_app {p : Atecc.App Unit} {Q : Unit → Board Ctx σ → Prop}
    (hp : Keeps (fun e => digestOf (.app e : Event Digest) = none) p
      (fun a saved => Q a { board with saved }) board.saved) :
    Yields digestOf (app p : Session Ctx σ Digest Unit) [] Q board :=
  yields_embed (yields_of_keeps hp)

theorem yields_iterate {b : Atecc.Build} {numIter : Nat} {hash : Nat → Session Ctx σ Digest Unit}
    (out : Nat → Digest) (I : Nat → Board Ctx σ → Prop) (start : I 0 board)
    (round : ∀ i board, I i board → Yields digestOf (hash i) [out i] (fun _ => I (i + 1)) board) :
    Yields digestOf (iterate b numIter hash) ((List.range numIter).map out) (fun _ => I numIter)
      board := by
  rw [← List.flatMap_pure_eq_map]
  refine yields_forRange _ I start fun i _ board hI => ?_
  apply yields_bind_silent
  apply yields_app
  apply keeps_startTrigger (fun _ => rfl)
  apply yields_bind_then_silent
  refine yields_mono (round i board hI) fun _ board' hI' => ?_
  apply yields_app
  exact keeps_stopTrigger (fun _ => rfl) b hI'

theorem yields_timed {b : Atecc.Build} {numIter : Nat} {watch : Stopwatch} {format : String}
    {hash : Nat → Session Ctx σ Digest Unit} (out : Nat → Digest) (I : Nat → Board Ctx σ → Prop)
    (start : I 0 board)
    (round : ∀ i board, I i board → Yields digestOf (hash i) [out i] (fun _ => I (i + 1)) board) :
    Yields digestOf (timed b numIter watch format hash) ((List.range numIter).map out)
      (fun _ _ => True) board := by
  apply yields_bind_silent
  apply yields_line
  apply yields_bind_silent
  apply yields_lineIf
  apply yields_bind_then_silent
  refine yields_mono (yields_iterate out I start round) fun _ _ _ => ?_
  apply yields_bind_silent
  apply yields_lineIf
  apply yields_bind_silent
  apply yields_line
  exact yields_line trivial

theorem timed_finishes {b : Atecc.Build} {numIter : Nat} {watch : Stopwatch} {format : String}
    {hash : Nat → Session Ctx σ Digest Unit} (h : ∀ i, Finishes (hash i)) :
    Finishes (timed b numIter watch format hash) :=
  have hround (i : Nat) := Finishes.bind (startTrigger_finishes b).embed fun _ =>
    (h i).bind fun _ => (stopTrigger_finishes b).embed
  .bind (.emit _) fun _ => .bind (.onlyIf (.emit _)) fun _ => .bind (.forRange hround) fun _ =>
    .bind (.onlyIf (.emit _)) fun _ => .bind (.emit _) fun _ => .emit _

theorem check_finishes (f : Board Ctx σ → Nat × Board Ctx σ × List (Event Digest))
    (msg : Nat → Atecc.Event) : Finishes (check (act f) msg) :=
  .bind (.act f) fun _ => .onlyIf (.emit _)

end Runs

section Programs
variable (board : Board Ctx σ) (b : Atecc.Build) (numIter : Nat) (watch : Stopwatch)

theorem yields_ataWithCtxSave :
    Yields digestOf (ataWithCtxSave chip message b numIter watch)
      ((List.range numIter).map fun i =>
        chip.digest (chip.rehashed message (chip.heldAt message i)))
      (fun _ _ => True) board := by
  apply yields_bind_silent
  apply yields_act
  exact yields_timed _ (fun i board => chip.Ready board.saved (chip.heldAt message i))
    Chip.ready_freshContext fun i ⟨_, _⟩ hready => yields_hashWithCtxSave hready

theorem yields_ataWithoutCtxSave :
    Yields digestOf (ataWithoutCtxSave chip message b numIter watch)
      ((List.range numIter).map fun _ => chip.digest (chip.hashed message)) (fun _ _ => True)
      board :=
  yields_timed _ (fun _ _ => True) trivial fun i ⟨_, _⟩ _ => yields_hashWithoutCtxSave i

theorem ataWithCtxSave_finishes :
    Finishes (ataWithCtxSave chip message b numIter watch) :=
  .bind (.act _) fun _ => timed_finishes fun _ =>
    .bind (check_finishes _ _) fun _ => .bind (check_finishes _ _) fun _ =>
    .bind (check_finishes _ _) fun _ => .bind (check_finishes _ _) fun _ =>
    .bind (check_finishes _ _) fun _ => .bind (check_finishes _ _) fun _ => check_finishes _ _

theorem ataWithoutCtxSave_finishes :
    Finishes (ataWithoutCtxSave chip message b numIter watch) :=
  timed_finishes fun _ => .bind (check_finishes _ _) fun _ => .bind (check_finishes _ _) fun _ =>
    check_finishes _ _

end Programs

/-- In every pair of builds, saving the context leaves all digests alone iff the
sizes of the contexts let it. -/
theorem transparent_iff (numIter : Nat) (b b' : Atecc.Build) :
    Transparent chip message numIter b b' ↔ SurvivesSaving chip message numIter := by
  rw [← digests_agree_iff]
  constructor
  · intro h i hi
    have board : Board Ctx σ := ⟨chip.start, Atecc.freshContext chip.shaContextMaxSize⟩
    have watch : Stopwatch := ⟨0, 0⟩
    obtain ⟨ins, hins⟩ := (yields_ataWithCtxSave chip message board b numIter watch).complete
      (ataWithCtxSave_finishes chip message b numIter watch)
    obtain ⟨ins', hins'⟩ := (yields_ataWithoutCtxSave chip message board b' numIter watch).complete
      (ataWithoutCtxSave_finishes chip message b' numIter watch)
    apply h watch watch ins ins' board board i
    · rw [digests, hins]
      simp [hi]
    · rw [digests, hins']
      simp [hi]
  · intro h watch watch' ins ins' board board' i d d' hd hd'
    have hwith := (yields_ataWithCtxSave chip message board b numIter watch).getElem? hd
    have hwithout := (yields_ataWithoutCtxSave chip message board' b' numIter watch').getElem? hd'
    simp only [List.getElem?_map, Option.map_eq_some_iff] at hwith hwithout
    obtain ⟨k, hk, rfl⟩ := hwith
    obtain ⟨_, _, rfl⟩ := hwithout
    obtain ⟨hik, rfl⟩ := List.getElem?_eq_some_iff.mp hk
    rw [List.length_range] at hik
    rw [List.getElem_range]
    exact h i hik

section Counterexample

/-- A chip that has received a block of 64 bytes, or none yet. With the block its
context grows from 40 to 72 bytes. -/
def blockChip : Chip Unit Bool Bool where
  start := ((), false)
  update message hash := ((), hash.2 || decide (64 ≤ message.length))
  finish hash := (hash.2, hash)
  save received := List.replicate (if received then 72 else 40) 0
  load context _ := decide (context.length = 72)
  shaContextMaxSize := 99
  smallBuffer := 0xED
  maxSize_lt := by decide
  save_length := by decide
  load_save := by decide
  smallBuffer_ne := by decide

/-- Messages that stay in the library do not change the context. -/
example (message : List UInt8) (h : message.length < 64) (numIter : Nat) :
    SurvivesSaving blockChip message numIter := by
  have hstays : (blockChip.hashed message).2 = false := decide_eq_false (by omega)
  exact .inr (.inl (by rw [hstays]; rfl))

def savingBuild : Atecc.Build := ⟨false, false, true, false, false⟩

def plainBuild : Atecc.Build := ⟨false, false, false, false, false⟩

/-- The second read of the first iteration fails, and the state before the update
is written back. -/
theorem grown_context_loses_update :
    ¬ Transparent blockChip (List.replicate 64 0) 1 savingBuild plainBuild := by
  intro htransparent
  exact Bool.false_ne_true (htransparent ⟨0, 0⟩ ⟨0, 0⟩ [] [] ⟨blockChip.start, ⟨[], 0⟩⟩
    ⟨blockChip.start, ⟨[], 0⟩⟩ 0 false true (by decide +kernel) (by decide +kernel))

end Counterexample

end ShaContext
