import EwsnCrypto.Atecc.Transparency
import EwsnCrypto.Base.Descent
import EwsnCrypto.Base.Monitor

/-!
# The context buffer over a session

The size that a read leaves is the capacity of the next one. It never grows, so no read
overruns the buffer, and every write gives back a whole context, which the last successful
read has left. This is about a chip that fails no command but a read for which there is too
little room; where the first read fails, the cleared buffer is written back.
-/

open InputProgram
open Atecc (Reading Saved Stopwatch atcaSuccess)

namespace ShaContext

variable {Ctx σ Digest : Type}

/-- What a successful read leaves. -/
def readOf : Event Digest → Option Saved
  | .call (.shaReadContext status saved) => if status = atcaSuccess then some saved else none
  | _ => none

/-- What a write sends. -/
def writeOf : Event Digest → Option Saved
  | .call (.shaWriteContext saved) => some saved
  | _ => none

section Bounds
variable (chip : Chip Ctx σ Digest) {message : List UInt8}

/-- The buffer is as large as it was declared, and its size is one that fits. -/
structure InBounds (saved : Saved) : Prop where
  length : saved.context.length = chip.shaContextMaxSize
  size : saved.size ≤ chip.shaContextMaxSize

variable {chip}

theorem inBounds_freshContext : InBounds chip (Atecc.freshContext chip.shaContextMaxSize) :=
  ⟨List.length_replicate, Nat.le_refl _⟩

theorem inBounds_read {saved : Saved} (h : InBounds chip saved) (s : σ) :
    InBounds chip (chip.read s saved).2 := by
  by_cases hfits : chip.size s ≤ saved.size
  · have hsize : (chip.save s).length ≤ saved.context.length := h.length ▸ chip.save_length s
    rw [Chip.read, if_pos hfits]
    refine ⟨?_, Nat.le_trans hfits h.size⟩
    rw [List.length_append, List.length_drop, Chip.size, ← h.length]
    omega
  · rw [Chip.read, if_neg hfits]
    exact h

theorem size_read_le (s : σ) (saved : Saved) : (chip.read s saved).2.size ≤ saved.size := by
  by_cases hfits : chip.size s ≤ saved.size
  · rw [Chip.read, if_pos hfits]
    exact hfits
  · rw [Chip.read, if_neg hfits]

end Bounds

section Sizes
variable {chip : Chip Ctx σ Digest} {message : List UInt8}

/-- The levels are the sizes that are written and the size in the state. -/
abbrev SizesDescend (chip : Chip Ctx σ Digest) (p : Session Ctx σ Digest Unit) : Prop :=
  Descends (fun e => (writeOf e).map Saved.size) (fun board => board.saved.size)
    (fun board => InBounds chip board.saved) p

theorem sizes_check {f : Board Ctx σ → Nat × Board Ctx σ × List (Event Digest)}
    {msg : Nat → Atecc.Event}
    (h : ∀ board, InBounds chip board.saved → InBounds chip (f board).2.1.saved ∧
      Descent board.saved.size ((f board).2.2.filterMap fun e => (writeOf e).map Saved.size)
        (f board).2.1.saved.size) : SizesDescend chip (check (act f) msg) :=
  .bind (.act h) fun _ => .onlyIf (.emit rfl)

theorem sizes_read {msg : Nat → Atecc.Event} :
    SizesDescend chip (check (shaReadContext chip) msg) :=
  sizes_check fun _ h => ⟨inBounds_read h _, size_read_le _ _⟩

theorem sizes_write {msg : Nat → Atecc.Event} :
    SizesDescend chip (check (shaWriteContext chip) msg) :=
  sizes_check fun _ h => ⟨h, Nat.le_refl _, Nat.le_refl _⟩

theorem sizes_hashWithCtxSave : SizesDescend chip (hashWithCtxSave chip message) :=
  have hplain (board : Board Ctx σ) (h : InBounds chip board.saved) :
      InBounds chip board.saved ∧ board.saved.size ≤ board.saved.size := ⟨h, Nat.le_refl _⟩
  .bind (sizes_check hplain) fun _ => .bind sizes_read fun _ => .bind sizes_write fun _ =>
    .bind (sizes_check hplain) fun _ => .bind sizes_read fun _ => .bind sizes_write fun _ =>
    sizes_check hplain

theorem stays_startTrigger (b : Atecc.Build) : Stays (Atecc.startTrigger b) := by
  simp only [Atecc.startTrigger]
  split
  · exact .bind (.pollWhile _ _) fun _ => .bind (.pollWhile _ _) fun _ =>
      .bind (.onlyIf (.emit _)) fun _ => .emit _
  · exact .emit _

theorem stays_stopTrigger (b : Atecc.Build) : Stays (Atecc.stopTrigger b) := by
  simp only [Atecc.stopTrigger]
  split
  · exact .bind (.emit _) fun _ => .bind (.emit _) fun _ => .emit _
  · exact .emit _

theorem sizes_timed (b : Atecc.Build) (numIter : Nat) (watch : Stopwatch) (format : String) :
    SizesDescend chip (timed b numIter watch format fun _ => hashWithCtxSave chip message) :=
  have hround (_ : Nat) : SizesDescend chip (do
      app (Atecc.startTrigger b)
      hashWithCtxSave chip message
      app (Atecc.stopTrigger b)) :=
    .bind (.embed (fun _ => rfl) (fun _ => rfl) (stays_startTrigger b)) fun _ =>
      .bind sizes_hashWithCtxSave fun _ =>
      .embed (fun _ => rfl) (fun _ => rfl) (stays_stopTrigger b)
  .bind (.emit rfl) fun _ => .bind (.onlyIf (.emit rfl)) fun _ => .bind (.forRange hround) fun _ =>
    .bind (.onlyIf (.emit rfl)) fun _ => .bind (.emit rfl) fun _ => .emit rfl

end Sizes

section Contents
variable (chip : Chip Ctx σ Digest) {message : List UInt8}

/-- The monitor keeps what the last successful read has left. A write may come if it
sends just that, and it is a whole context from a buffer that is in bounds. -/
def transfers : Monitor (Option Saved) (Event Digest) where
  next last e := (readOf e).or last
  ok last e := ∀ saved, writeOf e = some saved →
    last = some saved ∧ InBounds chip saved ∧ ∃ s, chip.Holds saved s
  waits _ := True

/-- The buffer holds what the last successful read has left, a context of the chip. -/
structure Filled (last : Option Saved) (saved : Saved) : Prop where
  last : last = some saved
  bounds : InBounds chip saved
  holds : ∃ held, chip.Holds saved held

/-- So it is between two iterations, unless no read has been made yet. -/
def Prepared (last : Option Saved) (saved : Saved) : Prop :=
  saved = Atecc.freshContext chip.shaContextMaxSize ∨ Filled chip last saved

variable {chip} {last : Option Saved} {board : Board Ctx σ} {hash : Ctx × σ} {saved : Saved}
  {msg : Nat → Atecc.Event} {Q : Unit → Option Saved → Board Ctx σ → Prop}

theorem transfers_after (tr : List (Event Digest)) :
    (transfers chip).after last tr = (tr.filterMap readOf).getLast?.or last := by
  induction tr using List.reverseRecOn with
  | nil => rfl
  | append_singleton tr e ih =>
    rw [Monitor.after_append, ih, List.filterMap_append]
    cases hread : readOf e with
    | none => simp [transfers, hread]
    | some saved => simp [transfers, hread]

theorem transfers_app (e : Atecc.Event) (last : Option Saved) :
    (transfers chip).ok last (.app e) ∧ (transfers chip).next last (.app e) = last :=
  ⟨fun _ h => by simp [writeOf] at h, rfl⟩

/-- A read from a buffer that is prepared fills it, or leaves it filled. -/
theorem Prepared.read (h : Prepared chip last saved) (s : σ) :
    Filled chip ((readOf (.call (.shaReadContext (chip.read s saved).1 (chip.read s saved).2) :
      Event Digest)).or last) (chip.read s saved).2 := by
  have hbounds : InBounds chip saved := by
    rcases h with rfl | h
    · exact inBounds_freshContext
    · exact h.bounds
  by_cases hfits : chip.size s ≤ saved.size
  · refine ⟨?_, inBounds_read hbounds s, s, Chip.holds_read_of_le hfits⟩
    simp [Chip.read, hfits, readOf]
  · have hfilled : Filled chip last saved := by
      rcases h with rfl | h
      · exact absurd (chip.save_length s) hfits
      · exact h
    simpa [Chip.read, hfits, readOf, chip.smallBuffer_ne] using hfilled

theorem tracks_check {f : Board Ctx σ → Nat × Board Ctx σ × List (Event Digest)}
    (h : (transfers chip).Accepts last (f board).2.2)
    (hQ : Q () ((transfers chip).after last (f board).2.2) (f board).2.1) :
    Tracks (transfers chip) (check (act f) msg) Q last board := by
  apply tracks_bind
  apply tracks_act h
  exact tracks_onlyIf (tracks_act ⟨(transfers_app _ _).1, trivial⟩ hQ) hQ

theorem tracks_read (h : Prepared chip last saved)
    (hQ : ∀ last saved, Filled chip last saved → Q () last ⟨hash, saved⟩) :
    Tracks (transfers chip) (check (shaReadContext chip) msg) Q last ⟨hash, saved⟩ :=
  tracks_check ⟨fun _ hwrite => by simp [writeOf] at hwrite, trivial⟩ (hQ _ _ (h.read hash.2))

theorem tracks_write (h : Filled chip last saved) (hQ : ∀ hash, Q () last ⟨hash, saved⟩) :
    Tracks (transfers chip) (check (shaWriteContext chip) msg) Q last ⟨hash, saved⟩ := by
  refine tracks_check ⟨fun saved' hwrite => ?_, trivial⟩ (hQ _)
  obtain rfl := Option.some.inj hwrite
  exact ⟨h.last, h.bounds, h.holds⟩

/-- The calls that compute the hash do not touch the buffer. -/
theorem tracks_compute {f : Board Ctx σ → Nat × Board Ctx σ × List (Event Digest)}
    {c : Call Digest} {hash' : Ctx × σ}
    (hf : f ⟨hash, saved⟩ = (atcaSuccess, ⟨hash', saved⟩, [.call c]))
    (hread : readOf (.call c) = none) (hwrite : writeOf (.call c) = none)
    (hQ : Q () last ⟨hash', saved⟩) :
    Tracks (transfers chip) (check (act f) msg) Q last ⟨hash, saved⟩ := by
  have haccepts : (transfers chip).Accepts last (f ⟨hash, saved⟩).2.2 := by
    rw [hf]
    exact ⟨fun _ h => by simp [hwrite] at h, trivial⟩
  apply tracks_check haccepts
  rw [hf]
  simpa [transfers, hread] using hQ

theorem tracks_hashWithCtxSave (h : Prepared chip last saved) :
    Tracks (transfers chip) (hashWithCtxSave chip message)
      (fun _ last board => Prepared chip last board.saved) last ⟨hash, saved⟩ := by
  apply tracks_bind
  refine tracks_compute rfl rfl rfl ?_
  apply tracks_bind
  refine tracks_read h fun last saved hfirst => ?_
  apply tracks_bind
  refine tracks_write hfirst fun hash => ?_
  apply tracks_bind
  refine tracks_compute rfl rfl rfl ?_
  apply tracks_bind
  refine tracks_read (.inr hfirst) fun last saved hsecond => ?_
  apply tracks_bind
  refine tracks_write hsecond fun hash => ?_
  refine tracks_compute rfl rfl rfl ?_
  exact .inr hsecond

theorem tracks_app {p : Atecc.App Unit} (hp : Stays p) (hQ : Q () last board) :
    Tracks (transfers chip) (app p : Session Ctx σ Digest Unit) Q last board := by
  intro ins
  rw [app, embed_exec, hp]
  have hidle (tr : List Atecc.Event) : (transfers chip).Accepts last (tr.map .app) ∧
      (transfers chip).after last (tr.map .app) = last := by
    apply Monitor.idle
    rintro e he
    obtain ⟨e', _, rfl⟩ := List.mem_map.mp he
    exact transfers_app e'
  obtain ⟨haccepts, hafter⟩ := hidle (p.exec ins board.saved).trace
  refine ⟨haccepts, fun _ _ => ?_⟩
  rw [hafter]
  exact hQ

theorem tracks_line {e : Atecc.Event} (hQ : Q () last board) :
    Tracks (transfers chip) (emit (.app e) : Session Ctx σ Digest Unit) Q last board :=
  tracks_act ⟨(transfers_app _ _).1, trivial⟩ hQ

theorem tracks_lineIf {c : Bool} {e : Atecc.Event} (hQ : Q () last board) :
    Tracks (transfers chip) (onlyIf c (emit (.app e)) : Session Ctx σ Digest Unit) Q last board :=
  tracks_onlyIf (tracks_line hQ) hQ

theorem tracks_timed (b : Atecc.Build) (numIter : Nat) (watch : Stopwatch) (format : String)
    (h : Prepared chip last board.saved) :
    Tracks (transfers chip) (timed b numIter watch format fun _ => hashWithCtxSave chip message)
      (fun _ last board => Prepared chip last board.saved) last board := by
  have hround (_ : Nat) (last : Option Saved) (board : Board Ctx σ)
      (h : Prepared chip last board.saved) : Tracks (transfers chip) (do
        app (Atecc.startTrigger b)
        hashWithCtxSave chip message
        app (Atecc.stopTrigger b))
      (fun _ last board => Prepared chip last board.saved) last board := by
    apply tracks_bind
    apply tracks_app (stays_startTrigger b)
    apply tracks_bind
    refine tracks_mono (tracks_hashWithCtxSave h) fun _ _ _ h' => ?_
    exact tracks_app (stays_stopTrigger b) h'
  apply tracks_bind
  apply tracks_line
  apply tracks_bind
  apply tracks_lineIf
  apply tracks_bind
  refine tracks_mono (tracks_forRange (fun last board => Prepared chip last board.saved) h hround)
    fun _ _ _ h' => ?_
  apply tracks_bind
  apply tracks_lineIf
  apply tracks_bind
  apply tracks_line
  exact tracks_line h'

end Contents

/-- In every run of `ata_with_ctx_save`, also in those that wait for ever: the sizes that
are written never grow, every write stays inside the buffer and sends what the last
successful read before it has left, a whole context, and the buffer is in bounds at the end. -/
theorem context_in_bounds (chip : Chip Ctx σ Digest) (message : List UInt8) (b : Atecc.Build)
    (numIter : Nat) (watch : Stopwatch) (ins : List Reading) (board : Board Ctx σ) :
    let run := (ataWithCtxSave chip message b numIter watch).exec ins board
    ((run.trace.filterMap writeOf).map Saved.size).Pairwise (· ≥ ·) ∧
      (∀ pre saved post, run.trace = pre ++ .call (.shaWriteContext saved) :: post →
        (pre.filterMap readOf).getLast? = some saved ∧
        saved.context.length = chip.shaContextMaxSize ∧ saved.size ≤ chip.shaContextMaxSize ∧
        ∃ s, saved.context.take saved.size = chip.save s) ∧
      run.state.saved.context.length = chip.shaContextMaxSize ∧
      run.state.saved.size ≤ chip.shaContextMaxSize := by
  let timedHash : Session Ctx σ Digest Unit :=
    timed b numIter watch "ata_with_ctx_save: %i Bytes int %u us\n"
      fun _ => hashWithCtxSave chip message
  let fresh : Board Ctx σ := ⟨board.hash, Atecc.freshContext chip.shaContextMaxSize⟩
  have hexec : (ataWithCtxSave chip message b numIter watch).exec ins board =
      timedHash.exec ins fresh := by
    rw [ataWithCtxSave, bind_exec, act_exec, andThen_some, List.nil_append]
  have hsizes : SizesDescend chip timedHash := sizes_timed b numIter watch _
  have htracks : Tracks (transfers chip) timedHash
      (fun _ last board => Prepared chip last board.saved) none fresh :=
    tracks_timed b numIter watch _ (.inl rfl)
  obtain ⟨hbounds, hdown⟩ := hsizes ins fresh inBounds_freshContext
  rw [hexec]
  refine ⟨?_, fun pre saved post hsplit => ?_, hbounds.length, hbounds.size⟩
  · rw [List.map_filterMap]
    exact hdown.pairwise
  · obtain ⟨hlast, hinside, s, hholds⟩ := (htracks ins).1.split hsplit saved rfl
    rw [transfers_after, Option.or_none] at hlast
    exact ⟨hlast, hinside.length, hinside.size, s, hholds.context⟩

end ShaContext
