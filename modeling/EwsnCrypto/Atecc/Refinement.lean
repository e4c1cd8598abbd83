import EwsnCrypto.Atecc.Transparency
import EwsnCrypto.Base.Projection

/-!
# The program without the chip

With the answers of the chip as its replies, the program of the application makes
the runs that it makes with the chip in the loop.
-/

open InputProgram
open Atecc (Reading Saved Stopwatch Answer atcaSuccess)

namespace ShaContext

variable {Ctx σ Digest : Type}

/-- The command behind a call, without what the chip has computed. -/
def Call.command : Call Digest → Atecc.Command
  | .hwSha2Init => .hwSha2Init
  | .hwSha2Update message => .hwSha2Update message
  | .hwSha2Finish _ => .hwSha2Finish
  | .shaReadContext _ _ => .shaReadContext
  | .shaWriteContext saved => .shaWriteContext saved

def Event.forget : Event Digest → Atecc.Event
  | .app e => e
  | .call c => .command c.command 0

namespace Chip
variable (chip : Chip Ctx σ Digest) (message : List UInt8)

/-- The two reads of an iteration that finds `saved` in the buffer. -/
def firstRead (saved : Saved) : Nat × Saved := chip.read chip.start.2 saved

def secondRead (saved : Saved) : Nat × Saved :=
  let first := (chip.firstRead saved).2
  let restored := chip.load (first.context.take first.size) chip.start.2
  chip.read (chip.update message (chip.start.1, restored)).2 first

/-- The answers to the commands of an iteration. -/
def answers (saved : Saved) : Nat → Answer
  | 1 => ⟨(chip.firstRead saved).1, 0, (chip.firstRead saved).2⟩
  | 4 => ⟨(chip.secondRead message saved).1, 0, (chip.secondRead message saved).2⟩
  | _ => ⟨atcaSuccess, 0, saved⟩

/-- What iteration `i` finds in the buffer. -/
def savedAt : Nat → Saved
  | 0 => Atecc.freshContext chip.shaContextMaxSize
  | i + 1 => (chip.secondRead message (savedAt i)).2

def replies : Atecc.Replies := fun i => chip.answers message (chip.savedAt message i)

end Chip

section Iteration
variable {chip : Chip Ctx σ Digest} {message : List UInt8} {Q : Unit → Board Ctx σ → Prop}

theorem projects_check {f : Board Ctx σ → Nat × Board Ctx σ × List (Event Digest)}
    {board board' : Board Ctx σ} {status : Nat} {c : Call Digest} {msg : Nat → Atecc.Event}
    {q : Atecc.App Unit} (hf : f board = (status, board', [.call c]))
    (hq : ∀ ins, q.exec ins board.saved = ⟨.command c.command 0 ::
      (if status ≠ atcaSuccess then [msg status] else []), board'.saved, ins, some ()⟩)
    (hQ : Q () board') : Projects Board.saved Event.forget (check (act f) msg) q Q board := by
  intro ins
  have hexec : (check (act f) msg).exec ins board = ⟨.call c ::
      (if status ≠ atcaSuccess then [.app (msg status)] else []), board', ins, some ()⟩ := by
    simp only [check, bind_exec, act_exec, hf, andThen_some]
    by_cases hstatus : status = atcaSuccess <;> simp [hstatus]
  rw [hexec, hq]
  refine ⟨?_, fun _ _ => hQ⟩
  by_cases hstatus : status = atcaSuccess <;> simp [hstatus, Event.forget]

theorem projects_hashWithCtxSave {hash : Ctx × σ} {saved : Saved}
    (hQ : ∀ hash', Q () ⟨hash', (chip.secondRead message saved).2⟩) :
    Projects Board.saved Event.forget (hashWithCtxSave chip message)
      (Atecc.hashWithCtxSave message (chip.answers message saved)) Q ⟨hash, saved⟩ := by
  apply projects_bind
  refine projects_check rfl (fun _ => rfl) ?_
  apply projects_bind
  refine projects_check rfl (fun _ => rfl) ?_
  apply projects_bind
  refine projects_check rfl (fun _ => rfl) ?_
  apply projects_bind
  refine projects_check rfl (fun _ => rfl) ?_
  apply projects_bind
  refine projects_check rfl (fun _ => rfl) ?_
  apply projects_bind
  refine projects_check rfl (fun _ => rfl) ?_
  exact projects_check rfl (fun _ => rfl) (hQ _)

theorem projects_hashWithoutCtxSave {hash : Ctx × σ} {saved : Saved} (i : Nat)
    (hQ : ∀ hash', Q () ⟨hash', saved⟩) :
    Projects Board.saved Event.forget (hashWithoutCtxSave chip message i)
      (Atecc.hashWithoutCtxSave message (fun _ => ⟨atcaSuccess, 0, saved⟩) i) Q ⟨hash, saved⟩ := by
  apply projects_bind
  refine projects_check rfl (fun _ => rfl) ?_
  apply projects_bind
  refine projects_check rfl (fun _ => rfl) ?_
  exact projects_check rfl (fun _ => rfl) (hQ _)

theorem projects_app {p : Atecc.App Unit} {board : Board Ctx σ}
    (hp : Keeps (fun _ => True) p (fun a saved => Q a { board with saved }) board.saved) :
    Projects Board.saved Event.forget (app p : Session Ctx σ Digest Unit) p Q board :=
  projects_embed (fun _ => rfl) (fun _ _ => rfl) hp

theorem projects_line {e : Atecc.Event} {board : Board Ctx σ} (hQ : Q () board) :
    Projects Board.saved Event.forget (emit (.app e) : Session Ctx σ Digest Unit) (emit e) Q
      board := projects_act rfl hQ

theorem projects_lineIf {c : Bool} {e : Atecc.Event} {board : Board Ctx σ} (hQ : Q () board) :
    Projects Board.saved Event.forget (onlyIf c (emit (.app e)) : Session Ctx σ Digest Unit)
      (onlyIf c (emit e)) Q board := projects_onlyIf (projects_line hQ) hQ

section Loop
variable {b : Atecc.Build} {numIter : Nat} {hash : Nat → Session Ctx σ Digest Unit}
  {hash' : Nat → Atecc.App Unit} {board : Board Ctx σ} (I : Nat → Board Ctx σ → Prop)
  (start : I 0 board)
  (round : ∀ i board, I i board →
    Projects Board.saved Event.forget (hash i) (hash' i) (fun _ => I (i + 1)) board)
include start round

theorem projects_iterate :
    Projects Board.saved Event.forget (iterate b numIter hash) (Atecc.iterate b numIter hash')
      (fun _ => I numIter) board := by
  refine projects_forRange I start fun i board hI => ?_
  apply projects_bind
  apply projects_app
  apply keeps_startTrigger (fun _ => trivial)
  apply projects_bind
  refine projects_mono (round i board hI) fun _ board' hI' => ?_
  apply projects_app
  exact keeps_stopTrigger (fun _ => trivial) b hI'

theorem projects_timed {watch : Stopwatch} {format : String} :
    Projects Board.saved Event.forget (timed b numIter watch format hash)
      (Atecc.timed b numIter watch format hash') (fun _ => I numIter) board := by
  apply projects_bind
  apply projects_line
  apply projects_bind
  apply projects_lineIf
  apply projects_bind
  refine projects_mono (projects_iterate I start round) fun _ board hI => ?_
  apply projects_bind
  apply projects_lineIf
  apply projects_bind
  apply projects_line
  exact projects_line hI

end Loop

end Iteration

/-- Seen without the chip, `ata_with_ctx_save` makes the runs of the program whose
replies are the answers of the chip. -/
theorem ataWithCtxSave_projects (chip : Chip Ctx σ Digest) (message : List UInt8)
    (b : Atecc.Build) (numIter : Nat) (watch : Stopwatch) (board : Board Ctx σ) :
    Projects Board.saved Event.forget (ataWithCtxSave chip message b numIter watch)
      (Atecc.ataWithCtxSave b message chip.shaContextMaxSize numIter watch (chip.replies message))
      (fun _ board' => board'.saved = chip.savedAt message numIter) board := by
  apply projects_bind
  apply projects_act rfl
  refine projects_timed (fun i board => board.saved = chip.savedAt message i) rfl ?_
  rintro i ⟨hash, saved⟩ rfl
  exact projects_hashWithCtxSave fun _ => rfl

/-- Without saved contexts every answer is a success. -/
theorem ataWithoutCtxSave_projects (chip : Chip Ctx σ Digest) (message : List UInt8)
    (b : Atecc.Build) (numIter : Nat) (watch : Stopwatch) (board : Board Ctx σ) :
    Projects Board.saved Event.forget (ataWithoutCtxSave chip message b numIter watch)
      (Atecc.ataWithoutCtxSave b message numIter watch fun _ _ => ⟨atcaSuccess, 0, board.saved⟩)
      (fun _ board' => board'.saved = board.saved) board := by
  refine projects_timed (fun _ board' => board'.saved = board.saved) rfl ?_
  rintro i ⟨hash, saved⟩ rfl
  exact projects_hashWithoutCtxSave i fun _ => rfl

end ShaContext
