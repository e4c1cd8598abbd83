import EwsnCrypto.SwCompare.Model

/-!
# The verdicts of a comparison

The lines of a run are the report of its blocks on the shared buffers, whatever
is measured and however long it takes. So the verdict of a library is the check
of the buffers after its calls.
-/

open InputProgram SharedStore

namespace SwCompare

variable {C B : Type} {m : Memory B} {Q : Unit → Memory B → Prop}

/-- What holds of all memories with these buffers. -/
def Holds (s : B) (Q : Unit → Memory B → Prop) : Prop := ∀ m : Memory B, m.buffers = s → Q () m

theorem yields_unprinted {events : List (Event C)} (hevents : ∀ e ∈ events, lineOf e = none)
    (hQ : Q () m) : Yields lineOf (events.forM emit : App C B Unit) [] Q m := by
  rw [← List.filterMap_eq_nil_iff.mpr hevents]
  exact yields_forM_emit hQ

theorem yields_calls {calls : List C} (hQ : Q () m) :
    Yields lineOf ((calls.map .call).forM emit : App C B Unit) [] Q m :=
  yields_unprinted (List.forall_mem_map.mpr fun _ _ => rfl) hQ

theorem yields_diags {lines : List String} (hQ : Q () m) :
    Yields lineOf ((lines.map .diag).forM emit : App C B Unit) [] Q m :=
  yields_unprinted (List.forall_mem_map.mpr fun _ _ => rfl) hQ

theorem yields_startMeas (b : Build) (hQ : Holds m.buffers Q) :
    Yields lineOf (startMeas b : App C B Unit) [] Q m := by
  apply yields_of_keeps
  rw [startMeas]
  split
  · apply keeps_bind
    refine keeps_readNext (fun _ => rfl) fun now => ?_
    exact keeps_act (by simp) (hQ _ rfl)
  · exact keeps_onlyIf (keeps_emit rfl (hQ m rfl)) (hQ m rfl)

theorem yields_stopMeas (b : Build) (hQ : Holds m.buffers Q) :
    Yields lineOf (stopMeas b : App C B Unit) [] Q m := by
  apply yields_of_keeps
  have hps {m' : Memory B} (hm : m'.buffers = m.buffers) :
      Keeps (fun e => lineOf e = none) (onlyIf b.testStack (emit .ps) : App C B Unit) Q m' :=
    keeps_onlyIf (keeps_emit rfl (hQ m' hm)) (hQ m' hm)
  rw [stopMeas]
  split
  · apply keeps_bind
    refine keeps_readNext (fun _ => rfl) fun now => ?_
    apply keeps_bind
    refine keeps_act (fun e he => ?_) (hps rfl)
    rw [List.mem_singleton.mp he]
    rfl
  · apply keeps_bind
    exact keeps_onlyIf (keeps_emit rfl (hps rfl)) (hps rfl)

theorem yields_steps {steps : List (Step C B)}
    (hQ : Holds (steps.foldl (fun s step => step.effect s) m.buffers) Q) :
    Yields lineOf (steps.forM Step.run : App C B Unit) [] Q m := by
  induction steps generalizing m with
  | nil => exact yields_pure (hQ m rfl)
  | cons step steps ih =>
    apply yields_bind_silent
    exact yields_act (ih hQ)

theorem yields_phases {b : Build} {phases : List (List (Step C B))}
    (hQ : Holds (phases.flatten.foldl (fun s step => step.effect s) m.buffers) Q) :
    Yields lineOf (phases.forM (Block.phase b) : App C B Unit) [] Q m := by
  induction phases generalizing m with
  | nil => exact yields_pure (hQ m rfl)
  | cons steps phases ih =>
    rw [List.flatten_cons, List.foldl_append] at hQ
    apply yields_bind_silent
    apply yields_bind_silent
    apply yields_startMeas
    intro m₁ hm₁
    apply yields_bind_silent
    apply yields_steps
    intro m₂ hm₂
    apply yields_stopMeas
    intro m₃ hm₃
    apply ih
    rw [hm₃, hm₂, hm₁]
    exact hQ

theorem yields_puts {line : String} (hQ : Q () m) :
    Yields lineOf (emit (.puts line) : App C B Unit) [line] Q m := yields_act hQ

theorem yields_gpio {e : Event C} {c : Bool} (he : lineOf e = none) (hQ : Q () m) :
    Yields lineOf (onlyIf c (emit e) : App C B Unit) [] Q m :=
  yields_of_keeps (keeps_onlyIf (keeps_emit he hQ) hQ)

theorem yields_check {block : Block C B} {passes : B → Bool} (hQ : Q () m) :
    Yields lineOf (act fun m => ((), m, if passes m.buffers then [] else [block.error]) :
      App C B Unit) (if passes m.buffers then [] else ["ERROR"]) Q m := by
  have herror : (if passes m.buffers then [] else [block.error]).filterMap lineOf =
      if passes m.buffers then [] else ["ERROR"] := by
    split
    · rfl
    · rw [List.filterMap_cons_some block.error_line, List.filterMap_nil]
  rw [← herror]
  exact yields_act hQ

theorem yields_body (block : Block C B) (b : Build) (passes : B → Bool)
    (hQ : Holds (block.effect m.buffers) Q) :
    Yields lineOf (block.body b passes) (if passes (block.effect m.buffers) then [] else ["ERROR"])
      Q m := by
  apply yields_bind_silent
  apply yields_calls
  apply yields_bind_silent
  apply yields_phases
  intro m' hm'
  apply yields_bind_silent
  apply yields_calls
  apply yields_bind_then_silent
  rw [Block.effect, ← hm']
  apply yields_check
  exact yields_calls (hQ m' hm')

/-- A block prints its name, and ERROR if the check fails behind its calls. -/
theorem yields_program (block : Block C B) (b : Build) (l : Library) (passes : B → Bool)
    (hQ : Holds (block.effect m.buffers) Q) :
    Yields lineOf (block.program b l passes)
      (l.name :: if passes (block.effect m.buffers) then [] else ["ERROR"]) Q m := by
  have hbody := yields_body block b passes hQ
  rw [← List.singleton_append]
  apply yields_bind
  apply yields_puts
  apply yields_bind_silent
  exact yields_onlyIf (yields_diags hbody) hbody

namespace Application
variable (app : Application C B) (b : Build)

theorem yields_blocks (libs : List Library)
    (hQ : Holds (storeAfter app.effect (libs.filter b.enabled) m.buffers) Q) :
    Yields lineOf (app.blocks b libs) (report app.effect app.passes Library.name "ERROR"
      (libs.filter b.enabled) m.buffers) Q m := by
  induction libs generalizing m with
  | nil => exact yields_pure (hQ m rfl)
  | cons l libs ih =>
    cases henabled : b.enabled l with
    | false =>
      rw [List.filter_cons_of_neg (by simp [henabled])] at hQ ⊢
      apply yields_bind_silent
      simp only [henabled, onlyIf_false]
      exact yields_pure (ih hQ)
    | true =>
      rw [List.filter_cons_of_pos henabled] at hQ ⊢
      rw [report, ← List.cons_append]
      apply yields_bind
      simp only [henabled, onlyIf_true]
      apply yields_program
      intro m' hm'
      rw [← Application.effect] at hm'
      rw [← hm']
      apply ih
      rw [hm']
      exact hQ

theorem yields_main :
    Yields lineOf (app.main b)
      (report app.effect app.passes Library.name "ERROR" b.libraries (app.declare m.buffers) ++
        ["DONE"]) (fun _ _ => True) m := by
  apply yields_bind_silent
  refine yields_act ?_
  apply yields_bind_silent
  apply yields_gpio rfl
  apply yields_bind_silent
  apply yields_gpio rfl
  apply yields_bind
  apply yields_blocks
  intro m' _
  exact yields_puts trivial

end Application

theorem startMeas_finishes (b : Build) : Finishes (startMeas b : App C B Unit) := by
  rw [startMeas]
  split
  · exact .bind (.readNext _) fun _ => .act _
  · exact .onlyIf (.emit _)

theorem stopMeas_finishes (b : Build) : Finishes (stopMeas b : App C B Unit) := by
  rw [stopMeas]
  split
  · exact .bind (.readNext _) fun _ => .bind (.act _) fun _ => .onlyIf (.emit _)
  · exact .bind (.onlyIf (.emit _)) fun _ => .onlyIf (.emit _)

theorem program_finishes (block : Block C B) (b : Build) (l : Library) (passes : B → Bool) :
    Finishes (block.program b l passes) :=
  have hphase (steps : List (Step C B)) : Finishes (Block.phase b steps) :=
    .bind (startMeas_finishes b) fun _ => .bind (.forM fun _ => .act _) fun _ => stopMeas_finishes b
  .bind (.emit _) fun _ => .bind (.onlyIf (.forM .emit)) fun _ =>
    .bind (.forM .emit) fun _ => .bind (.forM hphase) fun _ => .bind (.forM .emit) fun _ =>
    .bind (.act _) fun _ => .forM .emit

theorem main_finishes (app : Application C B) (b : Build) : Finishes (app.main b) :=
  .bind (.act _) fun _ => .bind (.onlyIf (.emit _)) fun _ => .bind (.onlyIf (.emit _)) fun _ =>
    .bind (.forM fun _ => .onlyIf (program_finishes _ _ _ _)) fun _ => .emit _

theorem name_injective : Function.Injective Library.name := by
  intro l k h
  cases l <;> cases k <;> first | rfl | exact absurd h (by decide)

theorem name_ne_error (l : Library) : l.name ≠ "ERROR" := by
  cases l <;> decide

theorem name_notMem_done (l : Library) : l.name ∉ ["DONE"] := by
  cases l <;> decide

theorem libraries_nodup (b : Build) : b.libraries.Nodup := by
  have hall : Library.all.Nodup := by decide
  exact List.Pairwise.filter _ hall

theorem mem_libraries {b : Build} {l : Library} (h : b.enabled l = true) : l ∈ b.libraries :=
  List.mem_filter.mpr ⟨by cases l <;> decide, h⟩

theorem libraries_only (b : Build) (l : Library) : (b.only l).libraries = [l] := by
  cases l <;> rfl

namespace Application
variable (app : Application C B) {b : Build} {l : Library} {ins : List UInt32}

/-- The verdict of a library is the check of what its calls leave behind those of
the libraries before it. -/
theorem reportedFor_iff (hl : b.enabled l = true)
    (hdone : ((app.main b).exec ins m).value = some ()) :
    ReportedFor l ((app.main b).exec ins m).trace ↔
      app.passes (app.effect l
        (storeAfter app.effect (before b.libraries l) (app.declare m.buffers))) = false := by
  obtain ⟨hlines, _⟩ := (yields_main app b ins).2 () hdone
  rw [ReportedFor, hlines]
  exact reported_iff name_ne_error (by decide) name_injective name_notMem_done (libraries_nodup b)
    (mem_libraries hl) _

theorem reportedFor_only_iff (hdone : ((app.main (b.only l)).exec ins m).value = some ()) :
    ReportedFor l ((app.main (b.only l)).exec ins m).trace ↔
      app.passes (app.effect l (app.declare m.buffers)) = false := by
  have hl : (b.only l).enabled l = true := decide_eq_true rfl
  rw [reportedFor_iff app hl hdone, libraries_only, before_cons_self]
  rfl

/-- All verdicts are independent iff no library passes the check, alone or behind
the others, without delivering. -/
theorem independent_iff (delivers : Library → Prop) (b : Build) (s : B)
    (hdelivers : ∀ l s, delivers l → app.passes (app.effect l s) = true) :
    app.Independent delivers b s ↔ ∀ l, b.enabled l = true → ¬ delivers l →
      app.passes (app.effect l (app.declare s)) = false ∧
        app.passes (app.effect l
          (storeAfter app.effect (before b.libraries l) (app.declare s))) = false := by
  constructor
  · intro h l hl hfails
    obtain ⟨ins, _, _, _, hexec⟩ := main_finishes app b ⟨0, 0, s⟩
    obtain ⟨ins', _, _, _, hexec'⟩ := main_finishes app (b.only l) ⟨0, 0, s⟩
    have hdone : ((app.main b).exec (ins ++ []) ⟨0, 0, s⟩).value = some () := by rw [hexec]
    have hdone' : ((app.main (b.only l)).exec (ins' ++ []) ⟨0, 0, s⟩).value = some () := by
      rw [hexec']
    obtain ⟨hsame, hreported⟩ := h l hl _ _ _ _ rfl rfl hdone hdone'
    have hall := hreported hfails
    exact ⟨(reportedFor_only_iff app hdone').mp (hsame.mp hall),
      (reportedFor_iff app hl hdone).mp hall⟩
  · rintro h l hl ins ins' m m' rfl hm' all alone hdone hdone'
    rw [reportedFor_iff app hl hdone, reportedFor_only_iff app hdone', hm']
    by_cases hdelivered : delivers l
    · rw [hdelivers l _ hdelivered, hdelivers l _ hdelivered]
      exact ⟨Iff.rfl, absurd hdelivered⟩
    · obtain ⟨halone, hall⟩ := h l hl hdelivered
      rw [halone, hall]
      exact ⟨Iff.rfl, fun _ => rfl⟩

end Application

end SwCompare
