import EwsnCrypto.Base.Sections
import EwsnCrypto.SwCompare.Independence

/-!
# The measuring modes of a comparison

The same libraries are measured with a timer, with a pin or not at all. The modes
agree in all that is not measurement, and in both measuring modes exactly the calls of
the phases lie in the windows.
-/

open InputProgram SharedStore

namespace SwCompare

variable {C B : Type}

/-- The edges of the measured windows, the calls, and the printed lines. -/
inductive Item (C : Type) where
  | reading
  | level (high : Bool)
  | call (c : C)
  | line (text : String)
deriving DecidableEq

def item : Event C → Option (Item C)
  | .xtimerNow _ => some .reading
  | .gpioWrite high => some (.level high)
  | .call c => some (.call c)
  | .puts line => some (.line line)
  | .printf format _ => if format = "ERROR\n" then some (.line "ERROR") else none
  | _ => none

/-- What is no measurement. -/
def Item.isWork : Item C → Bool
  | .call _ => true
  | .line _ => true
  | _ => false

def work (tr : List (Event C)) : List (Item C) := (tr.filterMap item).filter Item.isWork

/-- A reading of the timer closes the open window, and opens one otherwise. -/
def Item.tick : Item C → Option (Tick C)
  | .reading => some .toggle
  | .level high => some (if high then .opening else .closing)
  | .call c => some (.inside c)
  | .line _ => none

/-- The calls of each window that is closed again. -/
def measured (tr : List (Event C)) : List (List C) :=
  sections none ((tr.filterMap item).filterMap Item.tick)

def Build.measures (b : Build) : Bool := b.useXtimer || b.modeGpio

/-- The window of a phase, if the build has one. -/
def phaseWindow (b : Build) (steps : List (Step C B)) : List (List C) :=
  if b.measures then [steps.map Step.call] else []

def Application.phaseWindows (app : Application C B) (b : Build) : List (List C) :=
  b.libraries.flatMap fun l => (app.block l).phases.flatMap (phaseWindow b)

section Transcript
variable (b : Build)

/-- An edge of a window. -/
def edge (high : Bool) : List (Item C) :=
  if b.useXtimer then [.reading] else if b.modeGpio then [.level high] else []

def phaseItems (steps : List (Step C B)) : List (Item C) :=
  edge b true ++ (steps.map (fun step => .call step.call) ++ edge b false)

def Block.items (block : Block C B) (l : Library) (ok : Bool) : List (Item C) :=
  .line l.name :: (block.setup.map .call ++ (block.phases.flatMap (phaseItems b) ++
    (block.cleanup.map .call ++ ((if ok then [] else [.line "ERROR"]) ++
      block.closing.map .call))))

/-- The items of the blocks, on buffers that hold `s`. -/
def Application.items (app : Application C B) : List Library → B → List (Item C)
  | [], _ => []
  | l :: libs, s => (app.block l).items b l (app.passes (app.effect l s)) ++
      app.items libs (app.effect l s)

def Application.transcript (app : Application C B) (s : B) : List (Item C) :=
  (if b.modeGpio then [.level false] else []) ++ (app.items b b.libraries (app.declare s) ++
    [.line "DONE"])

end Transcript

section Runs
variable {b : Build} {m : Memory B} {Q : Unit → Memory B → Prop}

theorem yields_edge_start (hQ : Holds m.buffers Q) :
    Yields item (startMeas b : App C B Unit) (edge b true) Q m := by
  rw [startMeas, edge]
  split
  · apply yields_bind_then_silent
    exact yields_readNext (fun _ => rfl) fun now => yields_act (hQ _ rfl)
  · cases b.modeGpio with
    | true => exact yields_act (hQ m rfl)
    | false => exact yields_pure (hQ m rfl)

theorem yields_edge_stop (hQ : Holds m.buffers Q) :
    Yields item (stopMeas b : App C B Unit) (edge b false) Q m := by
  have hps {m' : Memory B} (hm : m'.buffers = m.buffers) :
      Yields item (onlyIf b.testStack (emit .ps) : App C B Unit) [] Q m' :=
    yields_onlyIf (yields_act (hQ m' hm)) (hQ m' hm)
  rw [stopMeas, edge]
  split
  · apply yields_bind_then_silent
    refine yields_readNext (fun _ => rfl) fun now => ?_
    apply yields_bind_silent
    exact yields_act (hps rfl)
  · apply yields_bind_then_silent
    cases b.modeGpio with
    | true => exact yields_act (hps rfl)
    | false => exact yields_pure (hps rfl)

theorem yields_callItems {calls : List C} (hQ : Q () m) :
    Yields item ((calls.map .call).forM emit : App C B Unit) (calls.map .call) Q m := by
  have hall : (calls.map (.call : C → Event C)).filterMap item = calls.map .call := by
    rw [List.filterMap_map]
    exact List.filterMap_eq_map (f := Item.call) ▸ rfl
  rw [← hall]
  exact yields_forM_emit hQ

theorem yields_stepItems {steps : List (Step C B)}
    (hQ : Holds (steps.foldl (fun s step => step.effect s) m.buffers) Q) :
    Yields item (steps.forM Step.run : App C B Unit) (steps.map fun step => .call step.call) Q
      m := by
  induction steps generalizing m with
  | nil => exact yields_pure (hQ m rfl)
  | cons step steps ih =>
    have hstep : Yields item (step.run : App C B Unit) [.call step.call]
        (fun _ => Yields item (steps.forM Step.run) (steps.map fun step => .call step.call) Q) m :=
      yields_act (ih hQ)
    exact yields_bind hstep

theorem yields_phaseItems {phases : List (List (Step C B))}
    (hQ : Holds (phases.flatten.foldl (fun s step => step.effect s) m.buffers) Q) :
    Yields item (phases.forM (Block.phase b) : App C B Unit) (phases.flatMap (phaseItems b)) Q
      m := by
  induction phases generalizing m with
  | nil => exact yields_pure (hQ m rfl)
  | cons steps phases ih =>
    rw [List.flatten_cons, List.foldl_append] at hQ
    rw [List.flatMap_cons]
    apply yields_bind
    apply yields_bind
    apply yields_edge_start
    intro m₁ hm₁
    apply yields_bind
    apply yields_stepItems
    intro m₂ hm₂
    apply yields_edge_stop
    intro m₃ hm₃
    apply ih
    rw [hm₃, hm₂, hm₁]
    exact hQ

theorem item_of_line {e : Event C} (h : lineOf e = some "ERROR") :
    item e = some (.line "ERROR") := by
  cases e with
  | puts line =>
    obtain rfl := Option.some.inj h
    rfl
  | printf format args =>
    by_cases herror : format = "ERROR\n"
    · rw [item, if_pos herror]
    · simp [lineOf, herror] at h
  | _ => simp [lineOf] at h

theorem yields_checkItem {block : Block C B} {passes : B → Bool} (hQ : Q () m) :
    Yields item
      (act fun m => ((), m, if passes m.buffers then [] else [block.error]) : App C B Unit)
      (if passes m.buffers then [] else [.line "ERROR"]) Q m := by
  have herror : (if passes m.buffers then [] else [block.error]).filterMap item =
      if passes m.buffers then [] else [.line "ERROR"] := by
    split
    · rfl
    · rw [List.filterMap_cons_some (item_of_line block.error_line), List.filterMap_nil]
  rw [← herror]
  exact yields_act hQ

theorem yields_blockItems (block : Block C B) (l : Library) (passes : B → Bool)
    (hQ : Holds (block.effect m.buffers) Q) :
    Yields item (block.program b l passes)
      (block.items b l (passes (block.effect m.buffers))) Q m := by
  have hsizes {m' : Memory B} {R : Unit → Memory B → Prop} (hR : R () m') :
      Yields item ((block.contexts.map .diag).forM emit : App C B Unit) [] R m' := by
    have hnone : (block.contexts.map (.diag : String → Event C)).filterMap item = [] :=
      List.filterMap_eq_nil_iff.mpr (List.forall_mem_map.mpr fun _ _ => rfl)
    rw [← hnone]
    exact yields_forM_emit hR
  rw [Block.items, ← List.singleton_append]
  apply yields_bind
  refine yields_act ?_
  have hbody : Yields item (block.body b passes) (block.setup.map .call ++
      (block.phases.flatMap (phaseItems b) ++ (block.cleanup.map .call ++
        ((if passes (block.effect m.buffers) then [] else [.line "ERROR"]) ++
          block.closing.map .call)))) Q m := by
    apply yields_bind
    apply yields_callItems
    apply yields_bind
    apply yields_phaseItems
    intro m' hm'
    apply yields_bind
    apply yields_callItems
    apply yields_bind
    rw [Block.effect, ← hm']
    apply yields_checkItem
    exact yields_callItems (hQ m' hm')
  apply yields_bind_silent
  exact yields_onlyIf (hsizes hbody) hbody

variable (app : Application C B)

theorem yields_items (libs : List Library)
    (hQ : Holds (storeAfter app.effect (libs.filter b.enabled) m.buffers) Q) :
    Yields item (app.blocks b libs) (app.items b (libs.filter b.enabled) m.buffers) Q m := by
  induction libs generalizing m with
  | nil => exact yields_pure (hQ m rfl)
  | cons l libs ih =>
    cases henabled : b.enabled l with
    | false =>
      rw [List.filter_cons_of_neg (by simp [henabled])] at hQ ⊢
      apply yields_bind_silent
      simp only [henabled, onlyIf_false]
      exact yields_pure (ih hQ)
    | true =>
      rw [List.filter_cons_of_pos henabled] at hQ ⊢
      rw [Application.items]
      apply yields_bind
      simp only [henabled, onlyIf_true]
      apply yields_blockItems
      intro m' hm'
      rw [← Application.effect] at hm'
      rw [← hm']
      apply ih
      rw [hm']
      exact hQ

/-- A run makes the calls and shows the edges and lines of the transcript in order,
and leaves the buffers that the calls make. -/
theorem yields_transcript : Yields item (app.main b) (app.transcript b m.buffers)
    (fun _ m' => m'.buffers = storeAfter app.effect b.libraries (app.declare m.buffers)) m := by
  apply yields_bind_silent
  refine yields_act ?_
  apply yields_bind_silent
  refine yields_onlyIf (yields_act ?_) ?_
  all_goals
    apply yields_bind
    have hpin {R : Unit → Memory B → Prop} {m' : Memory B} (hR : R () m') :
        Yields item (onlyIf b.modeGpio (emit (.gpioWrite false)) : App C B Unit)
          (if b.modeGpio then [.level false] else []) R m' := by
      cases b.modeGpio with
      | true => exact yields_act hR
      | false => exact yields_pure hR
    apply hpin
    apply yields_bind
    apply yields_items
    intro m' hm'
    exact yields_act hm'

end Runs

section Work
variable (b b' : Build)

theorem edge_work (high : Bool) : (edge b high : List (Item C)).filter Item.isWork = [] := by
  rw [edge]
  split
  · rfl
  · split <;> rfl

theorem phaseItems_work (steps : List (Step C B)) :
    (phaseItems b steps).filter Item.isWork = steps.map fun step => .call step.call := by
  have hcalls : (steps.map fun step => (.call step.call : Item C)).filter Item.isWork =
      steps.map fun step => .call step.call :=
    List.filter_eq_self.mpr (List.forall_mem_map.mpr fun _ _ => rfl)
  simp [phaseItems, edge_work, hcalls]

theorem items_work (app : Application C B) (libs : List Library) (s : B) :
    (app.items b libs s).filter Item.isWork = (app.items b' libs s).filter Item.isWork := by
  induction libs generalizing s with
  | nil => rfl
  | cons l libs ih =>
    simp only [Application.items, Block.items, List.filter_append, List.filter_cons,
      List.filter_flatMap, phaseItems_work, ih]

theorem transcript_work {b b' : Build} (app : Application C B) (h : b.enabled = b'.enabled)
    (s : B) :
    (app.transcript b s).filter Item.isWork = (app.transcript b' s).filter Item.isWork := by
  have hpin (c : Bool) :
      (if c then [.level false] else [] : List (Item C)).filter Item.isWork = [] := by
    cases c <;> rfl
  simp only [Application.transcript, List.filter_append, hpin, Build.libraries, h,
    items_work b b']

end Work

section Windows

/-- Behind `items` no window is open, and they hold the windows `out`. -/
abbrev Closes (items : List (Item C)) (out : List (List C)) : Prop :=
  Closed (items.filterMap Item.tick) out

theorem closes_work {items : List (Item C)} (h : ∀ e ∈ items, e.isWork = true) :
    Closes items [] := by
  refine .unopened fun t ht => ?_
  obtain ⟨e, he, hread⟩ := List.mem_filterMap.mp ht
  have hwork : e.isWork = true := h e he
  cases e with
  | call c =>
    obtain rfl := Option.some.inj hread
    rfl
  | line text => nomatch hread
  | _ => nomatch hwork

theorem closes_append {items items' : List (Item C)} {out out' : List (List C)}
    (h : Closes items out) (h' : Closes items' out') : Closes (items ++ items') (out ++ out') := by
  rw [Closes, List.filterMap_append]
  exact h.append h'

/-- The window of a measured phase holds its calls. -/
theorem closes_phaseItems (b : Build) (steps : List (Step C B)) :
    Closes (phaseItems b steps) (phaseWindow b steps) := by
  have hcalls : (steps.map fun step => (.call step.call : Item C)).filterMap Item.tick =
      (steps.map Step.call).map .inside := by
    rw [List.filterMap_map, List.map_map]
    exact List.filterMap_eq_map (f := fun step : Step C B => Tick.inside step.call) ▸ rfl
  rw [Closes, phaseItems, List.filterMap_append, List.filterMap_append, hcalls, edge, edge,
    phaseWindow, Build.measures]
  cases b.useXtimer with
  | true => exact .toggled _
  | false => cases b.modeGpio with
    | true => exact .window _
    | false =>
      have hnone : Closes (steps.map fun step => (.call step.call : Item C)) [] :=
        closes_work (List.forall_mem_map.mpr fun _ _ => rfl)
      rw [Closes, hcalls] at hnone
      simpa using hnone

theorem closes_block (b : Build) (block : Block C B) (l : Library) (ok : Bool) :
    Closes (block.items b l ok) (block.phases.flatMap (phaseWindow b)) := by
  have hcalls (calls : List C) : Closes (calls.map .call) [] :=
    closes_work (List.forall_mem_map.mpr fun _ _ => rfl)
  have hverdict : Closes (if ok then [] else [.line "ERROR"] : List (Item C)) [] :=
    closes_work (by cases ok <;> simp [Item.isWork])
  have hname : Closes [(.line l.name : Item C)] [] := .nil
  have hphases : Closes (block.phases.flatMap (phaseItems b))
      (block.phases.flatMap (phaseWindow b)) := by
    rw [Closes, List.filterMap_flatMap]
    exact .flatMap (closes_phaseItems b)
  have hitems := closes_append hname (closes_append (hcalls block.setup) (closes_append hphases
    (closes_append (hcalls block.cleanup) (closes_append hverdict (hcalls block.closing)))))
  simp only [List.nil_append, List.append_nil] at hitems
  exact hitems

theorem closes_items (b : Build) (app : Application C B) (libs : List Library) (s : B) :
    Closes (app.items b libs s)
      (libs.flatMap fun l => (app.block l).phases.flatMap (phaseWindow b)) := by
  induction libs generalizing s with
  | nil => exact .nil
  | cons l libs ih =>
    rw [List.flatMap_cons]
    exact closes_append (closes_block b _ _ _) (ih _)

theorem windows_transcript (b : Build) (app : Application C B) (s : B) :
    sections none ((app.transcript b s).filterMap Item.tick) = app.phaseWindows b := by
  have hpin : Closes (if b.modeGpio then [.level false] else [] : List (Item C)) [] := by
    cases b.modeGpio with
    | true => exact .unopened (by simp [Item.tick, Tick.opens])
    | false => exact .nil
  have hdone : Closes [(.line "DONE" : Item C)] [] := .nil
  have hall := closes_append hpin
    (closes_append (closes_items b app b.libraries (app.declare s)) hdone)
  simp only [List.append_nil, List.nil_append] at hall
  exact hall.sections_eq

end Windows

section Main
variable (app : Application C B) {b b' : Build} {m m' : Memory B} {ins ins' : List UInt32}

theorem work_begins (h : b.enabled = b'.enabled) (hm : m.buffers = m'.buffers)
    (hdone : ((app.main b').exec ins' m').value = some ()) :
    work ((app.main b).exec ins m).trace <+: work ((app.main b').exec ins' m').trace := by
  obtain ⟨hbegin, _⟩ := yields_transcript app (b := b) (m := m) ins
  obtain ⟨hall, _⟩ := (yields_transcript app (b := b') (m := m') ins').2 () hdone
  rw [work, work, hall, ← hm, ← transcript_work app h]
  exact hbegin.filter _

theorem work_agrees (h : b.enabled = b'.enabled) (hm : m.buffers = m'.buffers)
    (hdone : ((app.main b).exec ins m).value = some ())
    (hdone' : ((app.main b').exec ins' m').value = some ()) :
    work ((app.main b).exec ins m).trace = work ((app.main b').exec ins' m').trace ∧
      ((app.main b).exec ins m).state.buffers = ((app.main b').exec ins' m').state.buffers := by
  obtain ⟨hall, hbuffers⟩ := (yields_transcript app (b := b) (m := m) ins).2 () hdone
  obtain ⟨hall', hbuffers'⟩ := (yields_transcript app (b := b') (m := m') ins').2 () hdone'
  rw [work, work, hall, hall', hbuffers, hbuffers', ← hm, ← transcript_work app h,
    Build.libraries, Build.libraries, h]
  exact ⟨rfl, rfl⟩

theorem measured_begins : measured ((app.main b).exec ins m).trace <+: app.phaseWindows b ∧
    (((app.main b).exec ins m).value = some () →
      measured ((app.main b).exec ins m).trace = app.phaseWindows b) := by
  obtain ⟨hbegin, hend⟩ := yields_transcript app (b := b) (m := m) ins
  rw [← windows_transcript b app m.buffers]
  refine ⟨sections_mono (hbegin.filterMap Item.tick) none, fun hdone => ?_⟩
  rw [measured, (hend () hdone).1]

end Main

/-- Two builds with the same libraries, however they measure, make the same calls, print
the same verdicts and leave the same buffers; a run that waits for the timer has done a
part of that. -/
theorem modes_agree (b b' : Build) (h : b.enabled = b'.enabled) (ins ins' : List UInt32) :
    (∀ (r : Sha256.Replies) (m m' : Memory Sha256.Digest), m.buffers = m'.buffers →
      let run := ((Sha256.application r).main b).exec ins m
      let run' := ((Sha256.application r).main b').exec ins' m'
      run'.value = some () → work run.trace <+: work run'.trace ∧ (run.value = some () →
        work run.trace = work run'.trace ∧ run.state.buffers = run'.state.buffers)) ∧
    ∀ (r : Aes.Replies) (m m' : Memory Aes.Buffers), m.buffers = m'.buffers →
      let run := ((Aes.application r).main b).exec ins m
      let run' := ((Aes.application r).main b').exec ins' m'
      run'.value = some () → work run.trace <+: work run'.trace ∧ (run.value = some () →
        work run.trace = work run'.trace ∧ run.state.buffers = run'.state.buffers) :=
  ⟨fun _ _ _ hm hdone' =>
      ⟨work_begins _ h hm hdone', fun hdone => work_agrees _ h hm hdone hdone'⟩,
    fun _ _ _ hm hdone' =>
      ⟨work_begins _ h hm hdone', fun hdone => work_agrees _ h hm hdone hdone'⟩⟩

/-- The timer build against the one that does not measure. -/
theorem modes_agree_timer :
    work (((Sha256.application onlyRiotDigests).main (timerBuild.only .riot)).exec [7, 9, 11]
      ⟨0, 0, Vector.replicate 32 0⟩).trace <+:
    work (((Sha256.application onlyRiotDigests).main (allEnabled.only .riot)).exec []
      ⟨0, 0, Vector.replicate 32 0⟩).trace := by
  have hdone : (((Sha256.application onlyRiotDigests).main (allEnabled.only .riot)).exec []
      ⟨0, 0, Vector.replicate 32 0⟩).value = some () := by decide +kernel
  have hagree := (modes_agree (timerBuild.only .riot)
    (allEnabled.only .riot) rfl [7, 9, 11] []).1 onlyRiotDigests ⟨0, 0, Vector.replicate 32 0⟩
    ⟨0, 0, Vector.replicate 32 0⟩ rfl hdone
  exact hagree.1

/-- With the timer and with the pin, the windows of a run hold the calls of the phases
of the enabled libraries in order, and no others. -/
theorem windows_hold_phases (b : Build) (ins : List UInt32) :
    (∀ (r : Sha256.Replies) (m : Memory Sha256.Digest),
      let run := ((Sha256.application r).main b).exec ins m
      measured run.trace <+: (Sha256.application r).phaseWindows b ∧
        (run.value = some () → measured run.trace = (Sha256.application r).phaseWindows b)) ∧
    ∀ (r : Aes.Replies) (m : Memory Aes.Buffers),
      let run := ((Aes.application r).main b).exec ins m
      measured run.trace <+: (Aes.application r).phaseWindows b ∧
        (run.value = some () → measured run.trace = (Aes.application r).phaseWindows b) :=
  ⟨fun r _ => measured_begins (Sha256.application r),
    fun r _ => measured_begins (Aes.application r)⟩

end SwCompare
