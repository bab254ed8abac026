import PublicPool.Lib.EmitOrder
import PublicPool.Proofs.JobStream

/-!
# `PublicPool.Proofs.TemplateOrder`: block templates in the order of the node

The interval and the loop over the blocks run `getAndBroadcastLatestTemplate` without regard for
each other, and every call reads `miningInfo` again after each of its awaits. So a call may emit its
template after a later one has, and store it under a number of blocks that is not its own.

`InTurn` is what has to hold of the steps for neither to happen: the node answers a call with a
template for the blocks that the call has started with, a call emits its template only when no call
holds an older one, and finds the mining info as it was when it goes on; and a worker reads no
template older than its last one and emits in the order of what it has read. A step out of turn
holds back or files under another number a template that is emitted or stored in the next steps.

Emission is an instance of `EmitOrder`, on the master over what the calls hold and on the worker
over what the loads have read. `Counted` is what the calls keep of the number of blocks.
-/

set_option autoImplicit false

namespace PublicPool.Proofs

open BitcoinRpc
open Lib (Machine EmitOrder)

/-- The templates that a process has emitted, by their number. -/
def emittedBy (process : ProcessName) (history : List RpcEvent) : List ℕ :=
  history.filterMap fun
    | .emitted name template => if name = process then some template.produced else none
    | _ => none

/-- What is stored or published for a number of blocks is a template for the block after them. -/
def ForItsBlocks : RpcEvent → Prop
  | .rowSaved blocks template | .templateStored blocks template =>
    template.template.height = (blocks : ℤ) + 1
  | .published (some miningInfo) template =>
    template.template.height = (miningInfo.blocks : ℤ) + 1
  | _ => True

/-- Each process emits the templates in the order in which the node made them, and the template
that is stored and published for a number of blocks is one that builds on the last of them. -/
structure InNodeOrder (history : List RpcEvent) : Prop where
  emitted : ∀ process, (emittedBy process history).Pairwise (· ≤ ·)
  filed : ∀ event ∈ history, ForItsBlocks event

/-- The template that a call has still to emit. -/
def toEmit (run : Run) : Option ℕ :=
  match run.phase with
  | .snapshotting template | .saving template | .saved template => some template.produced
  | _ => none

/-- The template that a load has read. -/
def found (load : Load) : Option ℕ :=
  match load.phase with
  | .read template | .rowRead template => template.map NodeTemplate.produced
  | _ => none

/-- The template that a load reads now. -/
def finds (store : Store) (load : Load) : Option NodeTemplate :=
  match load.phase with
  | .reading => store.blockTemplates load.blocks
  | .readingRow => store.savedBlockTemplates load.blocks
  | _ => none

/-- A step neither overtakes an older template nor finds another number of blocks. -/
def InTurn (world : World) (_ : List RpcEvent) : RpcInput → Prop
  | .blockTemplateArrives id (some template) =>
    ∀ run, world.master.run? id = some run → template.height = run.blockHeight + 1
  | .resumes id =>
    match world.master.run? id with
    | some ⟨_, .saved template⟩ =>
      ∀ older ∈ world.master.allRuns.filterMap toEmit, template.produced ≤ older
    | some ⟨blockHeight, .infoSet _⟩ | some ⟨blockHeight, .templateSet _⟩ =>
      ∀ miningInfo, world.master.process.miningInfo = some miningInfo →
        miningInfo.blocks = blockHeight
    | _ => True
  | .loadReads k =>
    ∀ load, world.worker.loads[k]? = some load → ∀ template, finds world.store load = some template →
      ∀ last, world.worker.process.newBlockTemplate = some last → last.produced ≤ template.produced
  | .loadResumes k =>
    ∀ load, world.worker.loads[k]? = some load → ∀ template, found load = some template →
      ∀ older ∈ world.worker.loads.filterMap found, template ≤ older
  | _ => True

/-! ### What the steps emit -/

section Emitted
variable (history more : List RpcEvent) (process : ProcessName)

@[simp] theorem emittedBy_append :
    emittedBy process (history ++ more) = emittedBy process history ++ emittedBy process more :=
  List.filterMap_append

@[simp] theorem emittedBy_nil : emittedBy process [] = [] := rfl

variable (name : ProcessName)

theorem emittedBy_next (here : Process) (template : NodeTemplate) :
    emittedBy process (here.next name template).2
      = if name = process then [template.produced] else [] := by
  cases hended : here.jobsEnded <;> by_cases hname : name = process <;>
    simp [Process.next, Process.runStage, hended, emittedBy, hname]

theorem emittedBy_subscribe (here : Process) : emittedBy process (here.subscribe name).2 = [] := by
  cases hended : here.jobsEnded with
  | false => simp [Process.subscribe, hended, emittedBy]
  | true =>
    cases htemplate : here.newBlockTemplate <;>
      simp [Process.subscribe, Process.runStage, hended, htemplate, emittedBy]

theorem next_newBlockTemplate (here : Process) (template : NodeTemplate) :
    (here.next name template).1.newBlockTemplate = some template := by
  cases hended : here.jobsEnded <;> simp [Process.next, Process.runStage, hended]

theorem subscribe_newBlockTemplate (here : Process) :
    (here.subscribe name).1.newBlockTemplate = here.newBlockTemplate := by
  cases hended : here.jobsEnded with
  | false => simp [Process.subscribe, hended]
  | true =>
    cases htemplate : here.newBlockTemplate <;>
      simp [Process.subscribe, Process.runStage, hended, htemplate]

end Emitted

/-! ### The calls under way -/

section Runs
variable {master : Master} {run run' : Run} {id : Option ℕ}

theorem mem_allRuns_of_run? (h : master.run? id = some run) : run ∈ master.allRuns := by
  cases id with
  | none => exact List.mem_append_left _ (by rw [h]; exact List.mem_singleton_self _)
  | some k => exact List.mem_append_right _ (List.mem_of_getElem? h)

theorem mem_allRuns_setRun {other : Run} (h : other ∈ (master.setRun run' id).allRuns) :
    other = run' ∨ other ∈ master.allRuns := by
  cases id with
  | none =>
    rcases List.mem_append.mp h with hown | hothers
    · left
      exact List.mem_singleton.mp hown
    · right
      exact List.mem_append_right _ hothers
  | some k =>
    rcases List.mem_append.mp h with hown | hothers
    · right
      exact List.mem_append_left _ hown
    · rcases List.mem_or_eq_of_mem_set hothers with hbefore | hnew
      · right
        exact List.mem_append_right _ hbefore
      · left
        exact hnew

theorem mem_allRuns_endRun {other : Run} (h : other ∈ (master.endRun id).allRuns) :
    other ∈ master.allRuns := by
  cases id with
  | none => exact List.mem_append_right _ h
  | some k =>
    rcases List.mem_append.mp h with hown | hothers
    · exact List.mem_append_left _ hown
    · exact List.mem_append_right _ (List.mem_of_mem_eraseIdx hothers)

theorem mem_allRuns_throwRun {other : Run} (h : other ∈ (master.throwRun id).allRuns) :
    other ∈ master.allRuns := by
  cases id with
  | none => exact List.mem_append_right _ h
  | some k =>
    rcases List.mem_append.mp h with hown | hothers
    · exact List.mem_append_left _ hown
    · exact List.mem_append_right _ (List.mem_of_mem_eraseIdx hothers)

/-- The calls do not depend on the rest of the process. -/
theorem allRuns_setRun_process (master : Master) (process : Process) (run : Run) (id : Option ℕ) :
    ({ master with process }.setRun run id).allRuns = (master.setRun run id).allRuns := by
  cases id <;> rfl

end Runs

/-! ### The master -/

/-- What a call keeps of the blocks that it has started with. -/
def Counted (run : Run) : Prop :=
  match run.phase with
  | .fetching | .sleeping => True
  | .snapshotting template | .saving template | .saved template | .infoSet template
  | .templateSet template | .settingInfo _ template =>
    template.template.height = run.blockHeight + 1
  | .settingTemplate blocks template =>
    template.template.height = run.blockHeight + 1 ∧ blocks = run.blockHeight
  | .publishing miningInfo template =>
    template.template.height = run.blockHeight + 1 ∧
      ∀ info, miningInfo = some info → info.blocks = run.blockHeight

/-- The invariant of the master. -/
structure MasterInTurn (world : World) (history : List RpcEvent) : Prop where
  order : EmitOrder (emittedBy .master history) (world.master.allRuns.filterMap toEmit)
  emitted_lt : ∀ template ∈ emittedBy .master history, template < world.produced
  held_lt : ∀ template ∈ world.master.allRuns.filterMap toEmit, template < world.produced
  counted : ∀ run ∈ world.master.allRuns, Counted run

section Master
variable {world world' : World} {history events : List RpcEvent} {run run' : Run}
  {id : Option ℕ}

theorem mem_held {template : ℕ} (hrun : run ∈ world.master.allRuns)
    (htemplate : toEmit run = some template) :
    template ∈ world.master.allRuns.filterMap toEmit :=
  List.mem_filterMap.mpr ⟨run, hrun, htemplate⟩

/-- What is held by calls that hold nothing new. -/
theorem held_of_runs {held : List ℕ} {runs : List Run}
    (hruns : ∀ run ∈ runs, Counted run ∧ ∀ template, toEmit run = some template →
      template ∈ held) : ∀ template ∈ runs.filterMap toEmit, template ∈ held := by
  intro template htemplate
  obtain ⟨run, hrun, hemit⟩ := List.mem_filterMap.mp htemplate
  exact (hruns run hrun).2 template hemit

/-- A step that emits nothing, and after which the calls hold nothing new. -/
theorem MasterInTurn.quiet (h : MasterInTurn world history)
    (hevents : emittedBy .master events = []) (hproduced : world'.produced = world.produced)
    (hruns : ∀ run ∈ world'.master.allRuns, Counted run ∧ ∀ template, toEmit run = some template →
      template ∈ world.master.allRuns.filterMap toEmit) :
    MasterInTurn world' (history ++ events) := by
  have hsub := held_of_runs hruns
  have hemitted : emittedBy .master (history ++ events) = emittedBy .master history := by
    rw [emittedBy_append, hevents, List.append_nil]
  constructor
  · rw [hemitted]
    exact h.order.mono hsub
  · rw [hemitted, hproduced]
    exact h.emitted_lt
  · intro template htemplate
    rw [hproduced]
    exact h.held_lt template (hsub template htemplate)
  · intro run hrun
    exact (hruns run hrun).1

/-- The calls after a step at which one of them goes on. -/
theorem MasterInTurn.setRun (h : MasterInTurn world history) (hrun : world.master.run? id = some run)
    (hcounted : Counted run') (hheld : ∀ template, toEmit run' = some template →
      toEmit run = some template) :
    ∀ other ∈ (world.master.setRun run' id).allRuns, Counted other ∧
      ∀ template, toEmit other = some template →
        template ∈ world.master.allRuns.filterMap toEmit := by
  intro other hother
  rcases mem_allRuns_setRun hother with rfl | hbefore
  · refine ⟨hcounted, fun template htemplate => ?_⟩
    exact mem_held (mem_allRuns_of_run? hrun) (hheld template htemplate)
  · exact ⟨h.counted other hbefore, fun template htemplate => mem_held hbefore htemplate⟩

variable {master : Master} {other : Run} {name : ProcessName} {here : Process}

/-- The calls after a step that only ends some. -/
theorem MasterInTurn.fewer (h : MasterInTurn world history)
    (hsub : ∀ other ∈ master.allRuns, other ∈ world.master.allRuns) :
    ∀ other ∈ master.allRuns, Counted other ∧ ∀ template, toEmit other = some template →
      template ∈ world.master.allRuns.filterMap toEmit :=
  fun other hother => ⟨h.counted other (hsub other hother),
    fun _ htemplate => mem_held (hsub other hother) htemplate⟩

/-- The calls after a step that only starts some. -/
theorem MasterInTurn.started (h : MasterInTurn world history) (hsub : ∀ other ∈ master.allRuns,
      other ∈ world.master.allRuns ∨ other.phase = .fetching) :
    ∀ other ∈ master.allRuns, Counted other ∧ ∀ template, toEmit other = some template →
      template ∈ world.master.allRuns.filterMap toEmit := by
  intro other hother
  rcases hsub other hother with hbefore | hfetching
  · exact ⟨h.counted other hbefore, fun _ htemplate => mem_held hbefore htemplate⟩
  · refine ⟨by rw [Counted, hfetching]; trivial, fun template htemplate => ?_⟩
    rw [toEmit, hfetching] at htemplate
    cases htemplate

theorem mem_allRuns_tick (h : other ∈ master.tick.allRuns) :
    other ∈ master.allRuns ∨ other.phase = .fetching := by
  unfold Master.tick at h
  split at h
  · exact .inl h
  · rcases List.mem_append.mp h with hown | hothers
    · exact .inl (List.mem_append_left _ hown)
    · rcases List.mem_append.mp hothers with hbefore | hnew
      · exact .inl (List.mem_append_right _ hbefore)
      · right
        rw [List.mem_singleton.mp hnew]

theorem mem_allRuns_newBlock (h : other ∈ master.newBlock.allRuns) : other ∈ master.allRuns := by
  unfold Master.newBlock at h
  split at h
  · exact List.mem_append_right _ h
  · exact h

theorem mem_allRuns_miningInfoArrives {miningInfo : Option MiningInfo}
    (h : other ∈ (master.miningInfoArrives miningInfo).allRuns) :
    other ∈ master.allRuns ∨ other.phase = .fetching := by
  unfold Master.miningInfoArrives at h
  split at h
  · cases miningInfo with
    | none => exact .inl (List.mem_append_right _ h)
    | some info =>
      rcases List.mem_append.mp h with hown | hothers
      · right
        rw [List.mem_singleton.mp hown]
      · exact .inl (List.mem_append_right _ hothers)
  · exact .inl h

theorem emittedBy_startupReads (worker : Worker) (store : Store) :
    emittedBy .master (worker.startupReads store).2 = [] := by
  unfold Worker.startupReads
  split
  · rfl
  · split <;> rfl
  · split
    · exact emittedBy_next _ _ _ _
    · rfl
  · rfl

theorem emittedBy_loadResumes (worker : Worker) (k : ℕ) :
    emittedBy .master (worker.loadResumes k).2 = [] := by
  unfold Worker.loadResumes
  split
  · exact emittedBy_next _ _ _ _
  · exact emittedBy_next _ _ _ _
  · rfl
  · rfl
  · rfl

/-- The answer of the node to a call is newer than all that was emitted. -/
theorem MasterInTurn.blockTemplateArrives (h : MasterInTurn world history)
    {blockTemplate : Option BlockTemplate}
    (hturn : InTurn world history (.blockTemplateArrives id blockTemplate)) :
    MasterInTurn (world.blockTemplateArrives id blockTemplate) (history ++ []) := by
  unfold World.blockTemplateArrives
  split
  · rename_i blockHeight hrun
    cases blockTemplate with
    | none => exact h.quiet rfl rfl (h.setRun hrun trivial (by simp [toEmit]))
    | some template =>
      have hheight : template.height = (blockHeight : ℤ) + 1 := hturn _ hrun
      rw [List.append_nil]
      -- what is held afterwards was held before, or is the new template
      have hheld : ∀ held ∈ (world.master.setRun ⟨blockHeight, .snapshotting
            { template, produced := world.produced }⟩ id).allRuns.filterMap toEmit,
          held ∈ world.master.allRuns.filterMap toEmit ∨ held = world.produced := by
        intro held hmem
        obtain ⟨other, hother, hemit⟩ := List.mem_filterMap.mp hmem
        rcases mem_allRuns_setRun hother with rfl | hbefore
        · right
          exact (Option.some.inj hemit).symm
        · left
          exact mem_held hbefore hemit
      constructor
      · refine h.order.hold fun held hmem => ?_
        rcases hheld held hmem with hbefore | rfl
        · exact .inl hbefore
        · exact .inr fun emitted hemitted => Nat.le_of_lt (h.emitted_lt emitted hemitted)
      · intro emitted hemitted
        exact Nat.lt_succ_of_lt (h.emitted_lt emitted hemitted)
      · intro held hmem
        show held < world.produced + 1
        rcases hheld held hmem with hbefore | rfl
        · exact Nat.lt_succ_of_lt (h.held_lt held hbefore)
        · exact Nat.lt_succ_self _
      · intro other hother
        rcases mem_allRuns_setRun hother with rfl | hbefore
        · exact hheight
        · exact h.counted other hbefore
  · exact h.quiet rfl rfl (h.fewer fun _ hother => hother)

/-- A call that goes on emits its template in turn. -/
theorem MasterInTurn.resumes (h : MasterInTurn world history)
    (hturn : InTurn world history (.resumes id)) :
    MasterInTurn (world.resumes id).1 (history ++ (world.resumes id).2) := by
  simp only [InTurn] at hturn
  unfold World.resumes
  split
  · rename_i blockHeight template hrun
    rw [hrun] at hturn
    have hmem := mem_allRuns_of_run? hrun
    have hheld : template.produced ∈ world.master.allRuns.filterMap toEmit := mem_held hmem rfl
    have hsaved : template.template.height = (blockHeight : ℤ) + 1 := h.counted _ hmem
    have hcounted : Counted ⟨blockHeight, .settingInfo
        (world.master.process.next .master template).1.miningInfo template⟩ := hsaved
    have hevents : emittedBy .master (world.master.process.next .master template).2
        = [template.produced] := by
      rw [emittedBy_next, if_pos rfl]
    have hruns := h.setRun hrun hcounted (fun _ hemit => by cases hemit)
    rw [← allRuns_setRun_process world.master (world.master.process.next .master template).1]
      at hruns
    have hsub := held_of_runs hruns
    constructor
    · rw [emittedBy_append, hevents]
      exact h.order.emit hheld hturn hsub
    · intro emitted hemitted
      rw [emittedBy_append, hevents] at hemitted
      rcases List.mem_append.mp hemitted with hbefore | hnow
      · exact h.emitted_lt emitted hbefore
      · rw [List.mem_singleton.mp hnow]
        exact h.held_lt _ hheld
    · exact fun held hin => h.held_lt held (hsub held hin)
    · exact fun other hother => (hruns other hother).1
  · rename_i blockHeight template hrun
    rw [hrun] at hturn
    have hcounted := h.counted _ (mem_allRuns_of_run? hrun)
    split
    · exact h.quiet rfl rfl (h.fewer fun _ hother => mem_allRuns_throwRun hother)
    · rename_i miningInfo hinfo
      refine h.quiet rfl rfl (h.setRun hrun ?_ (by simp [toEmit]))
      exact ⟨hcounted, hturn miningInfo hinfo⟩
  · rename_i blockHeight template hrun
    rw [hrun] at hturn
    have hcounted := h.counted _ (mem_allRuns_of_run? hrun)
    refine h.quiet rfl rfl (h.setRun hrun ?_ (by simp [toEmit]))
    exact ⟨hcounted, hturn⟩
  · exact h.quiet rfl rfl (h.fewer fun _ hother => hother)

/-- A step in turn keeps the invariant of the master. -/
theorem MasterInTurn.step (h : MasterInTurn world history) (input : RpcInput)
    (hturn : InTurn world history input) :
    MasterInTurn (world.step input).1 (history ++ (world.step input).2) := by
  cases input with
  | blockTemplateArrives id blockTemplate => exact h.blockTemplateArrives hturn
  | resumes id => exact h.resumes hturn
  | delivered => exact h.quiet rfl rfl (h.fewer fun _ hother => hother)
  | loadReads k => exact h.quiet rfl rfl (h.fewer fun _ hother => hother)
  | startupReads =>
    exact h.quiet (emittedBy_startupReads _ _) rfl (h.fewer fun _ hother => hother)
  | loadResumes k =>
    exact h.quiet (emittedBy_loadResumes _ k) rfl (h.fewer fun _ hother => hother)
  | workerSubscribes =>
    simp only [World.step]
    split
    · exact h.quiet rfl rfl (h.fewer fun _ hother => hother)
    · exact h.quiet (emittedBy_subscribe _ _ _) rfl (h.fewer fun _ hother => hother)
  | masterSubscribes =>
    exact h.quiet (emittedBy_subscribe _ _ _) rfl (h.fewer fun _ hother => hother)
  | tick => exact h.quiet rfl rfl (h.started fun _ hother => mem_allRuns_tick hother)
  | newBlock => exact h.quiet rfl rfl (h.fewer fun _ hother => mem_allRuns_newBlock hother)
  | miningInfoArrives miningInfo =>
    exact h.quiet rfl rfl (h.started fun _ hother => mem_allRuns_miningInfoArrives hother)
  | wakes id =>
    simp only [World.step, World.wakes]
    split
    · rename_i hrun
      exact h.quiet rfl rfl (h.setRun hrun trivial (by simp [toEmit]))
    · exact h.quiet rfl rfl (h.fewer fun _ hother => hother)
  | snapshotEnds id payoutSnapshot =>
    simp only [World.step, World.snapshotEnds]
    split
    · rename_i blockHeight made hrun
      have hcounted := h.counted _ (mem_allRuns_of_run? hrun)
      refine h.quiet rfl rfl (h.setRun hrun ?_ (by simp [toEmit]))
      cases payoutSnapshot <;> exact hcounted
    · exact h.quiet rfl rfl (h.fewer fun _ hother => hother)
  | saveBlockEnds id succeeded =>
    simp only [World.step, World.saveBlockEnds]
    split
    · rename_i blockHeight template hrun
      have hsaving : template.template.height = (blockHeight : ℤ) + 1 :=
        h.counted _ (mem_allRuns_of_run? hrun)
      have hcounted : Counted ⟨blockHeight, .saved template⟩ := hsaving
      have hruns := h.setRun hrun hcounted (by simp [toEmit])
      cases succeeded <;> exact h.quiet rfl rfl hruns
    · exact h.quiet rfl rfl (h.fewer fun _ hother => hother)
  | redisRuns id =>
    simp only [World.step, World.redisRuns]
    split
    · rename_i hrun
      have hcounted := h.counted _ (mem_allRuns_of_run? hrun)
      exact h.quiet rfl rfl (h.setRun hrun hcounted (by simp [toEmit]))
    · rename_i hrun
      have hcounted := h.counted _ (mem_allRuns_of_run? hrun)
      exact h.quiet rfl rfl (h.setRun hrun hcounted.1 (by simp [toEmit]))
    · exact h.quiet rfl rfl (h.fewer fun _ hother => mem_allRuns_endRun hother)
    · exact h.quiet rfl rfl (h.fewer fun _ hother => hother)

theorem forItsBlocks_next {template : NodeTemplate} :
    ∀ event ∈ (here.next name template).2, ForItsBlocks event := by
  cases hended : here.jobsEnded <;>
    simp [Process.next, Process.runStage, hended, ForItsBlocks]

theorem forItsBlocks_subscribe : ∀ event ∈ (here.subscribe name).2, ForItsBlocks event := by
  cases hended : here.jobsEnded with
  | false => simp [Process.subscribe, hended]
  | true =>
    cases htemplate : here.newBlockTemplate <;>
      simp [Process.subscribe, Process.runStage, hended, htemplate, ForItsBlocks]

/-- What a step stores and publishes is filed under its number of blocks. -/
theorem MasterInTurn.filed (h : MasterInTurn world history) (input : RpcInput) :
    ∀ event ∈ (world.step input).2, ForItsBlocks event := by
  have hnone : ∀ event ∈ ([] : List RpcEvent), ForItsBlocks event := by simp
  cases input with
  | tick | newBlock | miningInfoArrives | blockTemplateArrives | wakes | snapshotEnds | delivered
  | loadReads => exact hnone
  | masterSubscribes => exact forItsBlocks_subscribe
  | workerSubscribes =>
    simp only [World.step]
    split
    · exact hnone
    · exact forItsBlocks_subscribe
  | startupReads =>
    simp only [World.step, Worker.startupReads]
    split
    · exact hnone
    · split <;> exact hnone
    · split
      · exact forItsBlocks_next
      · exact hnone
    · exact hnone
  | loadResumes k =>
    simp only [World.step, Worker.loadResumes]
    split
    · exact forItsBlocks_next
    · exact forItsBlocks_next
    · exact hnone
    · exact hnone
    · exact hnone
  | resumes id =>
    simp only [World.step, World.resumes]
    split
    · exact forItsBlocks_next
    · split
      · simp [ForItsBlocks]
      · exact hnone
    · exact hnone
    · exact hnone
  | saveBlockEnds id succeeded =>
    simp only [World.step, World.saveBlockEnds]
    split
    · rename_i blockHeight template hrun
      have hcounted := h.counted _ (mem_allRuns_of_run? hrun)
      split
      · intro event hevent
        rw [List.mem_singleton.mp hevent]
        exact hcounted
      · exact hnone
    · exact hnone
  | redisRuns id =>
    simp only [World.step, World.redisRuns]
    split
    · exact hnone
    · rename_i blockHeight blocks template hrun
      have hcounted := h.counted _ (mem_allRuns_of_run? hrun)
      intro event hevent
      rw [List.mem_singleton.mp hevent]
      show template.template.height = (blocks : ℤ) + 1
      rw [hcounted.2]
      exact hcounted.1
    · rename_i blockHeight miningInfo template hrun
      have hcounted := h.counted _ (mem_allRuns_of_run? hrun)
      intro event hevent
      rw [List.mem_singleton.mp hevent]
      cases miningInfo with
      | none => trivial
      | some info =>
        show template.template.height = (info.blocks : ℤ) + 1
        rw [hcounted.2 info rfl]
        exact hcounted.1
    · exact hnone

end Master

/-! ### The worker -/

/-- The invariant of the worker. -/
structure WorkerInTurn (worker : Worker) (emitted : List ℕ) : Prop where
  order : EmitOrder emitted (worker.loads.filterMap found)
  last : ∀ template ∈ emitted, ∃ last, worker.process.newBlockTemplate = some last ∧
    template ≤ last.produced
  starting : worker.startup ≠ .subscribed → worker.messages = []
  before : worker.startup ≠ .subscribed → worker.startup ≠ .loadingTemplate →
    worker.loads = [] ∧ emitted = []

section Worker
variable {worker worker' : Worker} {emitted : List ℕ} {store : Store}

/-- A load that has just begun holds nothing. -/
theorem found_append_reading (loads : List Load) (blocks : ℕ) :
    (loads ++ [(⟨blocks, .reading⟩ : Load)]).filterMap found = loads.filterMap found := by
  rw [List.filterMap_append]
  exact List.append_nil _

/-- A step of the worker that emits nothing. -/
theorem WorkerInTurn.quiet (h : WorkerInTurn worker emitted)
    (hheld : ∀ template ∈ worker'.loads.filterMap found,
      template ∈ worker.loads.filterMap found)
    (hlast : worker'.process.newBlockTemplate = worker.process.newBlockTemplate)
    (hstarting : worker'.startup ≠ .subscribed → worker'.messages = [])
    (hbefore : worker'.startup ≠ .subscribed → worker'.startup ≠ .loadingTemplate →
      worker'.loads = [] ∧ emitted = []) :
    WorkerInTurn worker' emitted where
  order := h.order.mono hheld
  last := by
    rw [hlast]
    exact h.last
  starting := hstarting
  before := hbefore

theorem WorkerInTurn.startupReads (h : WorkerInTurn worker emitted) :
    WorkerInTurn (worker.startupReads store).1
      (emitted ++ emittedBy .worker (worker.startupReads store).2) := by
  unfold Worker.startupReads
  split
  · rename_i hstartup
    have hbefore := h.before (by simp [hstartup]) (by simp [hstartup])
    have hmessages := h.starting (by simp [hstartup])
    rw [emittedBy_nil, List.append_nil]
    exact h.quiet (fun _ hin => hin) rfl (fun _ => hmessages) (fun _ _ => hbefore)
  · rename_i hstartup
    have hbefore := h.before (by simp [hstartup]) (by simp [hstartup])
    have hmessages := h.starting (by simp [hstartup])
    split
    · rw [emittedBy_nil, List.append_nil]
      refine h.quiet ?_ rfl (fun _ => hmessages) (fun _ hother => absurd rfl hother)
      rw [found_append_reading]
      exact fun _ hin => hin
    · rw [emittedBy_nil, List.append_nil]
      exact h.quiet (fun _ hin => hin) rfl (fun _ => hmessages) (fun _ _ => hbefore)
  · rename_i hstartup
    obtain ⟨hloads, hemitted⟩ := h.before (by simp [hstartup]) (by simp [hstartup])
    have hmessages := h.starting (by simp [hstartup])
    split
    · rename_i template htemplate
      -- nothing was emitted before, and no load is under way
      rw [hemitted, emittedBy_next, if_pos rfl, List.nil_append]
      constructor
      · show EmitOrder [template.produced] (worker.loads.filterMap found)
        rw [hloads]
        exact ⟨List.pairwise_singleton _ _, fun _ _ _ hin => absurd hin List.not_mem_nil⟩
      · intro emitted hin
        rw [List.mem_singleton.mp hin]
        exact ⟨template, next_newBlockTemplate _ _ _, Nat.le_refl _⟩
      · exact fun _ => hmessages
      · exact fun hother => absurd rfl hother
    · rw [emittedBy_nil, List.append_nil]
      exact h.quiet (fun _ hin => hin) rfl (fun _ => hmessages) (fun hother => absurd rfl hother)
  · rw [emittedBy_nil, List.append_nil]
    exact h

theorem WorkerInTurn.delivered (h : WorkerInTurn worker emitted) :
    WorkerInTurn worker.delivered emitted := by
  unfold Worker.delivered
  split
  · exact h
  · rename_i miningInfo messages hmessages
    -- an update only comes after the subscription
    have hstartup : worker.startup = .subscribed := by
      by_contra hother
      have hnone := h.starting hother
      rw [hmessages] at hnone
      cases hnone
    have habsurd : worker.startup ≠ .subscribed → ∀ {p : Prop}, p :=
      fun hother => absurd hstartup hother
    cases miningInfo with
    | none =>
      exact h.quiet (fun _ hin => hin) rfl (fun hother => habsurd hother)
        (fun hother => habsurd hother)
    | some info =>
      cases hapi : worker.apiOnly with
      | true =>
        simp only [if_true]
        exact h.quiet (fun _ hin => hin) rfl (fun hother => habsurd hother)
          (fun hother => habsurd hother)
      | false =>
        simp only [Bool.false_eq_true, if_false]
        refine h.quiet ?_ rfl (fun hother => habsurd hother) (fun hother => habsurd hother)
        rw [found_append_reading]
        exact fun _ hin => hin

variable {k : ℕ} {load : Load} {world : World} {history : List RpcEvent}

/-- The worker after a load has read what is not older than its last template. -/
theorem WorkerInTurn.read (h : WorkerInTurn worker emitted) {load' : Load}
    (hload : worker.loads[k]? = some load) (hnew : ∀ template, found load' = some template → ∀ last,
      worker.process.newBlockTemplate = some last → last.produced ≤ template) :
    WorkerInTurn { worker with loads := worker.loads.set k load' } emitted where
  order := by
    refine h.order.hold fun template hin => ?_
    obtain ⟨other, hother, hfound⟩ := List.mem_filterMap.mp hin
    rcases List.mem_or_eq_of_mem_set hother with hbefore | rfl
    · exact .inl (List.mem_filterMap.mpr ⟨other, hbefore, hfound⟩)
    · right
      intro before hbefore
      obtain ⟨last, hlast, hle⟩ := h.last before hbefore
      exact Nat.le_trans hle (hnew template hfound last hlast)
  last := h.last
  starting := h.starting
  before hsubscribed hloading := by
    have hnone := (h.before hsubscribed hloading).1
    rw [hnone] at hload
    cases hload

theorem WorkerInTurn.loadReads (h : WorkerInTurn world.worker emitted)
    (hturn : InTurn world history (.loadReads k)) :
    WorkerInTurn (world.worker.loadReads world.store k) emitted := by
  unfold Worker.loadReads
  split
  · rename_i blocks hload
    refine h.read hload fun template hfound last hlast => ?_
    obtain ⟨read, hread, rfl⟩ := Option.map_eq_some_iff.mp hfound
    exact hturn _ hload read hread last hlast
  · rename_i blocks hload
    refine h.read hload fun template hfound last hlast => ?_
    obtain ⟨read, hread, rfl⟩ := Option.map_eq_some_iff.mp hfound
    exact hturn _ hload read hread last hlast
  · exact h

theorem mem_found_endLoad {template : ℕ} (hin : template ∈ (worker.endLoad k).loads.filterMap found)
    :
    template ∈ worker.loads.filterMap found := by
  obtain ⟨load, hload, hfound⟩ := List.mem_filterMap.mp hin
  exact List.mem_filterMap.mpr ⟨load, List.mem_of_mem_eraseIdx hload, hfound⟩

/-- A load under way comes to its end after the start-up, or with it. -/
theorem WorkerInTurn.startup_endLoad (h : WorkerInTurn worker emitted)
    (hload : worker.loads[k]? = some load) : (worker.endLoad k).startup = .subscribed := by
  show (if worker.startup = .loadingTemplate then Startup.subscribed else worker.startup) = _
  split
  · rfl
  · rename_i hloading
    by_contra hsubscribed
    have hnone := (h.before hsubscribed hloading).1
    rw [hnone] at hload
    cases hload

/-- The worker after a load has emitted in turn. -/
theorem WorkerInTurn.emit (h : WorkerInTurn worker emitted) {template : NodeTemplate}
    (hload : worker.loads[k]? = some load) (hfound : found load = some template.produced)
    (hturn : ∀ older ∈ worker.loads.filterMap found, template.produced ≤ older) :
    WorkerInTurn { worker.endLoad k with
        process := (worker.process.next .worker template).1 }
      (emitted ++ emittedBy .worker (worker.process.next .worker template).2) := by
  have hheld : template.produced ∈ worker.loads.filterMap found :=
    List.mem_filterMap.mpr ⟨load, List.mem_of_getElem? hload, hfound⟩
  have hsubscribed := h.startup_endLoad hload
  rw [emittedBy_next, if_pos rfl]
  constructor
  · exact h.order.emit hheld hturn fun _ hin => mem_found_endLoad hin
  · intro before hbefore
    refine ⟨template, next_newBlockTemplate _ _ _, ?_⟩
    rcases List.mem_append.mp hbefore with hold | hnow
    · exact h.order.ahead before hold _ hheld
    · rw [List.mem_singleton.mp hnow]
  · exact fun hother => absurd hsubscribed hother
  · exact fun hother => absurd hsubscribed hother

theorem WorkerInTurn.loadResumes (h : WorkerInTurn world.worker emitted)
    (hturn : InTurn world history (.loadResumes k)) :
    WorkerInTurn (world.worker.loadResumes k).1
      (emitted ++ emittedBy .worker (world.worker.loadResumes k).2) := by
  unfold Worker.loadResumes
  split
  · rename_i blocks template hload
    exact h.emit hload rfl (hturn _ hload _ rfl)
  · rename_i blocks template hload
    exact h.emit hload rfl (hturn _ hload _ rfl)
  · rename_i blocks hload
    rw [emittedBy_nil, List.append_nil]
    exact h.read hload (fun _ hfound => by cases hfound)
  · rename_i blocks hload
    have hsubscribed := h.startup_endLoad hload
    rw [emittedBy_nil, List.append_nil]
    exact h.quiet (fun _ hin => mem_found_endLoad hin) rfl
      (fun hother => absurd hsubscribed hother) (fun hother => absurd hsubscribed hother)
  · rw [emittedBy_nil, List.append_nil]
    exact h

/-- A step in turn keeps the invariant of the worker. -/
theorem WorkerInTurn.step {world : World} {history : List RpcEvent}
    (h : WorkerInTurn world.worker (emittedBy .worker history)) (input : RpcInput)
    (hturn : InTurn world history input) :
    WorkerInTurn (world.step input).1.worker
      (emittedBy .worker (history ++ (world.step input).2)) := by
  rw [emittedBy_append]
  have hsame : WorkerInTurn world.worker (emittedBy .worker history ++ []) := by
    rw [List.append_nil]
    exact h
  cases input with
  | tick | newBlock | miningInfoArrives => exact hsame
  | wakes id =>
    simp only [World.step, World.wakes]
    split <;> exact hsame
  | snapshotEnds id payoutSnapshot =>
    simp only [World.step, World.snapshotEnds]
    split <;> exact hsame
  | blockTemplateArrives id blockTemplate =>
    simp only [World.step, World.blockTemplateArrives]
    split
    · split <;> exact hsame
    · exact hsame
  | startupReads => exact h.startupReads
  | loadReads k =>
    show WorkerInTurn _ (emittedBy .worker history ++ [])
    rw [List.append_nil]
    exact h.loadReads hturn
  | loadResumes k => exact h.loadResumes hturn
  | delivered =>
    show WorkerInTurn _ (emittedBy .worker history ++ [])
    rw [List.append_nil]
    exact h.delivered
  | masterSubscribes =>
    simp only [World.step, emittedBy_subscribe]
    exact hsame
  | workerSubscribes =>
    simp only [World.step]
    split
    · exact hsame
    · rw [emittedBy_subscribe, List.append_nil]
      exact h.quiet (fun _ hin => hin) (subscribe_newBlockTemplate _ _) h.starting h.before
  | saveBlockEnds id succeeded =>
    simp only [World.step, World.saveBlockEnds]
    split
    · split <;> exact hsame
    · exact hsame
  | redisRuns id =>
    simp only [World.step, World.redisRuns]
    split
    · exact hsame
    · exact hsame
    · rw [show emittedBy .worker [RpcEvent.published _ _] = [] from rfl, List.append_nil]
      split
      · rename_i hsubscribed
        exact h.quiet (fun _ hin => hin) rfl (fun hother => absurd hsubscribed hother) h.before
      · exact h
    · exact hsame
  | resumes id =>
    simp only [World.step, World.resumes]
    split
    · rw [emittedBy_next, if_neg (by simp)]
      exact hsame
    · split <;> exact hsame
    · exact hsame
    · exact hsame

end Worker

/-! ### Runs -/

/-- What a run in turn keeps. -/
structure TemplatesInTurn (world : World) (history : List RpcEvent) : Prop where
  master : MasterInTurn world history
  worker : WorkerInTurn world.worker (emittedBy .worker history)
  filed : ∀ event ∈ history, ForItsBlocks event

theorem TemplatesInTurn.step {world : World} {history : List RpcEvent}
    (h : TemplatesInTurn world history) (input : RpcInput) (hturn : InTurn world history input) :
    TemplatesInTurn (world.step input).1 (history ++ (world.step input).2) where
  master := h.master.step input hturn
  worker := h.worker.step input hturn
  filed event hevent := by
    rcases List.mem_append.mp hevent with hbefore | hnow
    · exact h.filed event hbefore
    · exact h.master.filed input event hnow

theorem templatesInTurn_initial (miningInfo : Option MiningInfo) (produced : ℕ) (store : Store)
    (apiOnly : Bool) : TemplatesInTurn (.initial miningInfo produced store apiOnly) [] where
  master :=
    { order := .nil
      emitted_lt := fun _ h => absurd h List.not_mem_nil
      held_lt := fun _ h => absurd h List.not_mem_nil
      counted := fun _ h => absurd h List.not_mem_nil }
  worker :=
    { order := .nil
      last := fun _ h => absurd h List.not_mem_nil
      starting := fun _ => rfl
      before := fun _ _ => ⟨rfl, rfl⟩ }
  filed _ h := absurd h List.not_mem_nil

/-- In every run whose steps are in turn, each process emits the templates in the order of the node,
and what is stored and published for a number of blocks builds on the last of them. -/
theorem templates_in_node_order (miningInfo : Option MiningInfo) (produced : ℕ) (store : Store)
    (apiOnly : Bool) (inputs : List RpcInput)
    (hturn : rpcMachine.Along InTurn (.initial miningInfo produced store apiOnly) [] inputs) :
    InNodeOrder (rpcMachine.history (.initial miningInfo produced store apiOnly) inputs) := by
  have hrun := @Machine.history_invariant _ _ _ rpcMachine TemplatesInTurn InTurn
    (fun _ _ input h hcond => h.step input hcond) _ _
    (templatesInTurn_initial miningInfo produced store apiOnly) inputs hturn
  rw [List.nil_append] at hrun
  constructor
  · intro process
    cases process with
    | master => exact hrun.master.order.sorted
    | worker => exact hrun.worker.order.sorted
  · exact hrun.filed

/-! ### A run in turn, and one that is not -/

namespace TemplateSample

open StreamSample (template)

/-- What a call of the interval awaits, from the answer of the node on. -/
def callEnds (height : ℤ) : List RpcInput :=
  [.blockTemplateArrives (some 0) (some (template height)), .snapshotEnds (some 0) none,
    .saveBlockEnds (some 0) true, .resumes (some 0), .redisRuns (some 0), .resumes (some 0),
    .redisRuns (some 0), .resumes (some 0), .redisRuns (some 0)]

/-- A worker starts, a call of the interval hands a template over, and the worker loads it. -/
def handOver : List RpcInput :=
  [.startupReads, .startupReads, .startupReads, .tick] ++ callEnds 101
    ++ [.delivered, .loadReads 0, .loadResumes 0]

/-- While a call of the interval awaits its snapshot, the loop fetches the template on the next
block and emits it; then the call goes on. -/
def overtaken : List RpcInput :=
  [.tick, .blockTemplateArrives (some 0) (some (template 101)),
    .newBlock, .miningInfoArrives (some ⟨101⟩), .blockTemplateArrives none (some (template 102)),
    .snapshotEnds none none, .saveBlockEnds none true, .resumes none,
    .snapshotEnds (some 0) none, .saveBlockEnds (some 0) true, .resumes (some 0),
    .redisRuns (some 0), .resumes (some 0), .redisRuns (some 0)]

end TemplateSample

open StreamSample TemplateSample in
/-- The template of the old tip is emitted after that of the new tip, and stored for the number of
blocks of the new one. -/
theorem not_in_node_order :
    let history := rpcMachine.history (.initial (some ⟨100⟩) 0 emptyStore false) overtaken
    ¬ (emittedBy .master history).Pairwise (· ≤ ·) ∧ ¬ ∀ event ∈ history, ForItsBlocks event := by
  constructor
  · rw [show emittedBy .master (rpcMachine.history
      (.initial (some ⟨100⟩) 0 emptyStore false) overtaken) = [1, 0] from rfl]
    decide
  · intro hfiled
    -- the last event is the store of template 101 for 101 blocks
    have hlast := hfiled (.templateStored 101 { template := template 101, produced := 0 })
      (List.mem_of_getElem? (i := 6) rfl)
    exact absurd hlast (by show ¬ (101 : ℤ) = 101 + 1; decide)

open StreamSample TemplateSample in
/-- A template is handed over to the worker, which emits it. -/
theorem templates_in_node_order_handOver :
    let history := rpcMachine.history (.initial (some ⟨100⟩) 0 emptyStore false) handOver
    emittedBy .worker history = [0] ∧ InNodeOrder history := by
  refine ⟨rfl, templates_in_node_order (some ⟨100⟩) 0 emptyStore false handOver ?_⟩
  refine ⟨trivial, trivial, trivial, trivial, ?_, trivial, trivial, ?_, trivial, ?_, trivial, ?_,
    trivial, trivial, ?_, ?_, trivial⟩
  · intro run hrun
    cases hrun
    rfl
  · exact fun _ _ => Nat.zero_le _
  · intro miningInfo hinfo
    cases hinfo
    rfl
  · intro miningInfo hinfo
    cases hinfo
    rfl
  · intro load hload template hfinds last hlast
    cases hlast
  · intro load hload template hfound older holder
    cases hload
    cases hfound
    exact Nat.zero_le _

end PublicPool.Proofs
