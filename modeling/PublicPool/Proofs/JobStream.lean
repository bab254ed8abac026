import PublicPool.Mining.BitcoinRpc

/-!
# `PublicPool.Proofs.JobStream`: mining info that is gone when a template comes

The first stage of `newMiningJob$` reads the number of blocks of `miningInfo`, which is `null` after
`getmininginfo` has failed, and not there in a worker that starts before the mining info is stored.
The calls of the interval check it before they fetch a template and emit the template after three
awaits, so the loop over the blocks may have replaced it by `null` meanwhile.

`stream_survives_iff` says which runs the stage survives: those in which the process that a
template comes through in has mining info at that moment. An exception never leaves the loop over
the blocks, in any run (`LoopInformed`): only the loop replaces the mining info, and not during the
call that it awaits itself.
-/

set_option autoImplicit false

namespace PublicPool.Proofs

open BitcoinRpc
open Lib (Machine)

/-- The stage throws on no template, and nothing leaves the loop over the blocks. -/
def StreamSurvives (history : List RpcEvent) : Prop :=
  (∀ process miningInfo, .staged process miningInfo ∈ history → miningInfo ≠ none) ∧
    .threw true ∉ history

/-- The process in which a step lets a template through to the stage. -/
def stagedProcess (world : World) : RpcInput → Option (ProcessName × Process)
  | .resumes id =>
    match world.master.run? id with
    | some ⟨_, .saved _⟩ =>
      if world.master.process.jobsEnded then none else some (.master, world.master.process)
    | _ => none
  | .masterSubscribes =>
    if world.master.process.jobsEnded && world.master.process.newBlockTemplate.isSome then
      some (.master, world.master.process)
    else none
  | .startupReads =>
    if world.worker.startup = .loadingLatest && world.store.latestBlockTemplate.isSome &&
        !world.worker.process.jobsEnded then
      some (.worker, world.worker.process)
    else none
  | .loadResumes k =>
    match world.worker.loads[k]? with
    | some ⟨_, .read (some _)⟩ | some ⟨_, .rowRead (some _)⟩ =>
      if world.worker.process.jobsEnded then none else some (.worker, world.worker.process)
    | _ => none
  | .workerSubscribes =>
    if !world.worker.apiOnly && world.worker.process.jobsEnded &&
        world.worker.process.newBlockTemplate.isSome then
      some (.worker, world.worker.process)
    else none
  | _ => none

/-- Where a template comes through, the mining info is there. -/
def MiningInfoThere (world : World) (_ : List RpcEvent) (input : RpcInput) : Prop :=
  ∀ staged ∈ stagedProcess world input, staged.2.miningInfo ≠ none

/-! ### The stage in the pipeline -/

/-- In the pipeline, a template that can be made into a job template ends a stream that is still
there iff the mining info is not. -/
theorem pipeline_ends_iff (host : FeedHost) (feed : TemplateFeed) (blockTemplate : BlockTemplate)
    (now : ℕ) (hlive : feed.ended = false)
    (hdecodes : ∀ clearJobs, (blockTemplate.jobTemplate host clearJobs now).isSome) :
    (feed.step host (.blockTemplate blockTemplate now)).1.ended = true ↔
      feed.miningInfo = none := by
  simp only [TemplateFeed.step, hlive, Bool.false_eq_true, if_false]
  cases hinfo : feed.miningInfo with
  | none => simp
  | some miningInfo =>
    simp only [reduceCtorEq, iff_false, Bool.not_eq_true]
    unfold TemplateFeed.next
    obtain ⟨jobTemplate, hjob⟩ := Option.isSome_iff_exists.mp (hdecodes (feed.clearsJobs miningInfo))
    simp only [hjob]
    split <;> exact hlive

/-! ### One step -/

section
variable {world : World} {history : List RpcEvent}

variable {name process : ProcessName} {here : Process} {miningInfo : Option MiningInfo}
  {input : RpcInput} {master : Master} {run : Run}

theorem staged_mem_next {template : NodeTemplate} :
    RpcEvent.staged process miningInfo ∈ (here.next name template).2 ↔
      here.jobsEnded = false ∧ process = name ∧ miningInfo = here.miningInfo := by
  unfold Process.next Process.runStage
  cases hended : here.jobsEnded <;> simp

theorem staged_mem_subscribe :
    RpcEvent.staged process miningInfo ∈ (here.subscribe name).2 ↔
      (here.jobsEnded && here.newBlockTemplate.isSome) = true ∧ process = name ∧
        miningInfo = here.miningInfo := by
  unfold Process.subscribe Process.runStage
  cases hended : here.jobsEnded with
  | false => simp
  | true => cases htemplate : here.newBlockTemplate <;> simp

/-- The stage runs where a template comes through, on the mining info of that process. -/
theorem staged_mem_step :
    RpcEvent.staged process miningInfo ∈ (world.step input).2 ↔
      ∃ here, stagedProcess world input = some (process, here) ∧
        miningInfo = here.miningInfo := by
  cases input with
  | tick | newBlock | miningInfoArrives | blockTemplateArrives | wakes | snapshotEnds | delivered
  | loadReads => simp [World.step, stagedProcess]
  | saveBlockEnds id succeeded =>
    simp only [World.step, stagedProcess, World.saveBlockEnds]
    split
    · cases succeeded <;> simp
    · simp
  | redisRuns id =>
    simp only [World.step, stagedProcess, World.redisRuns]
    split <;> simp
  | resumes id =>
    simp only [World.step, stagedProcess, World.resumes]
    rcases hrun : world.master.run? id with _ | ⟨blockHeight, phase⟩
    · simp
    · cases phase with
      | saved template =>
        simp only [staged_mem_next]
        cases world.master.process.jobsEnded <;> simp [and_comm, eq_comm]
      | infoSet template =>
        cases world.master.process.miningInfo <;> simp
      | fetching | sleeping | snapshotting | saving | settingInfo | settingTemplate | templateSet
      | publishing => simp
  | masterSubscribes =>
    simp only [World.step, stagedProcess, staged_mem_subscribe]
    split <;> rename_i hpasses
    · simp [hpasses, and_comm, eq_comm]
    · simp [hpasses]
  | startupReads =>
    simp only [World.step, stagedProcess, Worker.startupReads]
    cases hstartup : world.worker.startup with
    | replayingInfo | loadingTemplate | subscribed => simp
    | loadingInfo => cases world.store.latestMiningInfo <;> simp
    | loadingLatest =>
      cases world.store.latestBlockTemplate with
      | none => simp
      | some template =>
        simp only [staged_mem_next]
        cases world.worker.process.jobsEnded <;> simp [and_comm, eq_comm]
  | loadResumes k =>
    simp only [World.step, stagedProcess, Worker.loadResumes]
    rcases hload : world.worker.loads[k]? with _ | ⟨blocks, phase⟩
    · simp
    · cases phase with
      | read found | rowRead found =>
        cases found with
        | none => simp
        | some template =>
          simp only [staged_mem_next]
          cases world.worker.process.jobsEnded <;> simp [and_comm, eq_comm]
      | reading | readingRow => simp
  | workerSubscribes =>
    simp only [World.step, stagedProcess]
    cases hapi : world.worker.apiOnly with
    | true => simp
    | false =>
      simp only [Bool.false_eq_true, if_false, staged_mem_subscribe, Bool.not_false, Bool.true_and]
      split <;> rename_i hpasses
      · simp [hpasses, and_comm, eq_comm]
      · simp [hpasses]

theorem threw_not_mem_next (name : ProcessName) (here : Process) (template : NodeTemplate) :
    RpcEvent.threw true ∉ (here.next name template).2 := by
  unfold Process.next Process.runStage
  cases here.jobsEnded <;> simp

theorem threw_not_mem_subscribe (name : ProcessName) (here : Process) :
    RpcEvent.threw true ∉ (here.subscribe name).2 := by
  unfold Process.subscribe Process.runStage
  cases here.jobsEnded with
  | false => simp
  | true => cases here.newBlockTemplate <;> simp

theorem running_of_run? (h : master.run? none = some run) : master.loop = .running run := by
  cases hloop : master.loop with
  | running own =>
    rw [Master.run?, hloop] at h
    rw [Option.some.inj h]
  | idle | asking | ended => simp [Master.run?, hloop] at h

/-- An exception leaves the loop only when its own call finds no mining info. -/
theorem threw_mem_step (h : RpcEvent.threw true ∈ (world.step input).2) :
    (∃ run, world.master.loop = .running run) ∧ world.master.process.miningInfo = none := by
  cases input with
  | tick | newBlock | miningInfoArrives | blockTemplateArrives | wakes | snapshotEnds | delivered
  | loadReads => simp [World.step] at h
  | saveBlockEnds id succeeded =>
    simp only [World.step, World.saveBlockEnds] at h
    split at h
    · cases succeeded <;> simp at h
    · simp at h
  | redisRuns id =>
    simp only [World.step, World.redisRuns] at h
    split at h <;> simp at h
  | masterSubscribes => exact absurd h (threw_not_mem_subscribe _ _)
  | workerSubscribes =>
    simp only [World.step] at h
    split at h
    · simp at h
    · exact absurd h (threw_not_mem_subscribe _ _)
  | startupReads =>
    simp only [World.step, Worker.startupReads] at h
    cases hstartup : world.worker.startup with
    | replayingInfo | loadingTemplate | subscribed => simp [hstartup] at h
    | loadingInfo =>
      rw [hstartup] at h
      cases hinfo : world.store.latestMiningInfo <;> simp [hinfo] at h
    | loadingLatest =>
      rw [hstartup] at h
      cases htemplate : world.store.latestBlockTemplate with
      | none => simp [htemplate] at h
      | some template =>
        rw [htemplate] at h
        exact absurd h (threw_not_mem_next _ _ _)
  | loadResumes k =>
    simp only [World.step, Worker.loadResumes] at h
    split at h
    · exact absurd h (threw_not_mem_next _ _ _)
    · exact absurd h (threw_not_mem_next _ _ _)
    · simp at h
    · simp at h
    · simp at h
  | resumes id =>
    simp only [World.step, World.resumes] at h
    split at h
    · exact absurd h (threw_not_mem_next _ _ _)
    · rename_i run blockHeight template hrun
      cases hinfo : world.master.process.miningInfo with
      | some miningInfo => simp [hinfo] at h
      | none =>
        rw [hinfo] at h
        cases id with
        | some k => simp at h
        | none =>
          exact ⟨⟨_, running_of_run? hrun⟩, rfl⟩
    · simp at h
    · simp at h

/-- While the loop awaits its own call, the mining info is there. -/
def LoopInformed (world : World) : Prop :=
  ∀ run, world.master.loop = .running run → world.master.process.miningInfo ≠ none

/-- The loop awaits its own call after a step only if it did before, and the mining info is the
same. -/
structure LoopStays (before after : Master) : Prop where
  loop : ∀ own, after.loop = .running own → ∃ own', before.loop = .running own'
  miningInfo : after.process.miningInfo = before.process.miningInfo

theorem LoopStays.refl (master : Master) : LoopStays master master := ⟨fun own h => ⟨own, h⟩, rfl⟩

theorem loopStays_setRun {run' : Run} {id : Option ℕ} (hrun : master.run? id = some run) :
    LoopStays master (master.setRun run' id) := by
  cases id with
  | some k => exact ⟨fun own h => ⟨own, h⟩, rfl⟩
  | none => exact ⟨fun _ _ => ⟨run, running_of_run? hrun⟩, rfl⟩

theorem loopStays_endRun (master : Master) (id : Option ℕ) :
    LoopStays master (master.endRun id) := by
  cases id with
  | some k => exact ⟨fun own h => ⟨own, h⟩, rfl⟩
  | none => exact ⟨fun _ h => (by cases h), rfl⟩

theorem loopStays_throwRun (master : Master) (id : Option ℕ) :
    LoopStays master (master.throwRun id) := by
  cases id with
  | some k => exact ⟨fun own h => ⟨own, h⟩, rfl⟩
  | none => exact ⟨fun _ h => (by cases h), rfl⟩

theorem next_miningInfo (name : ProcessName) (here : Process) (template : NodeTemplate) :
    (here.next name template).1.miningInfo = here.miningInfo := by
  cases hended : here.jobsEnded <;> simp [Process.next, Process.runStage, hended]

theorem subscribe_miningInfo (name : ProcessName) (here : Process) :
    (here.subscribe name).1.miningInfo = here.miningInfo := by
  cases hended : here.jobsEnded with
  | false => simp [Process.subscribe, hended]
  | true =>
    cases htemplate : here.newBlockTemplate <;>
      simp [Process.subscribe, Process.runStage, hended, htemplate]

/-- Only the answer that the loop waits for changes the mining info, or has the loop await its own
call. -/
theorem loopStays_step (hother : ∀ answer, input ≠ .miningInfoArrives answer) :
    LoopStays world.master (world.step input).1.master := by
  cases input with
  | miningInfoArrives answer => exact absurd rfl (hother answer)
  | startupReads | delivered | loadReads | loadResumes => exact .refl _
  | workerSubscribes =>
    simp only [World.step]
    split <;> exact .refl _
  | masterSubscribes => exact ⟨fun own h => ⟨own, h⟩, subscribe_miningInfo _ _⟩
  | tick =>
    simp only [World.step, Master.tick]
    split
    · exact .refl _
    · exact ⟨fun own h => ⟨own, h⟩, rfl⟩
  | newBlock =>
    simp only [World.step, Master.newBlock]
    split
    · exact ⟨fun _ h => (by cases h), rfl⟩
    · exact .refl _
  | blockTemplateArrives id answer =>
    simp only [World.step, World.blockTemplateArrives]
    split
    · rename_i hrun
      split <;> exact loopStays_setRun hrun
    · exact .refl _
  | wakes id =>
    simp only [World.step, World.wakes]
    split
    · rename_i hrun
      exact loopStays_setRun hrun
    · exact .refl _
  | snapshotEnds id answer =>
    simp only [World.step, World.snapshotEnds]
    split
    · rename_i hrun
      exact loopStays_setRun hrun
    · exact .refl _
  | saveBlockEnds id succeeded =>
    simp only [World.step, World.saveBlockEnds]
    split
    · rename_i hrun
      split <;> exact loopStays_setRun hrun
    · exact .refl _
  | redisRuns id =>
    simp only [World.step, World.redisRuns]
    split
    · rename_i hrun
      exact loopStays_setRun hrun
    · rename_i hrun
      exact loopStays_setRun hrun
    · exact loopStays_endRun _ id
    · exact .refl _
  | resumes id =>
    simp only [World.step, World.resumes]
    split
    · rename_i hrun
      -- the emission has changed the process, but neither the loop nor the mining info
      cases id with
      | some k => exact ⟨fun own h => ⟨own, h⟩, next_miningInfo _ _ _⟩
      | none => exact ⟨fun _ _ => ⟨_, running_of_run? hrun⟩, next_miningInfo _ _ _⟩
    · rename_i hrun
      split
      · exact loopStays_throwRun _ id
      · exact loopStays_setRun hrun
    · rename_i hrun
      exact loopStays_setRun hrun
    · exact .refl _

theorem LoopInformed.step (h : LoopInformed world) (input : RpcInput) :
    LoopInformed (world.step input).1 := by
  by_cases hanswer : ∃ answer, input = .miningInfoArrives answer
  · obtain ⟨answer, rfl⟩ := hanswer
    intro own hown
    cases hloop : world.master.loop with
    | asking =>
      cases answer with
      | none => simp [World.step, Master.miningInfoArrives, hloop] at hown
      | some miningInfo => simp [World.step, Master.miningInfoArrives, hloop]
    | idle | ended => simp [World.step, Master.miningInfoArrives, hloop] at hown
    | running before =>
      simp only [World.step, Master.miningInfoArrives, hloop] at hown ⊢
      exact h before hloop
  · have hstays : LoopStays world.master (world.step input).1.master :=
      loopStays_step fun answer heq => hanswer ⟨answer, heq⟩
    intro own hown
    obtain ⟨before, hbefore⟩ := hstays.loop own hown
    rw [hstays.miningInfo]
    exact h before hbefore

/-! ### Runs -/

/-- What the stage reads in a run, and what leaves the loop in it. -/
theorem streamSurvives_iff_along (inputs : List RpcInput) (world : World)
    (history : List RpcEvent) (h : LoopInformed world) :
    StreamSurvives (rpcMachine.history world inputs) ↔
      rpcMachine.Along MiningInfoThere world history inputs := by
  induction inputs generalizing world history with
  | nil => simp [StreamSurvives, Machine.Along]
  | cons input inputs ih =>
    have hfirst : StreamSurvives (world.step input).2 ↔ MiningInfoThere world history input := by
      constructor
      · intro hsurvives staged hstaged
        exact hsurvives.1 staged.1 _ (staged_mem_step.mpr ⟨staged.2, hstaged, rfl⟩)
      · intro hthere
        constructor
        · intro process miningInfo hmem
          obtain ⟨here, hhere, rfl⟩ := staged_mem_step.mp hmem
          exact hthere (process, here) hhere
        · intro hthrew
          obtain ⟨⟨own, hown⟩, hnone⟩ := threw_mem_step hthrew
          exact h own hown hnone
    have hrest := ih (world.step input).1 (history ++ (world.step input).2) (h.step input)
    have hsplit : StreamSurvives (rpcMachine.history world (input :: inputs)) ↔
        StreamSurvives (world.step input).2 ∧
          StreamSurvives (rpcMachine.history (world.step input).1 inputs) := by
      rw [Machine.history_cons]
      show StreamSurvives ((world.step input).2 ++ _) ↔ _
      simp only [StreamSurvives, List.mem_append, or_imp, forall_and, not_or]
      tauto
    rw [hsplit, hfirst, hrest]
    rfl

end

/-- In every run, from whatever the store holds, the stage throws on no template and no exception
leaves the loop over the blocks, iff a template comes through only where the mining info is. -/
theorem stream_survives_iff (miningInfo : Option MiningInfo) (produced : ℕ) (store : Store)
    (apiOnly : Bool) (inputs : List RpcInput) :
    StreamSurvives (rpcMachine.history (.initial miningInfo produced store apiOnly) inputs) ↔
      rpcMachine.Along MiningInfoThere (.initial miningInfo produced store apiOnly) [] inputs := by
  apply streamSurvives_iff_along
  intro own hown
  cases hown

/-! ### Two runs that end the stream -/

namespace StreamSample

/-- A template of the node. -/
def template (height : ℤ) : BlockTemplate where
  version := 0
  previousblockhash := ""
  transactions := []
  coinbasevalue := 0
  mintime := 0
  sigoplimit := none
  sizelimit := none
  weightlimit := none
  bits := ""
  height := height
  payoutSnapshotId := none
  payoutOutputs := none

def emptyStore : Store where
  latestMiningInfo := none
  blockTemplates _ := none
  latestBlockTemplate := none
  savedBlockTemplates _ := none

/-- A template that has lost its mining info. -/
def templateOnly : Store :=
  { emptyStore with latestBlockTemplate := some { template := template 101, produced := 0 } }

/-- A block comes while the interval's call saves its template, and `getmininginfo` fails. -/
def failingRun : List RpcInput :=
  [.tick, .blockTemplateArrives (some 0) (some (template 101)), .snapshotEnds (some 0) none,
    .newBlock, .miningInfoArrives none, .saveBlockEnds (some 0) true, .resumes (some 0)]

end StreamSample

open StreamSample in
/-- The mining info is replaced by `null` under a call of the interval, or was never there. -/
theorem not_stream_survives :
    ¬ StreamSurvives (rpcMachine.history (.initial (some ⟨100⟩) 0 emptyStore false) failingRun) ∧
      ¬ StreamSurvives (rpcMachine.history (.initial none 1 templateOnly false)
        [.startupReads, .startupReads, .startupReads]) := by
  constructor
  · intro hsurvives
    exact hsurvives.1 .master none (List.mem_of_getElem? (i := 2) rfl) rfl
  · intro hsurvives
    exact hsurvives.1 .worker none (List.mem_of_getElem? (i := 1) rfl) rfl

end PublicPool.Proofs
