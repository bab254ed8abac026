import Mathlib.Logic.Function.Basic
import PublicPool.Mining.TemplateFeed

/-!
# `PublicPool.Mining.BitcoinRpc`: fetching and handing over block templates

The model of `services/bitcoin-rpc.service.ts` with the keys of `redis-messaging.service.ts` and the
rows of `rpc-block.service.ts` that it uses. The master runs `getAndBroadcastLatestTemplate`, by the
interval and by `listenForNewBlocks`, and a worker loads what the master has stored when an update
tells it to.

The state of a call is what it awaits. Between two awaits a call reads `miningInfo` anew, which the
other calls of the process change meanwhile. A command of the store takes effect at a moment of its
own between its call and the turn in which the caller goes on. Redis operations succeed.

`newMiningJob$` has a subscriber from the start in every process that mines. Its first stage runs
when a template is emitted; when it throws, the subscribers are gone, and the next one has the
stage run again on the last template.
-/

set_option autoImplicit false

namespace PublicPool.BitcoinRpc

open Lib (Machine)

/-- A block template with the number of those that the node made before it. -/
structure NodeTemplate where
  template : BlockTemplate
  produced : ℕ

/-- What Redis and the table of block templates hold. Mining info that is `null` reads as if it
were absent. -/
structure Store where
  latestMiningInfo : Option MiningInfo
  blockTemplates : ℕ → Option NodeTemplate
  latestBlockTemplate : Option NodeTemplate
  savedBlockTemplates : ℕ → Option NodeTemplate

/-- What `newMiningJob$` and its subscribers see of a process. -/
structure Process where
  miningInfo : Option MiningInfo
  newBlockTemplate : Option NodeTemplate
  jobsEnded : Bool

inductive ProcessName
  | master
  | worker
  deriving DecidableEq

/-- What is seen from outside. `staged` is a run of the first stage of `newMiningJob$`, with the
mining info that it reads, and `threw` an exception that leaves `getAndBroadcastLatestTemplate`. -/
inductive RpcEvent
  | emitted (process : ProcessName) (template : NodeTemplate)
  | staged (process : ProcessName) (miningInfo : Option MiningInfo)
  | rowSaved (blocks : ℕ) (template : NodeTemplate)
  | templateStored (blocks : ℕ) (template : NodeTemplate)
  | published (miningInfo : Option MiningInfo) (template : NodeTemplate)
  | threw (leavesLoop : Bool)

namespace Process

variable (name : ProcessName) (process : Process)

/-- A run of the first stage of `newMiningJob$`. It reads `miningInfo.blocks`. -/
def runStage : Process × List RpcEvent :=
  ({ process with jobsEnded := process.miningInfo.isNone }, [.staged name process.miningInfo])

/-- `_newBlockTemplate$.next(blockTemplate)`. -/
def next (template : NodeTemplate) : Process × List RpcEvent :=
  let process := { process with newBlockTemplate := some template }
  if process.jobsEnded then (process, [.emitted name template])
  else
    let (process, events) := process.runStage name
    (process, .emitted name template :: events)

/-- A subscription to `newMiningJob$`. -/
def subscribe : Process × List RpcEvent :=
  if process.jobsEnded then
    let process := { process with jobsEnded := false }
    if process.newBlockTemplate.isSome then process.runStage name else (process, [])
  else (process, [])

end Process

/-! ### The master -/

/-- What a call of `getAndBroadcastLatestTemplate` awaits. -/
inductive RunPhase
  | fetching
  | sleeping
  | snapshotting (template : NodeTemplate)
  | saving (template : NodeTemplate)
  | saved (template : NodeTemplate)
  | settingInfo (miningInfo : Option MiningInfo) (template : NodeTemplate)
  | infoSet (template : NodeTemplate)
  | settingTemplate (blocks : ℕ) (template : NodeTemplate)
  | templateSet (template : NodeTemplate)
  | publishing (miningInfo : Option MiningInfo) (template : NodeTemplate)

/-- A call of `getAndBroadcastLatestTemplate`, with the argument of `loadBlockTemplate`. -/
structure Run where
  blockHeight : ℕ
  phase : RunPhase

/-- `listenForNewBlocks`: it waits for a block, awaits `getMiningInfo` or its own call of
`getAndBroadcastLatestTemplate`, or an exception has left it. -/
inductive Loop
  | idle
  | asking
  | running (run : Run)
  | ended

/-- The master. `runs` are the calls that the interval has started. -/
structure Master where
  process : Process
  loop : Loop
  runs : List Run

namespace Master

variable (master : Master)

/-- A call under way: that of the loop, or one of the interval. -/
def run? : Option ℕ → Option Run
  | none => match master.loop with
    | .running run => some run
    | _ => none
  | some k => master.runs[k]?

/-- All calls under way. -/
def allRuns : List Run := (master.run? none).toList ++ master.runs

/-- A call goes on to its next await. -/
def setRun (run : Run) : Option ℕ → Master
  | none => { master with loop := .running run }
  | some k => { master with runs := master.runs.set k run }

/-- A call comes to its end. -/
def endRun : Option ℕ → Master
  | none => { master with loop := .idle }
  | some k => { master with runs := master.runs.eraseIdx k }

/-- An exception leaves a call. -/
def throwRun : Option ℕ → Master
  | none => { master with loop := .ended }
  | some k => { master with runs := master.runs.eraseIdx k }

/-- `getAndBroadcastLatestTemplate` up to `getblocktemplate`, by the interval. -/
def tick : Master :=
  match master.process.miningInfo with
  | none => master
  | some miningInfo => { master with runs := master.runs ++ [⟨miningInfo.blocks, .fetching⟩] }

/-- The loop takes the next block. -/
def newBlock : Master :=
  match master.loop with
  | .idle => { master with loop := .asking }
  | _ => master

/-- `getMiningInfo` ends, and the loop goes on with `getAndBroadcastLatestTemplate`. -/
def miningInfoArrives (miningInfo : Option MiningInfo) : Master :=
  match master.loop with
  | .asking =>
    let process := { master.process with miningInfo }
    match miningInfo with
    | none => { master with process, loop := .idle }
    | some info => { master with process, loop := .running ⟨info.blocks, .fetching⟩ }
  | _ => master

end Master

/-! ### A worker -/

/-- What a call of `loadTemplateForWorker` awaits. -/
inductive LoadPhase
  | reading
  | read (found : Option NodeTemplate)
  | readingRow
  | rowRead (found : Option NodeTemplate)

/-- A call of `loadTemplateForWorker`. -/
structure Load where
  blocks : ℕ
  phase : LoadPhase

/-- How far `onModuleInit` is: it reads the mining info, reads it again, loads a template for it or
the latest template, and has then subscribed to the updates. -/
inductive Startup
  | replayingInfo
  | loadingInfo
  | loadingTemplate
  | loadingLatest
  | subscribed
  deriving DecidableEq

/-- A worker. `messages` are the updates that are on their way to it. -/
structure Worker where
  process : Process
  apiOnly : Bool
  startup : Startup
  messages : List (Option MiningInfo)
  loads : List Load

namespace Worker

variable (worker : Worker)

/-- A step of `onModuleInit` that reads the store. -/
def startupReads (store : Store) : Worker × List RpcEvent :=
  match worker.startup with
  | .replayingInfo =>
    let process := { worker.process with
      miningInfo := store.latestMiningInfo.or worker.process.miningInfo }
    ({ worker with process, startup := if worker.apiOnly then .subscribed else .loadingInfo }, [])
  | .loadingInfo =>
    match store.latestMiningInfo with
    | some miningInfo =>
      ({ worker with
          process := { worker.process with miningInfo := some miningInfo }
          startup := .loadingTemplate
          loads := worker.loads ++ [⟨miningInfo.blocks, .reading⟩] }, [])
    | none => ({ worker with startup := .loadingLatest }, [])
  | .loadingLatest =>
    match store.latestBlockTemplate with
    | some template =>
      let (process, events) := worker.process.next .worker template
      ({ worker with process, startup := .subscribed }, events)
    | none => ({ worker with startup := .subscribed }, [])
  | _ => (worker, [])

/-- The handler of an update, up to its first await. On `null` it throws after it has set
`miningInfo`, which `subscribeMiningInfoUpdates` catches. -/
def delivered : Worker :=
  match worker.messages with
  | [] => worker
  | miningInfo :: messages =>
    let worker := { worker with process := { worker.process with miningInfo }, messages }
    match miningInfo with
    | none => worker
    | some info =>
      if worker.apiOnly then worker
      else { worker with loads := worker.loads ++ [⟨info.blocks, .reading⟩] }

/-- A load comes to its end. The load of `onModuleInit` is the only one before the subscription. -/
def endLoad (k : ℕ) : Worker :=
  { worker with
    loads := worker.loads.eraseIdx k
    startup := if worker.startup = .loadingTemplate then .subscribed else worker.startup }

/-- A load reads the store. -/
def loadReads (store : Store) (k : ℕ) : Worker :=
  match worker.loads[k]? with
  | some ⟨blocks, .reading⟩ =>
    { worker with loads := worker.loads.set k ⟨blocks, .read (store.blockTemplates blocks)⟩ }
  | some ⟨blocks, .readingRow⟩ =>
    { worker with loads := worker.loads.set k ⟨blocks, .rowRead (store.savedBlockTemplates blocks)⟩ }
  | _ => worker

/-- A load goes on after it has read. -/
def loadResumes (k : ℕ) : Worker × List RpcEvent :=
  match worker.loads[k]? with
  | some ⟨_, .read (some template)⟩ | some ⟨_, .rowRead (some template)⟩ =>
    let (process, events) := worker.process.next .worker template
    ({ worker.endLoad k with process }, events)
  | some ⟨blocks, .read none⟩ =>
    ({ worker with loads := worker.loads.set k ⟨blocks, .readingRow⟩ }, [])
  | some ⟨_, .rowRead none⟩ => (worker.endLoad k, [])
  | _ => (worker, [])

end Worker

/-! ### Both -/

/-- The master, a worker and the store, with the number of templates that the node has made. -/
structure World where
  produced : ℕ
  store : Store
  master : Master
  worker : Worker

/-- What happens. The calls of the master are those of the interval by their number, and that of
the loop. -/
inductive RpcInput
  | tick
  | newBlock
  | miningInfoArrives (miningInfo : Option MiningInfo)
  | blockTemplateArrives (run : Option ℕ) (blockTemplate : Option BlockTemplate)
  | wakes (run : Option ℕ)
  | snapshotEnds (run : Option ℕ) (payoutSnapshot : Option (ℕ × List AddressObject))
  | saveBlockEnds (run : Option ℕ) (succeeded : Bool)
  | redisRuns (run : Option ℕ)
  | resumes (run : Option ℕ)
  | masterSubscribes
  | startupReads
  | delivered
  | loadReads (load : ℕ)
  | loadResumes (load : ℕ)
  | workerSubscribes

namespace World

/-- The master has asked for the mining info, and the worker starts with what is in the store. -/
def initial (miningInfo : Option MiningInfo) (produced : ℕ) (store : Store) (apiOnly : Bool) :
    World where
  produced := produced
  store := store
  master :=
    { process := { miningInfo, newBlockTemplate := none, jobsEnded := false }
      loop := .idle
      runs := [] }
  worker :=
    { process := { miningInfo := none, newBlockTemplate := none, jobsEnded := apiOnly }
      apiOnly := apiOnly
      startup := .replayingInfo
      messages := []
      loads := [] }

variable (world : World)

/-- `getblocktemplate` ends. -/
def blockTemplateArrives (id : Option ℕ) (blockTemplate : Option BlockTemplate) : World :=
  match world.master.run? id with
  | some ⟨blockHeight, .fetching⟩ =>
    match blockTemplate with
    | some template =>
      { world with
        produced := world.produced + 1
        master := world.master.setRun
          ⟨blockHeight, .snapshotting { template, produced := world.produced }⟩ id }
    | none => { world with master := world.master.setRun ⟨blockHeight, .sleeping⟩ id }
  | _ => world

/-- The ten seconds after a failure are over. -/
def wakes (id : Option ℕ) : World :=
  match world.master.run? id with
  | some ⟨blockHeight, .sleeping⟩ =>
    { world with master := world.master.setRun ⟨blockHeight, .fetching⟩ id }
  | _ => world

/-- `createSnapshotForTemplate` ends. A failure is logged. -/
def snapshotEnds (id : Option ℕ) (payoutSnapshot : Option (ℕ × List AddressObject)) : World :=
  match world.master.run? id with
  | some ⟨blockHeight, .snapshotting made⟩ =>
    let template := match payoutSnapshot with
      | some (payoutSnapshotId, payoutOutputs) =>
        { made.template with
          payoutSnapshotId := some payoutSnapshotId
          payoutOutputs := some payoutOutputs }
      | none => made.template
    { world with
      master := world.master.setRun ⟨blockHeight, .saving { made with template }⟩ id }
  | _ => world

/-- `saveBlock` ends. A failure is logged. -/
def saveBlockEnds (id : Option ℕ) (succeeded : Bool) : World × List RpcEvent :=
  match world.master.run? id with
  | some ⟨blockHeight, .saving template⟩ =>
    let master := world.master.setRun ⟨blockHeight, .saved template⟩ id
    if succeeded then
      ({ world with
          master
          store := { world.store with
            savedBlockTemplates :=
              Function.update world.store.savedBlockTemplates blockHeight (some template) } },
        [.rowSaved blockHeight template])
    else ({ world with master }, [])
  | _ => (world, [])

/-- Redis runs the command that a call awaits. -/
def redisRuns (id : Option ℕ) : World × List RpcEvent :=
  match world.master.run? id with
  | some ⟨blockHeight, .settingInfo miningInfo template⟩ =>
    ({ world with
        master := world.master.setRun ⟨blockHeight, .infoSet template⟩ id
        store := { world.store with latestMiningInfo := miningInfo } }, [])
  | some ⟨blockHeight, .settingTemplate blocks template⟩ =>
    ({ world with
        master := world.master.setRun ⟨blockHeight, .templateSet template⟩ id
        store := { world.store with
          blockTemplates := Function.update world.store.blockTemplates blocks (some template)
          latestBlockTemplate := some template } },
      [.templateStored blocks template])
  | some ⟨_, .publishing miningInfo template⟩ =>
    ({ world with
        master := world.master.endRun id
        worker :=
          if world.worker.startup = .subscribed then
            { world.worker with messages := world.worker.messages ++ [miningInfo] }
          else world.worker },
      [.published miningInfo template])
  | _ => (world, [])

/-- A call goes on: it emits its template, and hands it over with what `miningInfo` is then. -/
def resumes (id : Option ℕ) : World × List RpcEvent :=
  match world.master.run? id with
  | some ⟨blockHeight, .saved template⟩ =>
    let (process, events) := world.master.process.next .master template
    let master := { world.master with process }
    ({ world with
        master := master.setRun ⟨blockHeight, .settingInfo process.miningInfo template⟩ id },
      events)
  | some ⟨blockHeight, .infoSet template⟩ =>
    match world.master.process.miningInfo with
    | none => ({ world with master := world.master.throwRun id }, [.threw id.isNone])
    | some miningInfo =>
      ({ world with
          master := world.master.setRun
            ⟨blockHeight, .settingTemplate miningInfo.blocks template⟩ id }, [])
  | some ⟨blockHeight, .templateSet template⟩ =>
    ({ world with
        master := world.master.setRun
          ⟨blockHeight, .publishing world.master.process.miningInfo template⟩ id }, [])
  | _ => (world, [])

/-- One step. -/
def step : RpcInput → World × List RpcEvent
  | .tick => ({ world with master := world.master.tick }, [])
  | .newBlock => ({ world with master := world.master.newBlock }, [])
  | .miningInfoArrives miningInfo =>
    ({ world with master := world.master.miningInfoArrives miningInfo }, [])
  | .blockTemplateArrives id blockTemplate => (world.blockTemplateArrives id blockTemplate, [])
  | .wakes id => (world.wakes id, [])
  | .snapshotEnds id payoutSnapshot => (world.snapshotEnds id payoutSnapshot, [])
  | .saveBlockEnds id succeeded => world.saveBlockEnds id succeeded
  | .redisRuns id => world.redisRuns id
  | .resumes id => world.resumes id
  | .masterSubscribes =>
    let (process, events) := world.master.process.subscribe .master
    ({ world with master := { world.master with process } }, events)
  | .startupReads =>
    let (worker, events) := world.worker.startupReads world.store
    ({ world with worker }, events)
  | .delivered => ({ world with worker := world.worker.delivered }, [])
  | .loadReads k => ({ world with worker := world.worker.loadReads world.store k }, [])
  | .loadResumes k =>
    let (worker, events) := world.worker.loadResumes k
    ({ world with worker }, events)
  | .workerSubscribes =>
    if world.worker.apiOnly then (world, [])
    else
      let (process, events) := world.worker.process.subscribe .worker
      ({ world with worker := { world.worker with process } }, events)

end World

/-- The master and the worker as a state machine. -/
def rpcMachine : Machine World RpcInput RpcEvent := ⟨World.step⟩

end PublicPool.BitcoinRpc
