import PublicPool.Mining.JobsService
import PublicPool.Payout.Snapshot
import PublicPool.Sv2.Extranonce
import PublicPool.Sv2.Registry

/-!
# `PublicPool.Sv2.Client`: a Stratum V2 mining connection

The model of `models/StratumV2Client.ts`. A connection opens channels, each with its own
extranonce prefix and its own jobs. Standard channels keep the merkle root of every job they
were sent, extended channels the parts of its coinbase. A connection that negotiated work
selection is sent no jobs and brings its own with `SetCustomMiningJob`.

The handlers of the source are suspended wherever they await a call. A `Wait` is such a point
with the variables that live across it, and a `Turn` is what a handler does from one point to
the next; the suspended handlers of a connection are its `tasks`. The frames of one chunk are
handled one after the other, those of different chunks in any order.

A channel that is closed leaves the connection's map, but the handlers under way keep it; here
it stays under its id with `isOpen` false.
-/

set_option autoImplicit false

namespace PublicPool

namespace Sv2

open Lib (OrdMap)
open DifficultyUtils

/-! ### Channels -/

inductive ChannelType
  | standard
  | extended
  deriving DecidableEq, Repr

/-- `ExtendedJobData`. A `workProtocol` that is left out is the pool's. -/
structure ExtendedJobData where
  coinbasePrefix : Bytes
  coinbaseSuffix : Bytes
  merklePath : List Bytes
  prevHash : Bytes
  nBits : ℤ
  minNtime : ℤ
  jobTemplate : JobTemplate
  miningJob : MiningJob
  retiredAt : Option ℕ
  workProtocol : WorkProtocol

/-- `ChannelState`. -/
structure ChannelState where
  channelType : ChannelType
  extranoncePrefix : Bytes
  extranonceSize : ℕ
  sessionDifficulty : Option ℚ
  declaredMaxTarget : Bytes
  jobIdToDifficulty : ℕ → Option ℚ
  jobIdToMerkleRoot : ℕ → Option Digest
  extendedJobs : ℕ → Option ExtendedJobData
  latestExtendedPrevHash : Bytes
  latestExtendedNBits : ℤ
  latestExtendedMinNtime : ℤ
  miningSubmissionHashes : List (List Char)
  isOpen : Bool

namespace ChannelState

/-- A channel as it is opened. -/
def opened (channelType : ChannelType) (extranoncePrefix : Bytes) (extranonceSize : ℕ)
    (sessionDifficulty : Option ℚ) (declaredMaxTarget : Bytes) : ChannelState where
  channelType := channelType
  extranoncePrefix := extranoncePrefix
  extranonceSize := extranonceSize
  sessionDifficulty := sessionDifficulty
  declaredMaxTarget := declaredMaxTarget
  jobIdToDifficulty _ := none
  jobIdToMerkleRoot _ := none
  extendedJobs _ := none
  latestExtendedPrevHash := List.replicate 32 0
  latestExtendedNBits := 0
  latestExtendedMinNtime := 0
  miningSubmissionHashes := []
  isOpen := true

variable (channel : ChannelState)

/-- The channel remembers a submission. A full set starts over. -/
def remember (submissionKey : List Char) : ChannelState :=
  let hashes := channel.miningSubmissionHashes ++ [submissionKey]
  { channel with miningSubmissionHashes := if 10000 < hashes.length then [] else hashes }

/-- The difficulty a share of a job is held to. -/
def jobDifficulty (jobId : ℕ) : Option ℚ :=
  (channel.jobIdToDifficulty jobId).or channel.sessionDifficulty

/-- A standard job is kept with the merkle root that was sent. -/
def setStandardJob (jobId : ℕ) (merkleRoot : Digest) : ChannelState :=
  { channel with
    jobIdToDifficulty := fun id =>
      if id = jobId then channel.sessionDifficulty else channel.jobIdToDifficulty id
    jobIdToMerkleRoot := fun id =>
      if id = jobId then some merkleRoot else channel.jobIdToMerkleRoot id }

/-- An extended job is kept. -/
def setExtendedJob (jobId : ℕ) (data : ExtendedJobData) : ChannelState :=
  { channel with
    jobIdToDifficulty := fun id =>
      if id = jobId then channel.sessionDifficulty else channel.jobIdToDifficulty id
    extendedJobs := fun id => if id = jobId then some data else channel.extendedJobs id }

/-- `RETIRED_EXTENDED_JOB_RETENTION_MS`. -/
def retiredExtendedJobRetentionMs : ℕ := 5 * 60 * 1000

/-- An extended job at the arrival of a template that clears jobs. -/
def retireJob (now : ℕ) (job : ExtendedJobData) : ExtendedJobData :=
  { job with retiredAt := some (job.retiredAt.getD now) }

/-- A job that was retired longer ago than the retention. -/
def isExpired (now : ℕ) (job : ExtendedJobData) : Bool :=
  job.retiredAt.any fun retiredAt => retiredAt + retiredExtendedJobRetentionMs < now

/-- What a template that clears jobs does to a channel, `cleanupRetiredExtendedJobs`
included. -/
def clearJobs (now : ℕ) : ChannelState :=
  match channel.channelType with
  | .extended =>
    let retired := fun id => (channel.extendedJobs id).map (retireJob now)
    { channel with
      extendedJobs := fun id => (retired id).filter fun job => !isExpired now job
      jobIdToDifficulty := fun id =>
        if (retired id).any (isExpired now) then none else channel.jobIdToDifficulty id
      miningSubmissionHashes := [] }
  | .standard =>
    { channel with
      jobIdToDifficulty := fun _ => none
      jobIdToMerkleRoot := fun _ => none
      miningSubmissionHashes := [] }

end ChannelState

/-! ### Shares -/

/-- What a submission is recognized by. A standard one has no extranonce. -/
structure ShareTuple where
  jobId : ℕ
  nonce : ℕ
  ntime : ℕ
  version : ℕ
  extranonce : Option Bytes
  deriving DecidableEq

/-- `submissionKey`. -/
def ShareTuple.submissionKey (share : ShareTuple) : List Char :=
  Js.join ':' ([share.jobId, share.nonce, share.ntime, share.version].map Js.toString10
    ++ share.extranonce.toList.map Js.toHex)

def Sv2SubmitSharesStandard.tuple (submission : Sv2SubmitSharesStandard) : ShareTuple where
  jobId := submission.jobId.toNat
  nonce := submission.nonce.toNat
  ntime := submission.ntime.toNat
  version := submission.version.toNat
  extranonce := none

def Sv2SubmitSharesExtended.tuple (submission : Sv2SubmitSharesExtended) : ShareTuple where
  jobId := submission.jobId.toNat
  nonce := submission.nonce.toNat
  ntime := submission.ntime.toNat
  version := submission.version.toNat
  extranonce := some submission.extranonce

/-- A share that was accepted, with what is recorded of it. `block` is there for a block
candidate that the pool submits itself: its coinbase and its bytes, or `none` when building it
throws. -/
structure AcceptedShare where
  channelId : ℕ
  tuple : ShareTuple
  header : Bytes
  jobTemplate : JobTemplate
  jobDifficulty : Option ℚ
  submissionDifficulty : Option ℚ
  block : Option (Option (Transaction × Bytes))
  workProtocol : WorkProtocol
  blockCandidateResult : Option String

/-- What the pool makes of a submission. -/
inductive ShareVerdict
  | rejected (errorCode : String)
  | threw
  | accepted (share : AcceptedShare) (newSharesSum : ℕ)

/-- `FIXED_STANDARD_EXTRANONCE2`. -/
def fixedStandardExtranonce2 : List Char := List.replicate 16 '0'

/-- `BigInt(Math.round(jobDifficulty))` as the eight bytes it is sent in. `BigInt` throws on what is
not finite, and the writer on what does not fit. -/
def newSharesSum : Option ℚ → Option ℕ
  | none => none
  | some jobDifficulty =>
    let sum := DifficultyUtils.round jobDifficulty
    if 0 ≤ sum ∧ sum < 2 ^ 64 then some sum.toNat else none

/-- The header of a share: `buildHeader` with the previous block and the bits of a job. -/
def shareHeader (prevHash : Bytes) (nBits : ℤ) (merkleRoot : Digest) (tuple : ShareTuple) :
    Option Bytes :=
  buildHeader prevHash merkleRoot tuple.version tuple.ntime nBits tuple.nonce

/-- A hash below the target of the network difficulty of a template. -/
def isBlockCandidate (host : Externals) (jobTemplate : JobTemplate) (header : Bytes) : Bool :=
  meetsTarget (host.hash256 header).bytes
    (difficultyToTarget jobTemplate.blockData.networkDifficulty)

/-- The verdict on a header: it must meet the target of the job. -/
def judgeHeader (host : Externals) (jobDifficulty : Option ℚ) (header : Option Bytes)
    (accept : Bytes → AcceptedShare) : ShareVerdict :=
  match header with
  | none => .threw
  | some header =>
    if meetsTarget (host.hash256 header).bytes (difficultyToTarget jobDifficulty) then
      match newSharesSum jobDifficulty with
      | none => .threw
      | some sum => .accepted (accept header) sum
    else .rejected "difficulty-too-low"

/-- `handleSubmitSharesStandard` from the look-up of the job to the judgement of the header. -/
def judgeStandard (host : Externals) (jobs : StratumV1JobsService) (channelId : ℕ)
    (channel : ChannelState) (tuple : ShareTuple) : ShareVerdict :=
  match jobs.getJobById (Js.toString16 tuple.jobId), channel.jobIdToMerkleRoot tuple.jobId with
  | some job, some sentMerkleRoot =>
    match jobs.getJobTemplateById job.jobTemplateId with
    | none => .rejected "invalid-job-id"
    | some jobTemplate =>
      let jobDifficulty := channel.jobDifficulty tuple.jobId
      judgeHeader host jobDifficulty
        (shareHeader jobTemplate.block.prevHash jobTemplate.block.bits sentMerkleRoot tuple)
        fun header =>
          { channelId
            tuple
            header
            jobTemplate
            jobDifficulty
            submissionDifficulty := (calculateDifficulty host header).1
            block :=
              if isBlockCandidate host jobTemplate header then
                some (job.copyAndUpdateBlock host jobTemplate
                  (some (Js.bitXor (some tuple.version) (some jobTemplate.block.version)))
                  (some tuple.nonce) (Js.toHex channel.extranoncePrefix)
                  fixedStandardExtranonce2 (some tuple.ntime))
              else none
            workProtocol := .pool
            blockCandidateResult := none }
  | _, _ => .rejected "invalid-job-id"

/-- The coinbase of an extended share. -/
def ExtendedJobData.coinbaseTxBytes (job : ExtendedJobData) (extranoncePrefix extranonce : Bytes) :
    Bytes :=
  job.coinbasePrefix ++ extranoncePrefix ++ extranonce ++ job.coinbaseSuffix

/-- `reconstructExtendedBlock`, with the coinbase of the block and the block's bytes. -/
def reconstructExtendedBlock (host : Externals) (job : ExtendedJobData) (tuple : ShareTuple)
    (merkleRoot : Digest) (coinbaseTxBytes : Bytes) : Option (Transaction × Bytes) := do
  let coinbase ← host.fromBuffer coinbaseTxBytes
  let header ← blockHeaderBytes tuple.version job.jobTemplate.block.prevHash merkleRoot
    (some tuple.ntime) (some job.jobTemplate.block.bits) (some tuple.nonce)
  return (coinbase, blockBytes host header (coinbase :: job.jobTemplate.block.transactions.tail))

/-- `handleSubmitSharesExtended` from the look-up of the job to the judgement of the header. -/
def judgeExtended (host : Externals) (channelId : ℕ) (channel : ChannelState)
    (tuple : ShareTuple) (extranonce : Bytes) : ShareVerdict :=
  match channel.extendedJobs tuple.jobId with
  | none => .rejected "invalid-job-id"
  | some job =>
    if job.retiredAt.isSome then .rejected "stale-share"
    else if extranonce.length ≠ channel.extranonceSize then .rejected "invalid-extranonce-size"
    else
      let coinbaseTxBytes := job.coinbaseTxBytes channel.extranoncePrefix extranonce
      let merkleRoot := merkleRootOfPath host (host.hash256 coinbaseTxBytes) job.merklePath
      let jobDifficulty := channel.jobDifficulty tuple.jobId
      judgeHeader host jobDifficulty (shareHeader job.prevHash job.nBits merkleRoot tuple)
        fun header =>
          let candidate := isBlockCandidate host job.jobTemplate header
          { channelId
            tuple
            header
            jobTemplate := job.jobTemplate
            jobDifficulty
            submissionDifficulty := (calculateDifficulty host header).1
            block :=
              if candidate ∧ job.workProtocol ≠ .sv2Jdp then
                some (reconstructExtendedBlock host job tuple merkleRoot coinbaseTxBytes)
              else none
            workProtocol := job.workProtocol
            blockCandidateResult :=
              if candidate ∧ job.workProtocol = .sv2Jdp then
                some "sv2-jdp-client-submit-expected"
              else none }

/-! ### Handlers under way -/

/-- An extended job between its `NewExtendedMiningJob` frame and its entry in the channel. -/
structure ExtendedPush where
  jobId : ℕ
  miningJob : MiningJob
  jobTemplate : JobTemplate
  coinbasePrefix : Bytes
  coinbaseSuffix : Bytes
  sendPrevHash : Bool

/-- What a handler does after it has sent a job: it was opening a channel, or it goes on to the
channel after `channelId` with the same template. -/
inductive AfterJob
  | opening (isFirstChannel : Bool)
  | loop (jobTemplate : JobTemplate) (sendPrevHash : Bool) (channelId : ℕ)

/-- Where a handler is suspended, with its variables. -/
inductive Wait
  /-- The next frame of a chunk. -/
  | nextFrame
  /-- The last frame of a handler, which may close the connection. -/
  | reply (thenClose : Bool)
  /-- `handleOpen…MiningChannel`: the client's row, the reply and the first template. -/
  | openEntity (channelId requestId : ℕ) (isFirstChannel : Bool)
  | openReply (channelId : ℕ) (isFirstChannel : Bool)
  | firstTemplate (channelId : ℕ) (isFirstChannel : Bool)
  /-- `sendNewMiningJob` and `sendNewExtendedMiningJob`: their two frames. -/
  | standardJobFrame (channelId jobId : ℕ) (jobTemplate : JobTemplate) (sendPrevHash : Bool)
      (after : AfterJob)
  | extendedJobFrame (channelId : ℕ) (push : ExtendedPush) (after : AfterJob)
  | prevHashFrame (after : AfterJob)
  /-- `checkDifficulty`: the frame of one channel, and the template. -/
  | targetFrame (targetDiff : ℚ) (channelId : ℕ)
  | refreshTemplate
  /-- `handleSetCustomMiningJob`: the template. -/
  | customTemplate (message : Sv2SetCustomMiningJob)
  /-- An accepted share: the reply, and the calls of `recordAcceptedShare`. -/
  | shareReply (share : AcceptedShare)
  | submitBlock (share : AcceptedShare) (coinbase : Transaction) (blockHex : Bytes)
  | saveBlock (share : AcceptedShare) (coinbase : Transaction)
      (blockSubmissionResult : Option String)
  | finalizeSnapshot (share : AcceptedShare) (blockSubmissionResult : Option String)
  | notifyBlock (share : AcceptedShare) (blockSubmissionResult : Option String)
  | recordShare

/-- What started a handler: a chunk, of which some frames are left, the template subscription or
the difficulty timer. An error closes the connection unless the timer met it. -/
inductive Origin
  | socket (rest : List Sv2Message)
  | subscription
  | timer

structure Task where
  wait : Wait
  origin : Origin

/-- What a task takes up: the next frame of its chunk, or its handler where that was suspended. -/
inductive Handled
  | frame (message : Sv2Message)
  | wait (wait : Wait)

/-- What a task takes up, and what is left of its chunk then. -/
def Task.handled : Task → Handled × Origin
  | ⟨.nextFrame, .socket (message :: rest)⟩ => (.frame message, .socket rest)
  | ⟨wait, origin⟩ => (.wait wait, origin)

/-- `StratumV2Client`. -/
structure StratumV2Client where
  sessionId : String
  payoutMode : PayoutMode
  destroyed : Bool
  stratumSubscription : Bool
  difficultyTimer : Bool
  channels : OrdMap ℕ ChannelState
  address : Option String
  workerName : String
  sessionDifficulty : Option ℚ
  workSelectionEnabled : Bool
  tasks : List Task

/-- The settings of the connections. -/
structure Sv2Config where
  network : Network
  /-- `getInitialDifficulty()`. -/
  startDifficulty : ℚ
  /-- `getConfiguredMinimumDifficulty()`, which is positive. -/
  minimumDifficulty : Option ℚ
  targetSharesPerMinute : ℚ

/-- What a connection sends and stores. A record comes with the share it is about, a
finalization with the coinbase of the submitted block; the source stores neither. -/
inductive Sv2Event
  | setupConnectionSuccess (flags : ℕ)
  | setupConnectionError (flags : UInt32) (errorCode : String)
  | openMiningChannelError (requestId : ℕ) (errorCode : String)
  | openStandardMiningChannelSuccess (requestId channelId : ℕ) (target extranoncePrefix : Bytes)
  | openExtendedMiningChannelSuccess (requestId channelId : ℕ) (target : Bytes)
      (extranonceSize : ℕ) (extranoncePrefix : Bytes)
  | newMiningJob (channelId jobId : ℕ) (minNtime : Option ℤ) (version : ℤ) (merkleRoot : Digest)
  | newExtendedMiningJob (channelId jobId : ℕ) (minNtime : Option ℤ) (version : ℤ)
      (merklePath : List Bytes) (coinbasePrefix coinbaseSuffix : Bytes)
  | setNewPrevHash (channelId jobId : ℕ) (prevHash : Bytes) (minNtime nBits : ℤ)
  | setTarget (channelId : ℕ) (maxTarget : Bytes)
  | submitSharesSuccess (channelId lastSequenceNumber newSharesSum : ℕ)
  | submitSharesError (channelId sequenceNumber : ℕ) (errorCode : String)
  | setCustomMiningJobSuccess (channelId requestId jobId : ℕ)
  | setCustomMiningJobError (channelId requestId : ℕ) (errorCode : String)
  | blockSaved (block : BlockRecord)
  | finalizeCalled (input : FinalizeInput) (coinbase : Transaction)
  | shareRecorded (record : AcceptedShareRecord) (share : AcceptedShare)

/-- What a handler works on: the services all connections share, and the connection. -/
structure Context where
  jobs : StratumV1JobsService
  stratumV2Service : StratumV2Service
  client : StratumV2Client

/-- How a turn ends. -/
inductive Next
  | waits (wait : Wait)
  | returns
  | throws

/-- What a handler does in one turn. -/
structure Turn where
  context : Context
  events : List Sv2Event := []
  next : Next

/-- What a turn takes from outside: whether the awaited call failed, the node's answer to a
block, the time, the random bytes of a prefix and the registry's answer to a token. -/
structure TurnEnv where
  failed : Bool
  result : Option String
  now : ℕ
  random : UInt8 × UInt8
  declaredJob : Option Sv2DeclaredMiningJob

namespace StratumV2Client

/-- A new connection. -/
def initial (config : Sv2Config) (sessionId : String) (payoutMode : PayoutMode) :
    StratumV2Client where
  sessionId := sessionId
  payoutMode := payoutMode
  destroyed := false
  stratumSubscription := false
  difficultyTimer := false
  channels := .empty
  address := none
  workerName := "default"
  sessionDifficulty := some config.startDifficulty
  workSelectionEnabled := false
  tasks := []

variable (client : StratumV2Client)

/-- `this.channels.get(channelId)`. -/
def openChannel? (channelId : ℕ) : Option ChannelState :=
  (client.channels.get? channelId).filter ChannelState.isOpen

/-- `this.channels.size === 0`. -/
def hasNoChannel : Bool := client.channels.entries.all fun entry => !entry.2.isOpen

def modifyChannel (channelId : ℕ) (f : ChannelState → ChannelState) : StratumV2Client :=
  { client with channels := client.channels.modify channelId f }

/-- `this.channels.delete(channelId)`. -/
def deleteChannel (channelId : ℕ) : StratumV2Client :=
  client.modifyChannel channelId fun channel => { channel with isOpen := false }

/-- The first channel of the map after one. Channel ids grow in the order of the map. -/
def channelAfter? (channelId : ℕ) : Option (ℕ × ChannelState) :=
  client.channels.entries.find? fun entry => decide (channelId < entry.1) && entry.2.isOpen

/-- The part of the subscription's handler before its loop over the channels. -/
def clearChannels (jobTemplate : JobTemplate) (now : ℕ) : StratumV2Client :=
  if jobTemplate.blockData.clearJobs then
    { client with
      channels := client.channels.mapValues fun _ channel =>
        if channel.isOpen then channel.clearJobs now else channel }
  else client

/-- The loop that sends a job of a template to every channel. -/
def sendLoop (jobTemplate : JobTemplate) (sendPrevHash : Bool) (origin : Origin) : Task where
  wait := .prevHashFrame (.loop jobTemplate sendPrevHash 0)
  origin := origin

/-- The subscription's handler of a template. Its loop starts in a turn of its own. -/
def onTemplate (jobTemplate : JobTemplate) (now : ℕ) : StratumV2Client :=
  let client := client.clearChannels jobTemplate now
  { client with
    tasks := client.tasks
      ++ [sendLoop jobTemplate jobTemplate.blockData.clearJobs .subscription] }

/-- `normalizeAddress`. -/
def normalizeAddress (address : List Char) : List Char :=
  if ["bc1", "BC1", "tb1", "TB1", "bcrt1", "BCRT1"].any fun part =>
      part.toList.isPrefixOf address then
    Js.toLowerCase address
  else address

/-- `clampDifficulty`. -/
def clampDifficulty (config : Sv2Config) (difficulty : Option ℚ) : Option ℚ :=
  match difficulty, config.minimumDifficulty with
  | some difficulty, some configuredMinimum => some (max difficulty configuredMinimum)
  | difficulty, _ => difficulty

/-- The difficulty for a hash rate the miner announces, if it makes one. -/
def announcedDifficulty (config : Sv2Config) (nominalHashRate : Option ℚ) : Option ℚ := do
  let hashRate ← nominalHashRate
  if 0 < hashRate then
    (hashRateToDifficulty hashRate config.targetSharesPerMinute).filter fun d => decide (0 < d)
  else none

/-- The difficulty of a channel as it is opened. -/
def openingDifficulty (config : Sv2Config) (nominalHashRate : Option ℚ) (maxTarget : Bytes) :
    Option ℚ :=
  let channelDifficulty := match announcedDifficulty config nominalHashRate with
    | some calculatedDifficulty => clampDifficulty config (some calculatedDifficulty)
    | none => client.sessionDifficulty
  clampDifficulty config (clampDifficultyToMaxTarget channelDifficulty maxTarget)

end StratumV2Client

namespace Context

variable (context : Context)

/-- A frame is written unless the socket is gone. -/
def send (event : Sv2Event) : List Sv2Event :=
  if context.client.destroyed then [] else [event]

/-- The extranonce prefixes of all extended channels are given back. -/
def releasePrefixes : StratumV2Service :=
  (context.client.channels.entries.filter fun entry =>
      entry.2.isOpen && entry.2.channelType = .extended).foldl
    (fun service entry => service.releaseExtendedExtranoncePrefix entry.1)
    context.stratumV2Service

/-- `destroy`, which does nothing the second time. -/
def closeSocket : Context :=
  if context.client.destroyed then context
  else
    { context with
      stratumV2Service := context.releasePrefixes
      client :=
        { context.client with
          destroyed := true
          stratumSubscription := false
          difficultyTimer := false
          channels := context.client.channels.mapValues fun _ channel =>
            { channel with isOpen := false } } }

/-- A reply is the last thing a handler does. -/
def replies (event : Sv2Event) (thenClose : Bool := false) : Turn :=
  { context, events := context.send event, next := .waits (.reply thenClose) }

/-! ### Sending jobs -/

/-- The id of the next job as a number. -/
def nextJobId : ℕ := Js.readHex context.jobs.getNextId.toList

/-- `minNtime` of a job frame: none when the job waits for a `SetNewPrevHash`. -/
def frameMinNtime (jobTemplate : JobTemplate) (sendPrevHash : Bool) : Option ℤ :=
  if sendPrevHash then none else some jobTemplate.block.timestamp

/-- `patchCoinbasePrefixVarint`: the length byte of the input script follows the size of the
extranonce. -/
def patchCoinbasePrefixVarint (coinbasePrefix : Bytes) (totalExtranonceSize : ℕ) : Bytes :=
  if totalExtranonceSize = totalExtranonceSizeBytes then coinbasePrefix
  else match coinbasePrefix[41]? with
    | none => coinbasePrefix
    | some length =>
      let nextLength : ℤ := length.toNat + (totalExtranonceSize - totalExtranonceSizeBytes)
      if nextLength < 0 ∨ 0xfc < nextLength then coinbasePrefix
      else coinbasePrefix.set 41 (UInt8.ofNat nextLength.toNat)

/-- `sendNewMiningJob` up to its first frame. -/
def sendNewMiningJob (host : Externals) (config : Sv2Config) (channelId : ℕ)
    (channel : ChannelState) (address : String) (jobTemplate : JobTemplate)
    (sendPrevHash : Bool) (after : AfterJob) (now : ℕ) : Turn :=
  match MiningJob.create host config.network context.jobs.getNextId
      (getPayoutInformation context.client.payoutMode jobTemplate address) jobTemplate none now with
  | none => { context, next := .throws }
  | some job =>
    let jobId := context.nextJobId
    let added := { context with jobs := context.jobs.addJob job }
    match job.blockCoinbase host (Js.toHex channel.extranoncePrefix) fixedStandardExtranonce2 with
    | none => { context := added, next := .throws }
    | some coinbase =>
      let merkleRoot := job.blockMerkleRoot host coinbase
      { context :=
          { added with
            client := context.client.modifyChannel channelId
              (ChannelState.setStandardJob · jobId merkleRoot) }
        events := context.send (.newMiningJob channelId jobId
          (frameMinNtime jobTemplate sendPrevHash) jobTemplate.block.version merkleRoot)
        next := .waits (.standardJobFrame channelId jobId jobTemplate sendPrevHash after) }

/-- `sendNewExtendedMiningJob` up to its first frame. -/
def sendNewExtendedMiningJob (host : Externals) (config : Sv2Config) (channelId : ℕ)
    (channel : ChannelState) (address : String) (jobTemplate : JobTemplate)
    (sendPrevHash : Bool) (after : AfterJob) (now : ℕ) : Turn :=
  match MiningJob.create host config.network context.jobs.getNextId
      (getPayoutInformation context.client.payoutMode jobTemplate address) jobTemplate none now with
  | none => { context, next := .throws }
  | some job =>
    let jobId := context.nextJobId
    let coinbasePrefix := patchCoinbasePrefixVarint (Js.bufferFromHex job.coinbasePart1)
      (channel.extranoncePrefix.length + channel.extranonceSize)
    let coinbaseSuffix := Js.bufferFromHex job.coinbasePart2
    { context := { context with jobs := context.jobs.addJob job }
      events := context.send (.newExtendedMiningJob channelId jobId
        (frameMinNtime jobTemplate sendPrevHash) jobTemplate.block.version
        jobTemplate.merkleBranch coinbasePrefix coinbaseSuffix)
      next := .waits (.extendedJobFrame channelId
        { jobId, miningJob := job, jobTemplate, coinbasePrefix, coinbaseSuffix, sendPrevHash }
        after) }

/-- A job of a template is sent to a channel. Without an address nothing is sent. -/
def sendJob (host : Externals) (config : Sv2Config) (channelId : ℕ) (jobTemplate : JobTemplate)
    (sendPrevHash : Bool) (after : AfterJob) (now : ℕ) : Turn :=
  match context.client.address, context.client.channels.get? channelId with
  | some address, some channel =>
    match channel.channelType with
    | .standard =>
      context.sendNewMiningJob host config channelId channel address jobTemplate sendPrevHash
        after now
    | .extended =>
      context.sendNewExtendedMiningJob host config channelId channel address jobTemplate
        sendPrevHash after now
  | _, _ => { context, next := .waits (.prevHashFrame after) }

/-- The entry of an extended job: with a `SetNewPrevHash` it is the template's, otherwise it
takes the channel's latest previous block. -/
def pushedJob (channel : ChannelState) (push : ExtendedPush) : ExtendedJobData where
  coinbasePrefix := push.coinbasePrefix
  coinbaseSuffix := push.coinbaseSuffix
  merklePath := push.jobTemplate.merkleBranch
  prevHash :=
    if push.sendPrevHash then push.jobTemplate.block.prevHash else channel.latestExtendedPrevHash
  nBits :=
    if push.sendPrevHash then push.jobTemplate.block.bits else channel.latestExtendedNBits
  minNtime :=
    if push.sendPrevHash then push.jobTemplate.block.timestamp
    else channel.latestExtendedMinNtime
  jobTemplate := push.jobTemplate
  miningJob := push.miningJob
  retiredAt := none
  workProtocol := .pool

/-- What the end of `sendNewExtendedMiningJob` does to the channel. -/
def finishPush (push : ExtendedPush) (channel : ChannelState) : ChannelState :=
  let data := pushedJob channel push
  { channel.setExtendedJob push.jobId data with
    latestExtendedPrevHash := data.prevHash
    latestExtendedNBits := data.nBits
    latestExtendedMinNtime := data.minNtime }

/-- `sendNewExtendedMiningJob` after its first frame. -/
def finishExtendedJob (channelId : ℕ) (push : ExtendedPush) (after : AfterJob) : Turn :=
  { context :=
      { context with client := context.client.modifyChannel channelId (finishPush push) }
    events :=
      if push.sendPrevHash then
        context.send (.setNewPrevHash channelId push.jobId push.jobTemplate.block.prevHash
          push.jobTemplate.block.timestamp push.jobTemplate.block.bits)
      else []
    next := .waits (.prevHashFrame after) }

/-- `subscribeToJobs`, which hands the latest template over at once, and
`startDifficultyTimer`. -/
def subscribeToJobs (now : ℕ) : Context :=
  if context.client.stratumSubscription then context
  else
    let client := { context.client with stratumSubscription := true }
    { context with
      client := match context.jobs.latestTemplate with
        | some jobTemplate => client.onTemplate jobTemplate now
        | none => client }

/-- What follows the frames of a job. -/
def afterJob (host : Externals) (config : Sv2Config) (after : AfterJob) (now : ℕ) : Turn :=
  match after with
  | .opening isFirstChannel =>
    if isFirstChannel && !context.client.workSelectionEnabled then
      let subscribed := context.subscribeToJobs now
      { context :=
          { subscribed with client := { subscribed.client with difficultyTimer := true } }
        next := .returns }
    else { context, next := .returns }
  | .loop jobTemplate sendPrevHash channelId =>
    match context.client.channelAfter? channelId with
    | none => { context, next := .returns }
    | some (nextId, _) =>
      context.sendJob host config nextId jobTemplate sendPrevHash
        (.loop jobTemplate sendPrevHash nextId) now

/-- `handleOpen…MiningChannel` after its reply. -/
def afterOpenReply (channelId : ℕ) (isFirstChannel : Bool) : Turn :=
  if context.client.workSelectionEnabled then { context, next := .returns }
  else { context, next := .waits (.firstTemplate channelId isFirstChannel) }

/-! ### Opening and closing channels -/

/-- `Sv2MiningSetupFlags.REQUIRES_WORK_SELECTION`. -/
def requiresWorkSelection : UInt32 := 2

/-- `Sv2MiningSetupFlags.REQUIRES_VERSION_ROLLING`. -/
def requiresVersionRolling : UInt32 := 4

/-- The three flags the pool knows. -/
def supportedFlags : UInt32 := 1 ||| requiresWorkSelection ||| requiresVersionRolling

/-- `handleSetupConnection`. -/
def handleSetupConnection (message : Sv2SetupConnection) : Turn :=
  if message.protocol ≠ 0 then
    context.replies (.setupConnectionError 0 "unsupported-protocol") true
  else if 2 < message.minVersion ∨ message.maxVersion < 2 then
    context.replies (.setupConnectionError 0 "protocol-version-mismatch") true
  else
    let unsupportedFlags := message.flags &&& ~~~supportedFlags
    if unsupportedFlags ≠ 0 then
      context.replies (.setupConnectionError unsupportedFlags "unsupported-feature-flags") true
    else
      let successFlags := if message.flags &&& requiresVersionRolling ≠ 0 then 0 else 1
      { context with
        client :=
          { context.client with
            workSelectionEnabled := message.flags &&& requiresWorkSelection ≠ 0 } }.replies
        (.setupConnectionSuccess successFlags)

/-- The checks that both kinds of channel make before they are opened: the error code and
whether the connection is closed after it. -/
def openError? (host : Externals) (address : String) (maxTarget : Bytes) :
    Option (String × Bool) :=
  if !isValidAddress host address then some ("unknown-user", true)
  else if context.client.address.any fun known => known ≠ address then
    some ("unknown-user", false)
  else if maxTarget.length ≠ 32 ∨ maxTarget.all (· = 0) then
    some ("max-target-out-of-range", false)
  else none

/-- The first channel of a connection fixes its identity, and every channel takes a number. -/
def beginOpen (identity : UserIdentity) : Context :=
  { context with
    stratumV2Service :=
      { context.stratumV2Service with
        channelIdCounter := context.stratumV2Service.channelIdCounter + 1 }
    client :=
      if context.client.hasNoChannel then
        { context.client with
          address := some identity.address
          workerName := identity.workerName }
      else context.client }

/-- A channel goes into the map, and its handler awaits the client's row. -/
def addChannel (channelId : ℕ) (channel : ChannelState) (requestId : ℕ)
    (isFirstChannel : Bool) : Turn :=
  { context :=
      { context with
        client :=
          { context.client with
            sessionDifficulty := channel.sessionDifficulty
            channels := context.client.channels.set channelId channel } }
    next := .waits (.openEntity channelId requestId isFirstChannel) }

/-- `handleOpenStandardMiningChannel`. -/
def handleOpenStandardMiningChannel (host : Externals) (config : Sv2Config)
    (message : Sv2OpenStandardMiningChannel) (random : UInt8 × UInt8) : Turn :=
  let identity := parseUserIdentity StratumV2Client.normalizeAddress message.userIdentity
  match context.openError? host identity.address message.maxTarget with
  | some (errorCode, thenClose) =>
    context.replies (.openMiningChannelError message.requestId.toNat errorCode) thenClose
  | none =>
    let isFirstChannel := context.client.hasNoChannel
    let channelId := context.stratumV2Service.channelIdCounter
    let opening := context.beginOpen identity
    opening.addChannel channelId
      (.opened .standard (opening.stratumV2Service.generateExtranoncePrefix random)
        (fixedStandardExtranonce2.length / 2)
        (opening.client.openingDifficulty config message.nominalHashRate message.maxTarget)
        message.maxTarget)
      message.requestId.toNat isFirstChannel

/-- `handleOpenExtendedMiningChannel`. -/
def handleOpenExtendedMiningChannel (host : Externals) (config : Sv2Config)
    (message : Sv2OpenExtendedMiningChannel) : Turn :=
  let identity := parseUserIdentity StratumV2Client.normalizeAddress message.userIdentity
  match context.openError? host identity.address message.maxTarget with
  | some (errorCode, thenClose) =>
    context.replies (.openMiningChannelError message.requestId.toNat errorCode) thenClose
  | none =>
    let isFirstChannel := context.client.hasNoChannel
    let channelId := context.stratumV2Service.channelIdCounter
    let opening := context.beginOpen identity
    match opening.stratumV2Service.extranonceManager.allocate channelId with
    | none => { context := opening, next := .throws }
    | some (extranonceManager, extranoncePrefix) =>
      let allocated :=
        { opening with
          stratumV2Service := { opening.stratumV2Service with extranonceManager } }
      let maxMinerExtranonceSize :=
        extranonceManager.totalExtranonceSize - extranoncePrefix.length
      let extranonceSize :=
        max (min extranonceManager.minerExtranonceSize maxMinerExtranonceSize)
          message.minExtranonceSize.toNat
      if maxMinerExtranonceSize < extranonceSize then
        { allocated with
          stratumV2Service :=
            allocated.stratumV2Service.releaseExtendedExtranoncePrefix channelId }.replies
          (.openMiningChannelError message.requestId.toNat "min-extranonce-size-too-large")
      else
        allocated.addChannel channelId
          (.opened .extended extranoncePrefix extranonceSize
            (allocated.client.openingDifficulty config message.nominalHashRate
              message.maxTarget)
            message.maxTarget)
          message.requestId.toNat isFirstChannel

/-- `handleOpen…MiningChannel` once the client's row is there: its reply. -/
def afterOpenEntity (channelId requestId : ℕ) (isFirstChannel : Bool) : Turn :=
  { context
    events := match context.client.channels.get? channelId with
      | none => []
      | some channel =>
        let target := difficultyToTarget channel.sessionDifficulty
        match channel.channelType with
        | .standard =>
          context.send (.openStandardMiningChannelSuccess requestId channelId target
            channel.extranoncePrefix)
        | .extended =>
          context.send (.openExtendedMiningChannelSuccess requestId channelId target
            channel.extranonceSize channel.extranoncePrefix)
    next := .waits (.openReply channelId isFirstChannel) }

/-- The frame that tells a channel its target. -/
def targetEvent (channelId : ℕ) (channel : ChannelState) : Sv2Event :=
  .setTarget channelId (difficultyToTarget channel.sessionDifficulty)

/-- `handleUpdateChannel`. -/
def handleUpdateChannel (config : Sv2Config) (message : Sv2UpdateChannel) : Turn :=
  match context.client.openChannel? message.channelId.toNat with
  | none => { context, next := .returns }
  | some channel =>
    let channelId := message.channelId.toNat
    let channel := { channel with declaredMaxTarget := message.maximumTarget }
    match StratumV2Client.announcedDifficulty config message.nominalHashRate with
    | none =>
      { context :=
          { context with
            client := context.client.modifyChannel channelId fun channel =>
              { channel with declaredMaxTarget := message.maximumTarget } }
        next := .returns }
    | some nextDifficulty =>
      let sessionDifficulty := StratumV2Client.clampDifficulty config
        (clampDifficultyToMaxTarget (some nextDifficulty) message.maximumTarget)
      { context with
        client := context.client.modifyChannel channelId fun channel =>
          { channel with declaredMaxTarget := message.maximumTarget, sessionDifficulty }
        }.replies (targetEvent channelId { channel with sessionDifficulty })

/-- The prefix of an open extended channel is given back. -/
def releasePrefix (channelId : ℕ) : StratumV2Service :=
  match context.client.openChannel? channelId with
  | some channel =>
    if channel.channelType = .extended then
      context.stratumV2Service.releaseExtendedExtranoncePrefix channelId
    else context.stratumV2Service
  | none => context.stratumV2Service

/-- A channel leaves the map. -/
def deletingChannel (channelId : ℕ) : Context :=
  { context with
    stratumV2Service := context.releasePrefix channelId
    client := context.client.deleteChannel channelId }

/-- `handleCloseChannel`. -/
def handleCloseChannel (channelId : ℕ) : Turn :=
  let deleted := context.deletingChannel channelId
  { context := if deleted.client.hasNoChannel then deleted.closeSocket else deleted
    next := .returns }

/-! ### Difficulty -/

/-- `checkDifficulty` with the difficulty that the statistics suggest, up to its first await. -/
def checkDifficulty (config : Sv2Config) (suggested : Option ℚ) : Turn :=
  match StratumV2Client.clampDifficulty config suggested with
  | none => { context, next := .returns }
  | some targetDiff =>
    if context.client.sessionDifficulty = some targetDiff then { context, next := .returns }
    else
      { context :=
          { context with client := { context.client with sessionDifficulty := some targetDiff } }
        next := .waits (.targetFrame targetDiff 0) }

/-- `checkDifficulty` goes on to the next channel. -/
def nextTarget (config : Sv2Config) (targetDiff : ℚ) (channelId : ℕ) : Turn :=
  match context.client.channelAfter? channelId with
  | none => { context, next := .waits .refreshTemplate }
  | some (nextId, channel) =>
    let sessionDifficulty := StratumV2Client.clampDifficulty config
      (clampDifficultyToMaxTarget (some targetDiff) channel.declaredMaxTarget)
    { context :=
        { context with
          client := context.client.modifyChannel nextId fun channel =>
            { channel with sessionDifficulty } }
      events := context.send (targetEvent nextId { channel with sessionDifficulty })
      next := .waits (.targetFrame targetDiff nextId) }

/-- The template of `checkDifficulty`: it clears the miner's jobs and has a later time. -/
def refreshedTemplate (jobTemplate : JobTemplate) (now : ℕ) : JobTemplate :=
  { jobTemplate with
    block :=
      { jobTemplate.block with
        timestamp := max jobTemplate.block.timestamp (now / 1000 : ℕ) }
    blockData := { jobTemplate.blockData with clearJobs := true } }

/-! ### Custom jobs -/

/-- `buildSv2CoinbaseSplit`: the parts of the coinbase before and after the extranonce. -/
def buildSv2CoinbaseSplit (message : Sv2SetCustomMiningJob) (totalExtranonceSize : ℕ) :
    Bytes × Bytes :=
  (Js.le32 message.coinbaseTxVersion.toNat ++ [1] ++ List.replicate 32 0 ++ Js.le32 0xffffffff
      ++ putVarInt (message.coinbasePrefix.length + totalExtranonceSize)
      ++ message.coinbasePrefix,
    Js.le32 message.coinbaseTxInputNSequence.toNat ++ message.coinbaseTxOutputs
      ++ Js.le32 message.coinbaseTxLocktime.toNat)

/-- `buildExpectedPayoutOutputs`, which throws on an address of another network. -/
def buildExpectedPayoutOutputs (host : Externals) (network : Network)
    (payoutInformation : List AddressObject) (coinbaseValue : ℤ) :
    Option (List CoinbasePayoutOutput) := do
  let outputs ← payoutInformation.mapM fun recipient => do
    let scriptPubKey ← host.toOutputScript recipient.address network
    return { value := recipient.amount coinbaseValue, scriptPubKey : CoinbasePayoutOutput }
  let rewardBalance := max 0 coinbaseValue - (outputs.map (·.value)).sum
  match outputs with
  | [] => return []
  | first :: rest => return { first with value := first.value + rewardBalance } :: rest

/-- `validateCoinbasePayoutOutputs`: the error code, `some none` for a coinbase that pays the
list, or `none` for a throw. -/
def validateCoinbasePayoutOutputs (host : Externals) (network : Network)
    (coinbaseTxBytes : Bytes) (payoutInformation : List AddressObject) (coinbaseValue : ℤ) :
    Option (Option String) :=
  match host.fromBuffer coinbaseTxBytes with
  | none => some (some "invalid-coinbase-transaction")
  | some transaction =>
    match buildExpectedPayoutOutputs host network payoutInformation coinbaseValue with
    | none => none
    | some expectedOutputs =>
      if payoutOutputsOf transaction = expectedOutputs then some none
      else some (some "invalid-coinbase-payout-outputs")

/-- `handleSetCustomMiningJob` up to the template. -/
def handleSetCustomMiningJob (message : Sv2SetCustomMiningJob)
    (declaredJob : Option Sv2DeclaredMiningJob) : Turn :=
  let fails (errorCode : String) : Turn :=
    context.replies (.setCustomMiningJobError message.channelId.toNat message.requestId.toNat
      errorCode)
  if !context.client.workSelectionEnabled then fails "work-selection-not-negotiated"
  else match context.client.openChannel? message.channelId.toNat with
    | none => fails "invalid-channel-id"
    | some channel =>
      if channel.channelType ≠ .extended then fails "invalid-channel-type"
      else match declaredJob with
        | none => fails "invalid-mining-job-token"
        | some declared =>
          if declared.validationMode ≠ .fullTemplate then fails "invalid-mining-job-token"
          else if declared.job.version ≠ message.version then fails "declared-job-mismatch"
          else { context, next := .waits (.customTemplate message) }

/-- The job that a custom job becomes on its channel. -/
def customJob (message : Sv2SetCustomMiningJob) (split : Bytes × Bytes)
    (latestTemplate : JobTemplate) (placeholderJob : MiningJob) : ExtendedJobData where
  coinbasePrefix := split.1
  coinbaseSuffix := split.2
  merklePath := message.merklePath
  prevHash := message.prevHash
  nBits := message.nBits.toNat
  minNtime := message.minNtime.toNat
  jobTemplate :=
    { latestTemplate with
      block :=
        { latestTemplate.block with
          prevHash := message.prevHash
          bits := message.nBits.toNat
          version := message.version.toNat
          timestamp := message.minNtime.toNat } }
  miningJob := placeholderJob
  retiredAt := none
  workProtocol := .sv2Jdp

/-- `handleSetCustomMiningJob` with the latest template. -/
def installCustomJob (host : Externals) (config : Sv2Config) (message : Sv2SetCustomMiningJob)
    (latestTemplate : JobTemplate) (now : ℕ) : Turn :=
  match context.client.channels.get? message.channelId.toNat, context.client.address with
  | some channel, some address =>
    let channelId := message.channelId.toNat
    let jobId := context.nextJobId
    let totalExtranonceSize := channel.extranoncePrefix.length + channel.extranonceSize
    let split := buildSv2CoinbaseSplit message totalExtranonceSize
    let payoutInformation :=
      getPayoutInformation context.client.payoutMode latestTemplate address
    match validateCoinbasePayoutOutputs host config.network
        (split.1 ++ List.replicate totalExtranonceSize 0 ++ split.2) payoutInformation
        latestTemplate.blockData.coinbasevalue with
    | none => { context, next := .throws }
    | some (some errorCode) =>
      context.replies (.setCustomMiningJobError channelId message.requestId.toNat errorCode)
    | some none =>
      match MiningJob.create host config.network context.jobs.getNextId payoutInformation
          latestTemplate none now with
      | none => { context, next := .throws }
      | some placeholderJob =>
        { context with
          jobs := context.jobs.addJob placeholderJob
          client := context.client.modifyChannel channelId
            (ChannelState.setExtendedJob · jobId
              (customJob message split latestTemplate placeholderJob)) }.replies
          (.setCustomMiningJobSuccess channelId message.requestId.toNat jobId)
  | _, _ => { context, next := .returns }

/-! ### Submissions -/

/-- What follows the judgement of a submission. -/
def answerShare (channelId sequenceNumber : ℕ) (verdict : ShareVerdict) : Turn :=
  match verdict with
  | .rejected errorCode =>
    context.replies (.submitSharesError channelId sequenceNumber errorCode)
  | .threw => { context, next := .throws }
  | .accepted share newSharesSum =>
    { context
      events := context.send (.submitSharesSuccess channelId sequenceNumber newSharesSum)
      next := .waits (.shareReply share) }

/-- Both kinds of submission: one that comes again is refused, any other is remembered before it
is judged. -/
def submitShare (channelId sequenceNumber : ℕ) (channel : ChannelState) (tuple : ShareTuple)
    (verdict : ShareVerdict) : Turn :=
  if tuple.submissionKey ∈ channel.miningSubmissionHashes then
    context.replies (.submitSharesError channelId sequenceNumber "stale-share")
  else
    { context with
      client := context.client.modifyChannel channelId
        (ChannelState.remember · tuple.submissionKey) }.answerShare
      channelId sequenceNumber verdict

/-- `handleSubmitSharesStandard`. -/
def handleSubmitSharesStandard (host : Externals) (submission : Sv2SubmitSharesStandard) :
    Turn :=
  let channelId := submission.channelId.toNat
  let sequenceNumber := submission.sequenceNumber.toNat
  match context.client.openChannel? channelId with
  | none => context.replies (.submitSharesError channelId sequenceNumber "invalid-channel-id")
  | some channel =>
    context.submitShare channelId sequenceNumber channel submission.tuple
      (judgeStandard host context.jobs channelId channel submission.tuple)

/-- `handleSubmitSharesExtended`. -/
def handleSubmitSharesExtended (host : Externals) (submission : Sv2SubmitSharesExtended) :
    Turn :=
  let channelId := submission.channelId.toNat
  let sequenceNumber := submission.sequenceNumber.toNat
  match (context.client.openChannel? channelId).filter fun channel =>
      channel.channelType = .extended with
  | none => context.replies (.submitSharesError channelId sequenceNumber "invalid-channel-id")
  | some channel =>
    context.submitShare channelId sequenceNumber channel submission.tuple
      (judgeExtended host channelId channel submission.tuple submission.extranonce)

/-- The record of an accepted share. -/
def shareRecord (share : AcceptedShare) (blockSubmissionResult : Option String) :
    AcceptedShareRecord where
  protocol := if share.workProtocol = .sv2Jdp then .sv2Jdp else .sv2
  payoutMode := context.client.payoutMode
  workSource := if share.workProtocol = .sv2Jdp then .minerTemplate else .poolTemplate
  workProtocol := share.workProtocol
  address := context.client.address.getD ""
  clientName := context.client.workerName
  sessionId := context.client.sessionId
  jobId := Js.toString16 share.tuple.jobId
  jobTemplateId := share.jobTemplate.blockData.id
  blockHeight := share.jobTemplate.blockData.height
  creditedDifficulty := share.jobDifficulty
  submissionDifficulty := share.submissionDifficulty
  networkDifficulty := share.jobTemplate.blockData.networkDifficulty
  nonce := String.ofList (Js.toString10 share.tuple.nonce)
  ntime := String.ofList (Js.toString10 share.tuple.ntime)
  version := String.ofList (Js.toString10 share.tuple.version)
  extraNonce2 := String.ofList ((share.tuple.extranonce.map Js.toHex).getD
    fixedStandardExtranonce2)
  isBlockCandidate := share.block.isSome || share.blockCandidateResult.isSome
  blockSubmissionResult := blockSubmissionResult

/-- The share is handed to the accounting. -/
def recordShare (share : AcceptedShare) (blockSubmissionResult : Option String) : Turn :=
  { context
    events := [.shareRecorded (context.shareRecord share blockSubmissionResult) share]
    next := .waits .recordShare }

/-- After the reply: a block is built and submitted, any other share recorded. -/
def afterShareReply (share : AcceptedShare) : Turn :=
  match share.block with
  | none => context.recordShare share share.blockCandidateResult
  | some none => { context, next := .throws }
  | some (some (coinbase, blockHex)) =>
    { context, next := .waits (.submitBlock share coinbase blockHex) }

/-- After the node's answer: the block is saved. -/
def afterSubmitBlock (share : AcceptedShare) (coinbase : Transaction) (blockHex : Bytes)
    (blockSubmissionResult : Option String) : Turn :=
  { context
    events := [.blockSaved
      { height := share.jobTemplate.blockData.height
        minerAddress := context.client.address.getD ""
        worker := context.client.workerName
        sessionId := context.client.sessionId
        blockData := blockHex
        blockSubmissionResult
        payoutSnapshotId :=
          if context.client.payoutMode = .pplns then
            share.jobTemplate.blockData.payoutSnapshotId
          else none
        payoutMode := context.client.payoutMode }]
    next := .waits (.saveBlock share coinbase blockSubmissionResult) }

/-- After the block is saved: in pplns mode the snapshot of the template is finalized. -/
def afterSaveBlock (share : AcceptedShare) (coinbase : Transaction)
    (blockSubmissionResult : Option String) : Turn :=
  { context
    events :=
      if context.client.payoutMode = .pplns then
        [.finalizeCalled
          { payoutSnapshotId := share.jobTemplate.blockData.payoutSnapshotId
            blockHeight := share.jobTemplate.blockData.height
            blockSubmissionResult
            payoutMode := context.client.payoutMode } coinbase]
      else []
    next := .waits (.finalizeSnapshot share blockSubmissionResult) }

/-! ### Turns -/

/-- `handleFrame`. -/
def handleFrame (host : Externals) (config : Sv2Config) (env : TurnEnv) : Sv2Message → Turn
  | .setupConnection message => context.handleSetupConnection message
  | .openStandardMiningChannel message =>
    context.handleOpenStandardMiningChannel host config message env.random
  | .openExtendedMiningChannel message =>
    context.handleOpenExtendedMiningChannel host config message
  | .submitSharesStandard submission => context.handleSubmitSharesStandard host submission
  | .submitSharesExtended submission => context.handleSubmitSharesExtended host submission
  | .setCustomMiningJob message => context.handleSetCustomMiningJob message env.declaredJob
  | .updateChannel message => context.handleUpdateChannel config message
  | .closeChannel channelId => context.handleCloseChannel channelId.toNat
  | .malformed => { context, next := .throws }
  | .unsupported => { context, next := .returns }

/-- Whether a handler can go on: a template that is awaited must have come. -/
def isReady : Wait → Bool
  | .firstTemplate .. | .refreshTemplate | .customTemplate _ => context.jobs.latestTemplate.isSome
  | _ => true

/-- A handler goes on with the latest template. -/
def withTemplate (wait : Wait) (handler : JobTemplate → Turn) : Turn :=
  match context.jobs.latestTemplate with
  | some jobTemplate => handler jobTemplate
  | none => { context, next := .waits wait }

/-- A handler goes on after the call it awaited, which has not failed. -/
def resume (host : Externals) (config : Sv2Config) (env : TurnEnv) (wait : Wait) : Turn :=
  match wait with
  | .nextFrame | .recordShare => { context, next := .returns }
  | .reply thenClose =>
    { context := if thenClose then context.closeSocket else context, next := .returns }
  | .openEntity channelId requestId isFirstChannel =>
    context.afterOpenEntity channelId requestId isFirstChannel
  | .openReply channelId isFirstChannel => context.afterOpenReply channelId isFirstChannel
  | .firstTemplate channelId isFirstChannel =>
    context.withTemplate wait fun jobTemplate =>
      context.sendJob host config channelId jobTemplate true (.opening isFirstChannel) env.now
  | .standardJobFrame channelId jobId jobTemplate sendPrevHash after =>
    { context
      events :=
        if sendPrevHash then
          context.send (.setNewPrevHash channelId jobId jobTemplate.block.prevHash
            jobTemplate.block.timestamp jobTemplate.block.bits)
        else []
      next := .waits (.prevHashFrame after) }
  | .extendedJobFrame channelId push after => context.finishExtendedJob channelId push after
  | .prevHashFrame after => context.afterJob host config after env.now
  | .targetFrame targetDiff channelId => context.nextTarget config targetDiff channelId
  | .refreshTemplate =>
    context.withTemplate wait fun jobTemplate =>
      { context
        next := .waits (.prevHashFrame (.loop (refreshedTemplate jobTemplate env.now) true 0)) }
  | .customTemplate message =>
    context.withTemplate wait fun jobTemplate =>
      context.installCustomJob host config message jobTemplate env.now
  | .shareReply share => context.afterShareReply share
  | .submitBlock share coinbase blockHex =>
    context.afterSubmitBlock share coinbase blockHex env.result
  | .saveBlock share coinbase blockSubmissionResult =>
    context.afterSaveBlock share coinbase blockSubmissionResult
  | .finalizeSnapshot share blockSubmissionResult =>
    { context, next := .waits (.notifyBlock share blockSubmissionResult) }
  | .notifyBlock share blockSubmissionResult => context.recordShare share blockSubmissionResult

/-- The tasks that a turn leaves of its own one: the handler waits on, or its chunk goes on. -/
def tasksAfter (origin : Origin) : Next → List Task
  | .waits wait => [{ wait, origin }]
  | .returns =>
    match origin with
    | .socket (message :: rest) => [{ wait := .nextFrame, origin := .socket (message :: rest) }]
    | _ => []
  | .throws => []

/-- An error in the handler of a frame or of a template closes the connection. -/
def closesOn (origin : Origin) : Next → Bool
  | .throws =>
    match origin with
    | .timer => false
    | _ => true
  | _ => false

/-- The end of a turn. -/
def endTurn (origin : Origin) (turn : Turn) : Context × List Sv2Event :=
  let context := if closesOn origin turn.next then turn.context.closeSocket else turn.context
  ({ context with
      client :=
        { context.client with
          tasks := context.client.tasks ++ tasksAfter origin turn.next } },
    turn.events)

/-- The turn that takes up a frame or goes on after a call. A call that failed throws in it. -/
def turn (host : Externals) (config : Sv2Config) (env : TurnEnv) : Handled → Turn
  | .frame message => context.handleFrame host config env message
  | .wait wait =>
    if env.failed then { context, next := .throws } else context.resume host config env wait

/-- The turn of a task. -/
def runTask (host : Externals) (config : Sv2Config) (env : TurnEnv) (task : Task) :
    Context × List Sv2Event :=
  endTurn task.handled.2 (context.turn host config env task.handled.1)

end Context

end Sv2

end PublicPool
