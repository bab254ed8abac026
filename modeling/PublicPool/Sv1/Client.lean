import PublicPool.Mining.JobsService
import PublicPool.Payout.Snapshot
import PublicPool.Utils.Difficulty

/-!
# `PublicPool.Sv1.Client`: a Stratum V1 connection

The model of `models/StratumV1Client.ts`. A connection subscribes, authorizes as an address and
a worker, and from then on gets a job for every template. `mining.set_payout` changes the
identity its jobs pay. A submission names a job, by its id only, and is judged by the header
that the job, the template of the job and the submitted texts make up.

A job is built in two parts, for the source awaits the client's row between the arrival of a
template and the construction of the job: `pendingJobs` are the templates that wait. The other
handlers are one step each; `SubmitFault` says which awaited call of a submission fails.

Time, the outcome of every awaited call and the difficulty that the share statistics suggest
come from outside.
-/

set_option autoImplicit false

namespace PublicPool

namespace Js

/-- `n.toString(16)` of an integer. -/
def intToString16 (n : ℤ) : String :=
  if n < 0 then "-" ++ toString16 n.natAbs else toString16 n.natAbs

end Js

namespace Sv1

open DifficultyUtils

/-! ### Messages -/

/-- A parameter of a request. -/
inductive JsonValue
  | null
  | text (s : String)
  | other
  deriving DecidableEq

/-- `EXTRANONCE2_SIZE_BYTES`. -/
def extranonce2SizeBytes : ℕ := 8

/-- `MiningSubmitMessage`, as the validators admit it. -/
structure MiningSubmitMessage where
  jobId : String
  extraNonce2 : String
  ntime : String
  nonce : String
  versionMask : String
  deriving DecidableEq

/-- The message that the parameters make, when they pass the validators. -/
def MiningSubmitMessage.ofParams : List JsonValue → Option MiningSubmitMessage
  | .text _ :: .text jobId :: .text extraNonce2 :: .text ntime :: .text nonce :: rest =>
    if extraNonce2.length ≠ extranonce2SizeBytes * 2 then none
    else match rest with
      | [] | [.null] => some { jobId, extraNonce2, ntime, nonce, versionMask := "0" }
      | [.text versionMask] => some { jobId, extraNonce2, ntime, nonce, versionMask }
      | _ => none
  | _ => none

/-- The text by which a submission is recognized when it comes again. -/
def MiningSubmitMessage.submissionHash (submission : MiningSubmitMessage) : List Char :=
  Js.join ':' [submission.jobId.toList, submission.extraNonce2.toList, submission.ntime.toList,
    submission.nonce.toList, submission.versionMask.toList]

/-- `AuthorizationMessage`: the identity in the user name, when it passes the validators. -/
def parseAuthorization (host : Externals) (network : Network) (user : String) :
    Option UserIdentity :=
  let parts := Js.split '.' user.toList
  let address := String.ofList (parts.headD [])
  let worker := match parts.tail with
    | [] => "worker"
    | part :: _ => String.ofList part
  if host.validateAddress address network && worker.length ≤ 64 then
    some { address, workerName := worker }
  else none

/-- `SetPayoutMessage`: the new address and worker, when they pass the validators. An empty
worker is none. -/
def parseSetPayout (host : Externals) (network : Network) (address : String)
    (worker : Option String) : Option (String × Option String) :=
  let worker := worker.filter fun name => name ≠ ""
  if host.validateAddress address network && (worker.all fun name => name.length ≤ 64) then
    some (address, worker)
  else none

/-! ### State -/

/-- `StratumV1Client`. -/
structure StratumV1Client where
  payoutMode : PayoutMode
  accountingProtocol : ShareProtocol
  extraNonceAndSessionId : Option String
  clientAuthorization : Option UserIdentity
  currentPayoutAddress : Option String
  currentPayoutWorker : Option String
  clientSuggestedDifficulty : Option ℚ
  usedSuggestedDifficulty : Bool
  /-- `none` stands for `null`. -/
  sessionDifficulty : Option ℚ
  sessionDifficultyTarget : Bytes
  stratumInitialized : Bool
  stratumSubscription : Bool
  /-- The templates whose jobs wait for the client's row. -/
  pendingJobs : List JobTemplate
  /-- The refreshed jobs that wait for a first template. -/
  awaitingTemplate : ℕ
  lastSentMiningJobTimestamp : Option ℤ
  miningSubmissionHashes : List (List Char)
  /-- The connection takes no more messages. -/
  connectionClosed : Bool

/-- A new connection. -/
def StratumV1Client.initial (payoutMode : PayoutMode) (accountingProtocol : ShareProtocol) :
    StratumV1Client where
  payoutMode := payoutMode
  accountingProtocol := accountingProtocol
  extraNonceAndSessionId := none
  clientAuthorization := none
  currentPayoutAddress := none
  currentPayoutWorker := none
  clientSuggestedDifficulty := none
  usedSuggestedDifficulty := false
  sessionDifficulty := some 100000
  sessionDifficultyTarget := difficultyToTarget (some 100000)
  stratumInitialized := false
  stratumSubscription := false
  pendingJobs := []
  awaitingTemplate := 0
  lastSentMiningJobTimestamp := none
  miningSubmissionHashes := []
  connectionClosed := false

inductive StratumErrorCode
  | otherUnknown
  | jobNotFound
  | duplicateShare
  | lowDifficultyShare
  deriving DecidableEq, Repr

/-- The settings of the connections. -/
structure Sv1Config where
  network : Network
  /-- `getConfiguredMinimumDifficulty()`, which is positive. -/
  minimumDifficulty : Option ℚ

/-- What a connection sends and stores. A job comes with the identity in force on the connection
that built it, and a record with the submission, the job and the coinbase it is about; the source
stores none of these. -/
inductive Sv1Event
  | response
  | errorResponse (code : StratumErrorCode) (message : String)
  | setDifficulty (difficulty : Option ℚ)
  | jobBuilt (job : MiningJob) (inForce : UserIdentity)
  | blockSaved (block : BlockRecord) (job : MiningJob)
  | finalizeCalled (input : FinalizeInput) (coinbase : Transaction)
  | shareRecorded (share : AcceptedShareRecord) (submission : MiningSubmitMessage)
      (job : MiningJob) (header : Bytes)
  deriving DecidableEq

namespace StratumV1Client

/-! ### Identity and jobs -/

/-- The address and worker that the connection's jobs are built for. -/
def inForce (client : StratumV1Client) (authorization : UserIdentity) : UserIdentity where
  address := client.currentPayoutAddress.getD authorization.address
  workerName := client.currentPayoutWorker.getD authorization.workerName

/-- A copy of a template for work of the connection's own: it clears the miner's jobs and has
a later time. -/
def refreshJobTemplate (client : StratumV1Client) (jobTemplate : JobTemplate) (now : ℕ) :
    JobTemplate :=
  { jobTemplate with
    block :=
      { jobTemplate.block with
        timestamp := max (max jobTemplate.block.timestamp (now / 1000))
          (client.lastSentMiningJobTimestamp.getD 0 + 1) }
    blockData := { jobTemplate.blockData with clearJobs := true } }

/-- A refreshed job is asked for: it waits for the client's row, or for a first template. -/
def pushRefreshedJob (client : StratumV1Client) (latestTemplate : Option JobTemplate)
    (now : ℕ) : StratumV1Client :=
  match latestTemplate with
  | some jobTemplate =>
    { client with
      pendingJobs := client.pendingJobs ++ [client.refreshJobTemplate jobTemplate now] }
  | none => { client with awaitingTemplate := client.awaitingTemplate + 1 }

/-- The subscription's handler of a template. -/
def onTemplate (client : StratumV1Client) (jobTemplate : JobTemplate) : StratumV1Client :=
  { client with
    miningSubmissionHashes :=
      if jobTemplate.blockData.clearJobs then [] else client.miningSubmissionHashes
    pendingJobs := client.pendingJobs ++ [jobTemplate] }

/-- A new template reaches the connection: its subscription, if it has one, and the refreshed
jobs that waited for it. -/
def receiveTemplate (client : StratumV1Client) (jobTemplate : JobTemplate) (now : ℕ) :
    StratumV1Client :=
  let refreshed :=
    List.replicate client.awaitingTemplate (client.refreshJobTemplate jobTemplate now)
  let client := if client.stratumSubscription then client.onTemplate jobTemplate else client
  { client with pendingJobs := client.pendingJobs ++ refreshed, awaitingTemplate := 0 }

/-- The end of the socket: no more messages are read. -/
def endSocket (client : StratumV1Client) : StratumV1Client :=
  { client with connectionClosed := true }

/-- `destroy`. -/
def destroy (client : StratumV1Client) : StratumV1Client :=
  { client with
    connectionClosed := true
    stratumSubscription := false
    miningSubmissionHashes := [] }

/-- `sendNewMiningJob` for the `k`-th pending template, once the client's row is there or
could not be inserted. A job that cannot be sent stays in the jobs service. -/
def sendNewMiningJob (host : Externals) (config : Sv1Config) (service : StratumV1JobsService)
    (client : StratumV1Client) (k : ℕ) (inserted sent : Bool) (now : ℕ) :
    StratumV1JobsService × StratumV1Client × List Sv1Event :=
  match client.pendingJobs[k]?, client.clientAuthorization with
  | some jobTemplate, some authorization =>
    let client := { client with pendingJobs := client.pendingJobs.eraseIdx k }
    if !inserted then (service, client.endSocket, [])
    else
      let inForce := client.inForce authorization
      let payoutInformation :=
        getPayoutInformation client.payoutMode jobTemplate inForce.address
      match MiningJob.create host config.network service.getNextId payoutInformation jobTemplate
          (some inForce.workerName) now with
      | none => (service, client.endSocket, [])
      | some job =>
        let client :=
          if sent && !client.connectionClosed then
            { client with lastSentMiningJobTimestamp := some jobTemplate.block.timestamp }
          else client.destroy
        (service.addJob job, client, [.jobBuilt job inForce])
  | _, _ => (service, client, [])

/-! ### Session set-up and difficulty -/

/-- The end of `handleMessage`: `initStratum` starts once the connection is subscribed and
authorized. It announces the difficulty unless the client suggested one. -/
def maybeInitStratum (client : StratumV1Client) (events : List Sv1Event) :
    StratumV1Client × List Sv1Event :=
  if client.extraNonceAndSessionId.isSome && client.clientAuthorization.isSome
      && !client.stratumInitialized then
    ({ client with stratumInitialized := true },
      match client.clientSuggestedDifficulty with
      | none => events ++ [.setDifficulty client.sessionDifficulty]
      | some _ => events)
  else (client, events)

/-- `mining.subscribe`. The extranonce of a connection is drawn once. -/
def handleSubscribe (client : StratumV1Client) (randomHex : String) :
    StratumV1Client × List Sv1Event :=
  { client with
    extraNonceAndSessionId := some (client.extraNonceAndSessionId.getD randomHex)
    }.maybeInitStratum [.response]

/-- `mining.authorize`. -/
def handleAuthorize (host : Externals) (config : Sv1Config) (client : StratumV1Client)
    (user : String) (startingDiff : Option ℚ) : StratumV1Client × List Sv1Event :=
  match parseAuthorization host config.network user with
  | none =>
    client.maybeInitStratum [.errorResponse .otherUnknown "Authorization validation error"]
  | some authorization =>
    let client :=
      { client with
        clientAuthorization := some authorization
        currentPayoutAddress := some authorization.address
        currentPayoutWorker := some authorization.workerName }
    let client := match client.clientSuggestedDifficulty, startingDiff with
      | none, some startingDiff =>
        if client.sessionDifficulty.getD 0 < startingDiff then
          { client with
            sessionDifficulty := some startingDiff
            sessionDifficultyTarget := difficultyToTarget (some startingDiff) }
        else client
      | _, _ => client
    client.maybeInitStratum [.response]

/-- `clampDifficulty`. -/
def clampDifficulty (config : Sv1Config) (difficulty : Option ℚ) : Option ℚ :=
  match difficulty, config.minimumDifficulty with
  | some difficulty, some configuredMinimum => some (max difficulty configuredMinimum)
  | difficulty, _ => difficulty

/-- `mining.suggest_difficulty`. -/
def handleSuggestDifficulty (config : Sv1Config) (client : StratumV1Client)
    (suggestedDifficulty : ℚ) : StratumV1Client × List Sv1Event :=
  if client.usedSuggestedDifficulty then (client, [])
  else
    let sessionDifficulty := clampDifficulty config (some suggestedDifficulty)
    { client with
      clientSuggestedDifficulty := some suggestedDifficulty
      sessionDifficulty
      sessionDifficultyTarget := difficultyToTarget sessionDifficulty
      usedSuggestedDifficulty := true }.maybeInitStratum [.setDifficulty sessionDifficulty]

/-- `mining.set_payout`. -/
def handleSetPayout (host : Externals) (config : Sv1Config)
    (latestTemplate : Option JobTemplate) (client : StratumV1Client) (address : String)
    (worker : Option String) (now : ℕ) : StratumV1Client × List Sv1Event :=
  match parseSetPayout host config.network address worker with
  | none =>
    client.maybeInitStratum [.errorResponse .otherUnknown "Set payout validation error"]
  | some (address, worker) =>
    let client :=
      { client with
        currentPayoutAddress := some address
        currentPayoutWorker :=
          worker.or (client.clientAuthorization.map UserIdentity.workerName) }
    let client :=
      if client.stratumInitialized then client.pushRefreshedJob latestTemplate now else client
    client.maybeInitStratum [.response]

/-- A difficulty the client suggested is a floor for the session. -/
def suggestedFloor (client : StratumV1Client) (targetDiff : ℚ) : ℚ :=
  match client.clientSuggestedDifficulty with
  | some floor => max targetDiff floor
  | none => targetDiff

/-- `checkDifficulty`, with the difficulty that the statistics suggest. -/
def checkDifficulty (config : Sv1Config) (latestTemplate : Option JobTemplate)
    (client : StratumV1Client) (suggested : Option ℚ) (now : ℕ) :
    StratumV1Client × List Sv1Event :=
  match clampDifficulty config suggested with
  | none => (client, [])
  | some targetDiff =>
    let targetDiff := client.suggestedFloor targetDiff
    if some targetDiff = client.sessionDifficulty then (client, [])
    else
      ({ client with
          sessionDifficulty := some targetDiff
          sessionDifficultyTarget := difficultyToTarget (some targetDiff)
          }.pushRefreshedJob latestTemplate now, [.setDifficulty (some targetDiff)])

/-- The minute timer of a connection, which starts with its subscription. -/
def difficultyTimer (config : Sv1Config) (latestTemplate : Option JobTemplate)
    (client : StratumV1Client) (suggested : Option ℚ) (now : ℕ) :
    StratumV1Client × List Sv1Event :=
  if client.stratumSubscription then client.checkDifficulty config latestTemplate suggested now
  else (client, [])

/-- Whether the end of `initStratum` is still to come. -/
def subscribesNow (client : StratumV1Client) : Bool :=
  client.stratumInitialized && !client.stratumSubscription && !client.connectionClosed

/-- The end of `initStratum`: the connection subscribes to the templates and gets the latest one
at once. -/
def subscribeTemplates (latestTemplate : Option JobTemplate) (client : StratumV1Client) :
    StratumV1Client :=
  if client.subscribesNow then
    let client := { client with stratumSubscription := true }
    match latestTemplate with
    | some jobTemplate => client.onTemplate jobTemplate
    | none => client
  else client

/-! ### Submissions -/

/-- What the pool makes of a submission. -/
inductive SubmissionVerdict
  | jobNotFound (message : String)
  | duplicate
  | threw
  | lowDifficulty
  | accepted (job : MiningJob) (jobTemplate : JobTemplate) (header : Bytes)

/-- The header that a submission makes up with a job and its template. -/
def headerOf (host : Externals) (client : StratumV1Client) (job : MiningJob)
    (jobTemplate : JobTemplate) (submission : MiningSubmitMessage) : Option Bytes :=
  job.buildHeaderBuffer host jobTemplate (Js.parseInt16 submission.versionMask)
    (Js.parseInt16 submission.nonce) (client.extraNonceAndSessionId.getD "undefined").toList
    submission.extraNonce2.toList (Js.parseInt16 submission.ntime)

/-- The judgement of a submission: the part of `handleMiningSubmission` before its first
`await`. -/
def judgeSubmission (host : Externals) (service : StratumV1JobsService)
    (client : StratumV1Client) (submission : MiningSubmitMessage) : SubmissionVerdict :=
  match service.getJobById submission.jobId with
  | none => .jobNotFound "Job not found"
  | some job =>
    match service.getJobTemplateById job.jobTemplateId with
    | none => .jobNotFound "Job Template not found"
    | some jobTemplate =>
      if submission.submissionHash ∈ client.miningSubmissionHashes then .duplicate
      else match client.headerOf host job jobTemplate submission with
        | none => .threw
        | some header =>
          if meetsTarget (host.hash256 header).bytes client.sessionDifficultyTarget then
            .accepted job jobTemplate header
          else .lowDifficulty

/-- The connection remembers a submission unless it names no job or comes again. -/
def remember (client : StratumV1Client) (submission : MiningSubmitMessage) :
    SubmissionVerdict → StratumV1Client
  | .jobNotFound _ | .duplicate => client
  | _ =>
    { client with
      miningSubmissionHashes := client.miningSubmissionHashes ++ [submission.submissionHash] }

/-- The awaited call of `handleMiningSubmission` that fails, if one does. A failing accounting
call is caught. -/
inductive SubmitFault
  | writeReply
  | submitBlock
  | saveBlock
  | finalize
  | notify
  | recordShare
  deriving DecidableEq, Repr

/-- The identity a share is recorded under. -/
def recordedIdentity (authorization : UserIdentity) (job : MiningJob) : UserIdentity where
  address := job.payoutAddress.getD authorization.address
  workerName := job.payoutWorker.getD authorization.workerName

/-- `isBlockCandidate`. -/
def isBlockCandidate (host : Externals) (jobTemplate : JobTemplate) (header : Bytes) : Bool :=
  meetsTarget (host.hash256 header).bytes
    (difficultyToTarget jobTemplate.blockData.networkDifficulty)

/-- The saved row of a found block. -/
def blockRecord (client : StratumV1Client) (identity : UserIdentity) (jobTemplate : JobTemplate)
    (blockHex : Bytes) (blockSubmissionResult : Option String) : BlockRecord where
  height := jobTemplate.blockData.height
  minerAddress := identity.address
  worker := identity.workerName
  sessionId := client.extraNonceAndSessionId.getD "undefined"
  blockData := blockHex
  blockSubmissionResult := blockSubmissionResult
  payoutSnapshotId :=
    if client.payoutMode = .pplns then jobTemplate.blockData.payoutSnapshotId else none
  payoutMode := client.payoutMode

/-- In pplns mode the payout snapshot of the template is finalized. -/
def finalizeEvents (client : StratumV1Client) (jobTemplate : JobTemplate)
    (coinbase : Transaction) (blockSubmissionResult : Option String) : List Sv1Event :=
  if client.payoutMode = .pplns then
    [.finalizeCalled
      { payoutSnapshotId := jobTemplate.blockData.payoutSnapshotId
        blockHeight := jobTemplate.blockData.height
        blockSubmissionResult
        payoutMode := client.payoutMode } coinbase]
  else []

/-- What follows from a block candidate: the block is submitted, saved and, in pplns mode,
finalized. The flag says that a call failed. -/
def submitBlock (host : Externals) (client : StratumV1Client) (identity : UserIdentity)
    (job : MiningJob) (jobTemplate : JobTemplate) (submission : MiningSubmitMessage)
    (blockSubmissionResult : Option String) (fault : Option SubmitFault) :
    List Sv1Event × Bool :=
  match job.copyAndUpdateBlock host jobTemplate (Js.parseInt16 submission.versionMask)
      (Js.parseInt16 submission.nonce) (client.extraNonceAndSessionId.getD "undefined").toList
      submission.extraNonce2.toList (Js.parseInt16 submission.ntime) with
  | none => ([], true)
  | some (coinbase, blockHex) =>
    let saved := Sv1Event.blockSaved
      (client.blockRecord identity jobTemplate blockHex blockSubmissionResult) job
    let finalized := client.finalizeEvents jobTemplate coinbase blockSubmissionResult
    if fault = some .submitBlock ∨ fault = some .saveBlock then ([], true)
    else if fault = some .finalize ∧ client.payoutMode = .pplns then ([saved], true)
    else (saved :: finalized, fault = some .notify)

/-- The record of an accepted share. -/
def shareRecord (host : Externals) (client : StratumV1Client) (identity : UserIdentity)
    (job : MiningJob) (jobTemplate : JobTemplate) (submission : MiningSubmitMessage)
    (header : Bytes) (blockSubmissionResult : Option String) : AcceptedShareRecord where
  protocol := client.accountingProtocol
  payoutMode := client.payoutMode
  workSource := .poolTemplate
  workProtocol := .pool
  address := identity.address
  clientName := identity.workerName
  sessionId := client.extraNonceAndSessionId.getD "undefined"
  jobId := job.jobId
  jobTemplateId := job.jobTemplateId
  blockHeight := jobTemplate.blockData.height
  creditedDifficulty := client.sessionDifficulty
  submissionDifficulty := (calculateDifficulty host header).1
  networkDifficulty := jobTemplate.blockData.networkDifficulty
  nonce := submission.nonce
  ntime := submission.ntime
  version := match Js.parseInt16 submission.versionMask with
    | some versionMask =>
      Js.intToString16 (Js.bitXor (some jobTemplate.block.version) (some versionMask))
    | none => Js.intToString16 jobTemplate.block.version
  extraNonce2 := submission.extraNonce2
  isBlockCandidate := isBlockCandidate host jobTemplate header
  blockSubmissionResult :=
    if isBlockCandidate host jobTemplate header then blockSubmissionResult else none

/-- What follows from an accepted share: the reply, the block if it is one, and the record. The
flag says that a call failed. -/
def acceptSubmission (host : Externals) (client : StratumV1Client)
    (submission : MiningSubmitMessage) (job : MiningJob) (jobTemplate : JobTemplate)
    (header : Bytes) (blockSubmissionResult : Option String) (fault : Option SubmitFault) :
    List Sv1Event × Bool :=
  let identity := recordedIdentity (client.clientAuthorization.getD ⟨"", ""⟩) job
  let (blockEvents, failed) :=
    if isBlockCandidate host jobTemplate header then
      client.submitBlock host identity job jobTemplate submission blockSubmissionResult fault
    else ([], false)
  let recorded := Sv1Event.shareRecorded (client.shareRecord host identity job jobTemplate
    submission header blockSubmissionResult) submission job header
  if failed then (.response :: blockEvents, true)
  else if fault = some .recordShare then (.response :: blockEvents, false)
  else (.response :: blockEvents ++ [recorded], false)

/-- `handleMiningSubmission`, with the answer of the node to a block. -/
def handleMiningSubmission (host : Externals) (service : StratumV1JobsService)
    (client : StratumV1Client) (submission : MiningSubmitMessage)
    (blockSubmissionResult : Option String) (fault : Option SubmitFault) :
    StratumV1Client × List Sv1Event :=
  let verdict := client.judgeSubmission host service submission
  let client := client.remember submission verdict
  let reject (code : StratumErrorCode) (message : String) : StratumV1Client × List Sv1Event :=
    if fault = some .writeReply then (client.destroy, [])
    else (client, [.errorResponse code message])
  match verdict with
  | .jobNotFound message => reject .jobNotFound message
  | .duplicate => reject .duplicateShare "Duplicate share"
  | .lowDifficulty => reject .lowDifficultyShare "Difficulty too low"
  | .threw => (client.endSocket, [])
  | .accepted job jobTemplate header =>
    if fault = some .writeReply then (client.destroy, [])
    else
      let (events, failed) := client.acceptSubmission host submission job jobTemplate header
        blockSubmissionResult fault
      (if failed then client.endSocket else client, events)

/-- `mining.submit`. Before the connection is initialized it ends the connection, and so does
a message that the validators refuse. -/
def handleSubmit (host : Externals) (service : StratumV1JobsService) (client : StratumV1Client)
    (params : List JsonValue) (blockSubmissionResult : Option String)
    (fault : Option SubmitFault) : StratumV1Client × List Sv1Event :=
  if !client.stratumInitialized then (client.endSocket, [])
  else match MiningSubmitMessage.ofParams params with
    | none =>
      (client.endSocket, [.errorResponse .otherUnknown "Mining Submit validation error"])
    | some submission =>
      client.handleMiningSubmission host service submission blockSubmissionResult fault

end StratumV1Client

end Sv1

end PublicPool
