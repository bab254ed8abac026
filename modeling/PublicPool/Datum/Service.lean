import PublicPool.Accounting
import PublicPool.CustomWork
import PublicPool.TemplateProvider
import PublicPool.Payout.Snapshot
import PublicPool.Lib.RoundedSums
import PublicPool.Lib.Runs

/-!
# `PublicPool.Datum.Service`: DATUM gateways

The model of `services/datum.service.ts`. A DATUM gateway builds its own block templates. It
asks the pool which outputs its coinbase must have (`handleCoinbaserFetch`), sends the shares
of its miners (`handlePowSubmit`) and proves the transactions of a job on request
(`handleJobValidationResponse`).

A submission carries a job id and, on first use of a job, the job itself. The session caches
jobs by id, and the share is judged by the cached job: its coinbase must pay the expected
outputs, its fields must match the latest template, and its header must hash to at most the
share target. What follows from an accepted share is a reply, possibly a saved block and a
finalized payout snapshot, and a row in the share accounting.

`handlePowSubmit` is split where the source branches: `judgePow` decides, `acceptPow` does what
follows. Every awaited call that can fail does so when `PowFaults` says so, and a failure
closes the connection.
-/

set_option autoImplicit false

namespace PublicPool.Datum

open Lib (OrdMap Machine subtractRounded)

/-! ### Messages and session state -/

/-- The halves of a coinbase around the extranonce. -/
structure CoinbasePair where
  coinb1 : Bytes
  coinb2 : Bytes
  deriving DecidableEq

/-- `DatumPowSubmit`. -/
structure DatumPowSubmit where
  jobId : ℕ
  coinbaseId : ℕ
  isBlock : Bool
  subsidyOnly : Bool
  targetByte : ℕ
  ntime : ℕ
  nonce : ℕ
  version : ℕ
  extranonce : Bytes
  username : String
  prevBlockHash : Option Bytes
  targetByteIndex : Option ℕ
  nBits : Option Bytes
  coinbaserId : Option ℕ
  height : Option ℕ
  coinbaseValue : Option ℕ
  transactionCount : Option ℕ
  totalWeight : Option ℕ
  totalSize : Option ℕ
  totalSigops : Option ℕ
  merkleBranches : Option (List Bytes)
  coinbasePairs : List (ℕ × CoinbasePair)
  subsidyOnlyCoinbase : Option CoinbasePair
  deriving DecidableEq

inductive ValidationState
  | requestedShortTxIds
  | requestedFullTransactionBlob
  | validated
  | failed
  deriving DecidableEq, Repr

/-- `DatumJobCache`. -/
structure DatumJobCache where
  prevBlockHash : Option Bytes
  targetByteIndex : Option ℕ
  nBits : Option Bytes
  height : Option ℕ
  coinbaseValue : Option ℕ
  transactionCount : Option ℕ
  totalWeight : Option ℕ
  totalSize : Option ℕ
  totalSigops : Option ℕ
  merkleBranches : Option (List Bytes)
  coinbasePairs : ℕ → Option CoinbasePair
  subsidyOnlyCoinbase : Option CoinbasePair
  validationState : Option ValidationState
  validationTransactions : Option (List Bytes)
  expectedPayoutOutputs : Option (List CoinbasePayoutOutput)
  payoutSnapshotId : Option ℕ

/-- A cache without a job. -/
def DatumJobCache.empty : DatumJobCache where
  prevBlockHash := none
  targetByteIndex := none
  nBits := none
  height := none
  coinbaseValue := none
  transactionCount := none
  totalWeight := none
  totalSize := none
  totalSigops := none
  merkleBranches := none
  coinbasePairs _ := none
  subsidyOnlyCoinbase := none
  validationState := none
  validationTransactions := none
  expectedPayoutOutputs := none
  payoutSnapshotId := none

/-- `DatumCoinbaserPayoutContext`. -/
structure CoinbaserPayoutContext where
  payoutOutputs : List CoinbasePayoutOutput
  payoutSnapshotId : Option ℕ
  blockHeight : ℤ
  payoutMode : PayoutMode

/-- `DatumClientState`. -/
structure DatumClientState where
  sessionId : String
  payoutMode : PayoutMode
  hasClientEntity : Bool
  address : Option String
  workerName : String
  datumJobs : ℕ → Option DatumJobCache
  coinbaserPayoutContexts : OrdMap ℕ CoinbaserPayoutContext
  nextCoinbaserId : ℕ

/-- The state of a new connection. -/
def DatumClientState.initial (sessionId : String) (payoutMode : PayoutMode) :
    DatumClientState where
  sessionId := sessionId
  payoutMode := payoutMode
  hasClientEntity := false
  address := none
  workerName := "default"
  datumJobs _ := none
  coinbaserPayoutContexts := .empty
  nextCoinbaserId := 1

/-- The settings of the service. -/
structure DatumConfig where
  network : Network
  /-- The first of the three configured pool addresses that is set. -/
  poolPayoutAddress : Option String
  /-- `getConfiguredDatumShareDifficulty()`, which is positive. -/
  shareDifficulty : ℚ

/-- `DatumRejectReason`, with the reasons the service sends. -/
inductive DatumRejectReason
  | badTarget
  | badUsername
  | badCoinbaserId
  | badMerkleCount
  | coinbaseMissing
  | highHash
  | badVersion
  | staleBlock
  | other
  deriving DecidableEq, Repr

/-- What a handler sends and stores. A recorded share comes with the header it was judged by,
which the source does not store. -/
inductive DatumEvent
  | shareResponse (reason : Option DatumRejectReason) (nonce targetByte jobId : ℕ)
  | coinbaserResponse (rewardValue : ℕ) (outputs : List CoinbasePayoutOutput) (coinbaserId : ℕ)
  | validationRequest (jobId : ℕ) (fullTransactions : Bool)
  | blockSaved (block : BlockRecord)
  | finalizeCalled (input : FinalizeInput) (result : PayoutFinalizationResult)
  | shareRecorded (share : AcceptedShareRecord) (header : Bytes)
  | closed

variable (host : Externals) (config : DatumConfig)

/-! ### Coinbaser requests -/

/-- `getDatumFallbackPayoutOutputs`: everything to the pool's own address. -/
def getDatumFallbackPayoutOutputs (rewardValue : ℤ) : List AddressObject :=
  match config.poolPayoutAddress with
  | none => []
  | some address => [{ address, percent := none, amountSats := some (max 0 rewardValue) }]

/-- `getDatumPayoutOutputs`, or `none` when an address throws. -/
def getDatumPayoutOutputs (payoutOutputs : Option (List AddressObject)) (rewardValue : ℤ)
    (payoutMode : PayoutMode) : Option (List CoinbasePayoutOutput) := do
  let configuredOutputs := payoutOutputs.getD []
  let payoutAddresses :=
    if payoutMode = .pplns ∧ configuredOutputs ≠ [] then configuredOutputs
    else getDatumFallbackPayoutOutputs config rewardValue
  let outputs ← payoutAddresses.mapM fun recipient => do
    let scriptPubKey ← host.toOutputScript recipient.address config.network
    return {
      value := Js.toDouble (recipient.amount rewardValue), scriptPubKey : CoinbasePayoutOutput }
  -- the balance is a double, which every subtraction rounds
  let rewardBalance :=
    subtractRounded Js.toDouble (max 0 rewardValue) (outputs.map (·.value))
  match outputs with
  | [] => return []
  | first :: rest => return { first with value := first.value + rewardBalance } :: rest

/-- `nextDatumCoinbaserId`: ids count from 1 to 254 and start over. -/
def nextDatumCoinbaserId (state : DatumClientState) : ℕ × DatumClientState :=
  (state.nextCoinbaserId,
    { state with
      nextCoinbaserId := if 254 ≤ state.nextCoinbaserId then 1 else state.nextCoinbaserId + 1 })

/-- The contexts without their oldest entry when there are more than 512. -/
def evictOldestContext (contexts : OrdMap ℕ CoinbaserPayoutContext) :
    OrdMap ℕ CoinbaserPayoutContext :=
  if 512 < contexts.entries.length then
    ⟨contexts.entries.tail, contexts.nodup.sublist ((List.tail_sublist _).map _)⟩
  else contexts

/-- The bytes `serializeDatumCoinbaserFetchResponse` can write: an amount fits 64 bits and a
script 255 bytes. -/
def isSerializable (outputs : List CoinbasePayoutOutput) : Bool :=
  outputs.all fun output =>
    0 ≤ output.value && output.value < 2 ^ 64 && output.scriptPubKey.length ≤ 255

/-- `handleCoinbaserFetch`. The state is `none` when the handler throws. -/
def handleCoinbaserFetch (latestTemplate : JobTemplate) (state : DatumClientState)
    (rewardValue : ℕ) : Option DatumClientState × List DatumEvent :=
  match getDatumPayoutOutputs host config latestTemplate.blockData.payoutOutputs
      (Js.roundToDouble rewardValue) state.payoutMode with
  | none | some [] => (none, [.closed])
  | some payoutOutputs =>
    let (coinbaserId, state) := nextDatumCoinbaserId state
    let state :=
      { state with
        coinbaserPayoutContexts := evictOldestContext
          (state.coinbaserPayoutContexts.set coinbaserId
            { payoutOutputs
              payoutSnapshotId := latestTemplate.blockData.payoutSnapshotId
              blockHeight := latestTemplate.blockData.height
              payoutMode := state.payoutMode }) }
    if isSerializable payoutOutputs then
      (some state, [.coinbaserResponse rewardValue payoutOutputs coinbaserId])
    else (none, [.closed])

/-! ### Proof of work -/

/-- `normalizeAddress`: the text of a segwit address is lower case. -/
def normalizeAddress (address : List Char) : List Char :=
  let lower := Js.toLowerCase address
  if "bc1".toList.isPrefixOf lower || "tb1".toList.isPrefixOf lower
      || "bcrt1".toList.isPrefixOf lower then lower
  else address

/-- A field of the message replaces the cached one when the message has it. -/
def orCached {α : Type*} (sent cached : Option α) : Option α :=
  match sent with
  | some value => some value
  | none => cached

/-- `updateDatumJobCache`: the cache a submission is judged by. A submission that carries a
previous block hash carries a whole job and starts a new cache. -/
def updateDatumJobCache (state : DatumClientState) (pow : DatumPowSubmit) : DatumJobCache :=
  let cache :=
    if pow.prevBlockHash.isSome then DatumJobCache.empty
    else (state.datumJobs pow.jobId).getD .empty
  let payoutContext := pow.coinbaserId.bind state.coinbaserPayoutContexts.get?
  { cache with
    prevBlockHash := orCached pow.prevBlockHash cache.prevBlockHash
    targetByteIndex := orCached pow.targetByteIndex cache.targetByteIndex
    nBits := orCached pow.nBits cache.nBits
    expectedPayoutOutputs := match payoutContext with
      | some context => some context.payoutOutputs
      | none => cache.expectedPayoutOutputs
    payoutSnapshotId := match payoutContext with
      | some context => context.payoutSnapshotId
      | none => cache.payoutSnapshotId
    height := orCached pow.height cache.height
    coinbaseValue := orCached pow.coinbaseValue cache.coinbaseValue
    transactionCount := orCached pow.transactionCount cache.transactionCount
    totalWeight := orCached pow.totalWeight cache.totalWeight
    totalSize := orCached pow.totalSize cache.totalSize
    totalSigops := orCached pow.totalSigops cache.totalSigops
    merkleBranches := orCached pow.merkleBranches cache.merkleBranches
    coinbasePairs := pow.coinbasePairs.foldl
      (fun pairs pair => fun id => if id = pair.1 then some pair.2 else pairs id)
      cache.coinbasePairs
    subsidyOnlyCoinbase := orCached pow.subsidyOnlyCoinbase cache.subsidyOnlyCoinbase }

/-- `maybeRequestDatumJobValidation`: the first submission of a job with transactions asks for
their short ids. -/
def maybeRequestDatumJobValidation (jobId : ℕ) (cache : DatumJobCache) :
    DatumJobCache × List DatumEvent :=
  match cache.transactionCount, cache.validationState with
  | some 0, none =>
    ({ cache with validationState := some .validated, validationTransactions := some [] }, [])
  | some _, none =>
    ({ cache with validationState := some .requestedShortTxIds },
      [.validationRequest jobId false])
  | _, _ => (cache, [])

/-- `getDatumCoinbase`. -/
def getDatumCoinbase (cache : DatumJobCache) (pow : DatumPowSubmit) : Option CoinbasePair :=
  if pow.subsidyOnly then orCached cache.subsidyOnlyCoinbase (cache.coinbasePairs pow.coinbaseId)
  else orCached (cache.coinbasePairs pow.coinbaseId) cache.subsidyOnlyCoinbase

/-- `isIgnoredCoinbaseMetadataOutput`. -/
def isIgnoredCoinbaseMetadataOutput (output : TxOutput) : Bool :=
  isWitnessCommitmentOutput output.script ||
    (output.value = 0 && output.script.head? = some opReturn)

/-- Whether a coinbase pays the given outputs, whatever metadata outputs it has besides. The
target byte is set only when this very submission names its index. -/
def paysOutputs (coinbase : CoinbasePair) (pow : DatumPowSubmit)
    (expectedOutputs : List CoinbasePayoutOutput) : Bool :=
  let coinbaseTx := coinbase.coinb1 ++ pow.extranonce ++ coinbase.coinb2
  match patchTargetByte coinbaseTx pow.targetByteIndex
      (pow.targetByteIndex.map fun _ => pow.targetByte) with
  | none => false
  | some coinbaseTx =>
    match host.fromBuffer coinbaseTx with
    | none => false
    | some tx =>
      expectedOutputs ≠ [] &&
        (tx.outs.filter fun output => !isIgnoredCoinbaseMetadataOutput output).map
          (fun output => { value := output.value, scriptPubKey := output.script })
            = expectedOutputs

/-- The outcome of the payout check: it throws, it fails, it holds for the outputs the job was
bound to, or it holds for another coinbaser answer of the session. -/
inductive PayoutValidation
  | threw
  | invalid
  | valid
  | validFor (context : CoinbaserPayoutContext)

/-- `validateDatumCoinbasePayoutContext`. When the coinbase does not pay the outputs the job is
bound to, every other answer the session got for this mode and height is tried. -/
def validateDatumCoinbasePayoutContext (coinbase : CoinbasePair) (pow : DatumPowSubmit)
    (latestTemplate : JobTemplate) (datumJob : DatumJobCache) (state : DatumClientState) :
    PayoutValidation :=
  let rewardValue : ℤ := match datumJob.coinbaseValue with
    | none => latestTemplate.blockData.coinbasevalue
    | some value => Js.roundToDouble value
  let expected := match datumJob.expectedPayoutOutputs with
    | some outputs => some outputs
    | none => getDatumPayoutOutputs host config latestTemplate.blockData.payoutOutputs rewardValue
        state.payoutMode
  match expected with
  | none => .threw
  | some expected =>
    if paysOutputs host coinbase pow expected then .valid
    else
      let matching := state.coinbaserPayoutContexts.values.find? fun context =>
        context.payoutMode = state.payoutMode &&
          !failsWith datumJob.height (fun height => context.blockHeight ≠ (height : ℤ)) &&
          some context.payoutOutputs ≠ datumJob.expectedPayoutOutputs &&
          paysOutputs host coinbase pow context.payoutOutputs
      match matching with
      | some context => .validFor context
      | none => .invalid

/-- `mapDatumTemplateRejectReason`. -/
def mapDatumTemplateRejectReason (errorCode : String) : DatumRejectReason :=
  if errorCode = "prevhash-mismatch" ∨ errorCode = "height-mismatch" then .staleBlock
  else if errorCode = "version-mismatch" then .badVersion
  else if errorCode = "bad-merkle-branch" then .badMerkleCount
  else .other

/-- `getDatumSubmittedShareDifficulty`: the target byte is the logarithm of the difficulty. -/
def getDatumSubmittedShareDifficulty (pow : DatumPowSubmit) : ℚ :=
  if pow.targetByte ≤ 63 then 2 ^ pow.targetByte else config.shareDifficulty

/-- What the pool makes of a submission. -/
inductive PowVerdict
  | rejected (reason : DatumRejectReason)
  | threw
  | accepted (validation : ShareValidationResult)

/-- The cache once the payout check has bound the job to another coinbaser answer. -/
def bindContext (datumJob : DatumJobCache) : PayoutValidation → DatumJobCache
  | .validFor context =>
    { datumJob with
      expectedPayoutOutputs := some context.payoutOutputs
      payoutSnapshotId := context.payoutSnapshotId }
  | _ => datumJob

/-- The judgement of a submission whose job is complete, with the cache it leaves. -/
def judgeCompleteJob (latestTemplate : JobTemplate)
    (providerTemplate : Option TemplateProviderTemplate) (state : DatumClientState)
    (pow : DatumPowSubmit) (datumJob : DatumJobCache) (coinbase : CoinbasePair)
    (prevBlockHash nBits : Bytes) (merkleBranches : List Bytes) (targetByteIndex : ℕ) :
    PowVerdict × DatumJobCache :=
  match validateDatumTemplateFastPath providerTemplate
      { prevBlockHash := some prevBlockHash
        nBits := some nBits
        height := datumJob.height.map (↑)
        version := some pow.version
        coinbaseValue := datumJob.coinbaseValue.map (↑)
        totalWeight := datumJob.totalWeight
        totalSize := datumJob.totalSize
        totalSigops := datumJob.totalSigops
        merkleBranches := some merkleBranches } with
  | some errorCode => (.rejected (mapDatumTemplateRejectReason errorCode), datumJob)
  | none =>
    if datumJob.validationState = some .failed then (.rejected .other, datumJob)
    else
      let payoutValidation := validateDatumCoinbasePayoutContext host config coinbase pow
        latestTemplate datumJob state
      match payoutValidation with
      | .threw => (.threw, datumJob)
      | .invalid => (.rejected .badCoinbaserId, datumJob)
      | .valid | .validFor _ =>
        let datumJob := bindContext datumJob payoutValidation
        match readUInt32LE nBits with
        | none => (.threw, datumJob)
        | some bits =>
          match validateShare host
              { coinbasePrefix := coinbase.coinb1
                coinbaseSuffix := coinbase.coinb2
                coinbaseTargetByteIndex := some targetByteIndex
                coinbaseTargetByte := some pow.targetByte
                merklePath := merkleBranches
                extranoncePrefix := []
                extranonce := pow.extranonce
                prevHash := prevBlockHash
                nBits := bits
                version := pow.version
                ntime := pow.ntime
                nonce := pow.nonce
                shareDifficulty := some (getDatumSubmittedShareDifficulty config pow)
                networkDifficulty := latestTemplate.blockData.networkDifficulty } with
          | none => (.threw, datumJob)
          | some validation =>
            if validation.accepted then (.accepted validation, datumJob)
            else (.rejected .highHash, datumJob)

/-- The judgement of a submission by its cached job, with the cache it leaves. -/
def judgePow (latestTemplate : JobTemplate) (providerTemplate : Option TemplateProviderTemplate)
    (state : DatumClientState) (pow : DatumPowSubmit) (datumJob : DatumJobCache) :
    PowVerdict × DatumJobCache :=
  match getDatumCoinbase datumJob pow, datumJob.prevBlockHash, datumJob.nBits,
      datumJob.merkleBranches with
  | some coinbase, some prevBlockHash, some nBits, some merkleBranches =>
    match datumJob.targetByteIndex with
    | none => (.rejected .badTarget, datumJob)
    | some targetByteIndex =>
      judgeCompleteJob host config latestTemplate providerTemplate state pow datumJob coinbase
        prevBlockHash nBits merkleBranches targetByteIndex
  | _, _, _, _ => (.rejected .coinbaseMissing, datumJob)

/-- The awaited call of `handlePowSubmit` that fails, if one does. -/
inductive PowFault
  | insertClient
  | writeReply
  | saveBlock
  | finalize
  | recordShare
  deriving DecidableEq, Repr

/-- The text that marks a block the gateway is expected to submit itself. -/
def gatewaySubmitExpected : String := "datum-gateway-submit-expected"

/-- `datumJob.height ?? latestTemplate.blockData.height`. -/
def blockHeightOf (latestTemplate : JobTemplate) (datumJob : DatumJobCache) : ℤ :=
  match datumJob.height with
  | some height => height
  | none => latestTemplate.blockData.height

/-- What follows from an accepted share: the reply, for a block candidate the saved block and
in pplns mode the finalized snapshot, and the recorded share. Both the gateway's own flag and
the hash make a block candidate. -/
def acceptPow (payout : PayoutConfig) (db : Database) (latestTemplate : JobTemplate)
    (state : DatumClientState) (pow : DatumPowSubmit) (identity : UserIdentity)
    (datumJob : DatumJobCache) (validation : ShareValidationResult) (fault : Option PowFault) :
    Database × List DatumEvent × Bool :=
  let isBlockCandidate := validation.isBlockCandidate || pow.isBlock
  let blockSubmissionResult :=
    if validation.isBlockCandidate then some gatewaySubmitExpected else none
  let blockHeight := blockHeightOf latestTemplate datumJob
  let reply : List DatumEvent := [.shareResponse none pow.nonce pow.targetByte pow.jobId]
  let block : List DatumEvent :=
    [.blockSaved
      { height := blockHeight
        minerAddress := identity.address
        worker := identity.workerName
        sessionId := state.sessionId
        blockData := validation.header
        blockSubmissionResult
        payoutSnapshotId := if state.payoutMode = .pplns then datumJob.payoutSnapshotId else none
        payoutMode := state.payoutMode }]
  let finalizeInput : FinalizeInput :=
    { payoutSnapshotId := datumJob.payoutSnapshotId
      blockHeight
      blockSubmissionResult
      payoutMode := state.payoutMode }
  let share : List DatumEvent :=
    [.shareRecorded
      { protocol := .datum
        payoutMode := state.payoutMode
        workSource := .minerTemplate
        workProtocol := .datum
        address := identity.address
        clientName := identity.workerName
        sessionId := state.sessionId
        jobId := Js.toString16 pow.jobId
        jobTemplateId := latestTemplate.blockData.id
        blockHeight
        creditedDifficulty := some (getDatumSubmittedShareDifficulty config pow)
        submissionDifficulty := validation.submissionDifficulty
        networkDifficulty := latestTemplate.blockData.networkDifficulty
        nonce := toString pow.nonce
        ntime := toString pow.ntime
        version := toString pow.version
        extraNonce2 := String.ofList (Js.toHex pow.extranonce)
        isBlockCandidate
        blockSubmissionResult } validation.header]
  if fault = some .writeReply then (db, [], true)
  else if !isBlockCandidate then
    if fault = some .recordShare then (db, reply, true) else (db, reply ++ share, false)
  else if fault = some .saveBlock then (db, reply, true)
  else if state.payoutMode = .pplns then
    if fault = some .finalize then (db, reply ++ block, true)
    else
      let (result, db') := finalizeSnapshotForBlock payout db finalizeInput
      let finalized : List DatumEvent := [.finalizeCalled finalizeInput result]
      if fault = some .recordShare then (db', reply ++ block ++ finalized, true)
      else (db', reply ++ block ++ finalized ++ share, false)
  else if fault = some .recordShare then (db, reply ++ block, true)
  else (db, reply ++ block ++ share, false)

/-- The session once a submission's job is cached: its identity, its client row and its job. -/
def cachePow (state : DatumClientState) (pow : DatumPowSubmit) (identity : UserIdentity)
    (datumJob : DatumJobCache) : DatumClientState :=
  { state with
    address := some identity.address
    workerName := identity.workerName
    hasClientEntity := true
    datumJobs := fun id => if id = pow.jobId then some datumJob else state.datumJobs id }

/-- `handlePowSubmit`. The session is `none` when the handler throws and the connection is
closed. -/
def handlePowSubmit (payout : PayoutConfig) (db : Database) (latestTemplate : JobTemplate)
    (providerTemplate : Option TemplateProviderTemplate) (state : DatumClientState)
    (pow : DatumPowSubmit) (fault : Option PowFault) :
    Option DatumClientState × Database × List DatumEvent :=
  let identity := parseUserIdentity normalizeAddress pow.username
  let reject (reason : DatumRejectReason) : DatumEvent :=
    .shareResponse (some reason) pow.nonce pow.targetByte pow.jobId
  -- a reply that cannot be written closes the connection
  let answer (state : DatumClientState) (events : List DatumEvent) (reason : DatumRejectReason) :=
    if fault = some .writeReply then (none, db, events ++ [.closed])
    else (some state, db, events ++ [reject reason])
  if !isValidAddress host identity.address then answer state [] .badUsername
  else if fault = some .insertClient ∧ !state.hasClientEntity then (none, db, [.closed])
  else
    let (datumJob, requests) :=
      maybeRequestDatumJobValidation pow.jobId (updateDatumJobCache state pow)
    let (verdict, datumJob) :=
      judgePow host config latestTemplate providerTemplate state pow datumJob
    let state := cachePow state pow identity datumJob
    match verdict with
    | .rejected reason => answer state requests reason
    | .threw => (none, db, requests ++ [.closed])
    | .accepted validation =>
      let (db, events, failed) := acceptPow config payout db latestTemplate state pow identity
        datumJob validation fault
      if failed then (none, db, requests ++ events ++ [.closed])
      else (some state, db, requests ++ events)

/-! ### Job validation -/

/-- `DatumJobValidationResponse`. -/
inductive DatumJobValidationResponse
  | shortTxIds (jobId status transactionCount : ℕ)
  | transactions (jobId status transactionCount : ℕ) (transactions : List Bytes)

def DatumJobValidationResponse.jobId : DatumJobValidationResponse → ℕ
  | .shortTxIds jobId _ _ => jobId
  | .transactions jobId _ _ _ => jobId

def DatumJobValidationResponse.status : DatumJobValidationResponse → ℕ
  | .shortTxIds _ status _ => status
  | .transactions _ status _ _ => status

/-- `DatumJobValidationStatus.SUCCESS`. -/
def validationSuccess : ℕ := 1

/-- The cache after a validation response, and the request that follows. -/
def applyValidationResponse (cache : DatumJobCache) :
    DatumJobValidationResponse → DatumJobCache × List DatumEvent
  | .shortTxIds jobId status transactionCount =>
    if status ≠ validationSuccess then ({ cache with validationState := some .failed }, [])
    else if failsWith cache.transactionCount fun count => transactionCount ≠ count then
      ({ cache with validationState := some .failed }, [])
    else
      ({ cache with validationState := some .requestedFullTransactionBlob },
        [.validationRequest jobId true])
  | .transactions _ status transactionCount transactions =>
    if status ≠ validationSuccess then ({ cache with validationState := some .failed }, [])
    else if failsWith cache.transactionCount fun count => transactionCount ≠ count then
      ({ cache with validationState := some .failed }, [])
    else if (validateTransactionData host transactions cache.transactionCount cache.totalSize
        cache.merkleBranches).isSome then
      ({ cache with validationState := some .failed }, [])
    else
      ({ cache with
          validationState := some .validated
          validationTransactions := some transactions }, [])

/-- `handleJobValidationResponse`. -/
def handleJobValidationResponse (state : DatumClientState)
    (response : DatumJobValidationResponse) : DatumClientState × List DatumEvent :=
  match state.datumJobs response.jobId with
  | none => (state, [])
  | some cache =>
    let (cache, events) := applyValidationResponse host cache response
    ({ state with
        datumJobs := fun id => if id = response.jobId then some cache else state.datumJobs id },
      events)

/-! ### The service -/

/-- The service: its sessions, the templates the other services last published and the
database. -/
structure DatumWorld where
  latestTemplate : Option JobTemplate
  providerTemplate : Option TemplateProviderTemplate
  database : Database
  sessions : ℕ → Option DatumClientState

/-- What happens to the service. The templates, the work of the pool and the outcome of every
awaited call come from outside. -/
inductive DatumInput
  | connect (client : ℕ) (sessionId : String) (payoutMode : PayoutMode)
  | disconnect (client : ℕ)
  | template (latestTemplate : JobTemplate) (providerTemplate : Option TemplateProviderTemplate)
  | rollups (batches : List ShareRollupBatch) (summaries : List ShareRollupSummary)
  | createSnapshot (input : CreateSnapshotInput)
  | coinbaserFetch (client : ℕ) (rewardValue : ℕ)
  | powSubmit (client : ℕ) (pow : DatumPowSubmit) (fault : Option PowFault)
  | jobValidation (client : ℕ) (response : DatumJobValidationResponse)

def DatumWorld.setSession (world : DatumWorld) (client : ℕ) (state : Option DatumClientState) :
    DatumWorld :=
  { world with sessions := fun id => if id = client then state else world.sessions id }

/-- One step of the service. A message of a client that is not connected, and one that arrives
before the first template, is not handled. -/
def datumStep (payout : PayoutConfig) (world : DatumWorld) :
    DatumInput → DatumWorld × List (ℕ × DatumEvent)
  | .connect client sessionId payoutMode =>
    (world.setSession client (some (.initial sessionId payoutMode)), [])
  | .disconnect client => (world.setSession client none, [])
  | .template latestTemplate providerTemplate =>
    ({ world with latestTemplate := some latestTemplate, providerTemplate }, [])
  | .rollups batches summaries =>
    ({ world with
        database :=
          { world.database with rollupBatches := batches, rollupSummaries := summaries } }, [])
  | .createSnapshot input =>
    ({ world with
        database := (createSnapshotForTemplate host.toPayoutEnv payout world.database input).2 },
      [])
  | .coinbaserFetch client rewardValue =>
    match world.sessions client, world.latestTemplate with
    | some state, some latestTemplate =>
      let (state, events) := handleCoinbaserFetch host config latestTemplate state rewardValue
      (world.setSession client state, events.map (client, ·))
    | _, _ => (world, [])
  | .powSubmit client pow fault =>
    match world.sessions client, world.latestTemplate with
    | some state, some latestTemplate =>
      let (state, database, events) := handlePowSubmit host config payout world.database
        latestTemplate world.providerTemplate state pow fault
      ({ world.setSession client state with database }, events.map (client, ·))
    | _, _ => (world, [])
  | .jobValidation client response =>
    match world.sessions client with
    | some state =>
      let (state, events) := handleJobValidationResponse host state response
      (world.setSession client (some state), events.map (client, ·))
    | none => (world, [])

/-- The DATUM service as a state machine. -/
def datumMachine (payout : PayoutConfig) : Machine DatumWorld DatumInput (ℕ × DatumEvent) :=
  ⟨datumStep host config payout⟩

end PublicPool.Datum
