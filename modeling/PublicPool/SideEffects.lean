import PublicPool.Sv1.Client
import PublicPool.Sv2.Client
import PublicPool.Sv2.JobDeclaration
import PublicPool.Sv2.TemplateDistribution

/-!
# `PublicPool.SideEffects`: the four paths with every call that may fail

What follows an accepted share in `models/StratumV1Client.ts` and `models/StratumV2Client.ts`, call
by call, next to the two protocols for solutions. The shares are told to the miner first. SV1 hands
a block to the node before it looks for the client's row, SV2 after it. The statistics that follow
the accounting call are left out.

`AcceptedWork` is what comes in on one of the paths and is accepted.
-/

set_option autoImplicit false

namespace PublicPool

/-! ### Stratum V1 -/

namespace Sv1.StratumV1Client

variable (host : Externals) (client : StratumV1Client) (submission : MiningSubmitMessage)
  (job : MiningJob) (jobTemplate : JobTemplate) (header : Bytes)

/-- The block of a submission, which is built when its header is a block's. -/
def submittedBlock : Option (Transaction × Bytes) :=
  job.copyAndUpdateBlock host jobTemplate (Js.parseInt16 submission.versionMask)
    (Js.parseInt16 submission.nonce) (client.extraNonceAndSessionId.getD "undefined").toList
    submission.extraNonce2.toList (Js.parseInt16 submission.ntime)

/-- What is reported of the block of a submission. -/
def sv1FoundBlock (blockHex : Bytes) : FoundBlock :=
  let identity := recordedIdentity (client.clientAuthorization.getD ⟨"", ""⟩) job
  { blockHex
    height := jobTemplate.blockData.height
    minerAddress := identity.address
    worker := identity.workerName
    sessionId := client.extraNonceAndSessionId.getD "undefined"
    payoutMode := client.payoutMode
    payoutSnapshotId := jobTemplate.blockData.payoutSnapshotId }

/-- The part of the accepted branch that is about a block. -/
def reportSubmission (result : Option String) : SubmitHandler Unit :=
  if isBlockCandidate host jobTemplate header then do
    let (_, blockHex) ← .ofOption (client.submittedBlock host submission job jobTemplate)
    reportMinedBlock (client.sv1FoundBlock job jobTemplate blockHex) result
  else pure ()

/-- The accepted branch of `handleMiningSubmission`. The identity that `virtualWorkerEntity` looks
up is always found or missing. -/
def acceptedHandler (result : Option String) : SubmitHandler Unit := do
  let identity := recordedIdentity (client.clientAuthorization.getD ⟨"", ""⟩) job
  .call .reply .writeReply
  client.reportSubmission host submission job jobTemplate header result
  .call .ensureClientEntity .insertClient
  .call (.recordAcceptedShare
    (client.shareRecord host identity job jobTemplate submission header result)) .recordShare

end Sv1.StratumV1Client

/-! ### Stratum V2 -/

namespace Sv2.Context

variable (context : Context) (share : AcceptedShare)

/-- What is reported of the block of a share. -/
def sv2FoundBlock (blockHex : Bytes) : FoundBlock where
  blockHex := blockHex
  height := share.jobTemplate.blockData.height
  minerAddress := context.client.address.getD ""
  worker := context.client.workerName
  sessionId := context.client.sessionId
  payoutMode := context.client.payoutMode
  payoutSnapshotId := share.jobTemplate.blockData.payoutSnapshotId

/-- The block that `recordAcceptedShare` is given, if it is given one. -/
def updatedJobBlock : SubmitHandler (Option Bytes) :=
  match share.block with
  | none => pure none
  | some block => .ofOption (block.map fun (_, blockHex) => some blockHex)

/-- The part of `recordAcceptedShare` that is about a block. -/
def reportShare (result : Option String) : Option Bytes → SubmitHandler Unit
  | none => pure ()
  | some blockHex => reportMinedBlock (context.sv2FoundBlock share blockHex) result

/-- Both kinds of submission from their reply on. -/
def acceptedHandler (result : Option String) : SubmitHandler Unit := do
  .call .reply .writeReply
  let blockHex ← updatedJobBlock share
  .call .ensureClientEntity .insertClient
  context.reportShare share result blockHex
  let blockSubmissionResult := if blockHex.isSome then result else share.blockCandidateResult
  .call (.recordAcceptedShare (context.shareRecord share blockSubmissionResult)) .recordShare

end Sv2.Context

/-! ### What is accepted -/

open Sv1 Sv2 in
/-- A share or a solution that its path accepts, with the state it is judged in. -/
inductive AcceptedWork (host : Externals)
  | sv1 (jobs : StratumV1JobsService) (client : StratumV1Client)
      (submission : MiningSubmitMessage) (job : MiningJob) (jobTemplate : JobTemplate)
      (header : Bytes)
      (accepted : client.judgeSubmission host jobs submission = .accepted job jobTemplate header)
  | sv2Standard (context : Context) (channelId : ℕ) (channel : ChannelState)
      (submission : Sv2SubmitSharesStandard) (share : Sv2.AcceptedShare) (newSharesSum : ℕ)
      (accepted : judgeStandard host context.jobs channelId channel submission.tuple
        = .accepted share newSharesSum)
  | sv2Extended (context : Context) (channelId : ℕ) (channel : ChannelState)
      (submission : Sv2SubmitSharesExtended) (share : Sv2.AcceptedShare) (newSharesSum : ℕ)
      (accepted : judgeExtended host channelId channel submission.tuple submission.extranonce
        = .accepted share newSharesSum)
  | tdp (config : TdpConfig) (templates : TemplateProviderService) (connection : TdpConnection)
      (solution : Sv2TdpSubmitSolution) (now : ℕ) (template : TemplateProviderTemplate)
      (block : SolvedBlock) (blockHex : Bytes) (solutionKey : List Char)
      (accepted : connection.judgeSubmitSolution host config templates solution now
        = .accepted template block blockHex solutionKey)
  | jdp (templates : TemplateProviderService) (connection : JdpConnection)
      (solution : Sv2PushSolution) (now : ℕ) (declared : Sv2DeclaredMiningJob)
      (template : TemplateProviderTemplate) (block : SolvedBlock) (blockHex : Bytes)
      (accepted : connection.judgePushSolution host templates solution now
        = .accepted declared template block blockHex)

/-- The handler of accepted work, with the answer of the node to a block. -/
def AcceptedWork.handler {host : Externals} (result : Option String) :
    AcceptedWork host → SubmitHandler Unit
  | .sv1 _ client submission job jobTemplate header _ =>
    client.acceptedHandler host submission job jobTemplate header result
  | .sv2Standard context _ _ _ share _ _ | .sv2Extended context _ _ _ share _ _ =>
    context.acceptedHandler share result
  | .tdp config templates connection solution now _ _ _ _ _ =>
    connection.handleSubmitSolution host config templates solution now result
  | .jdp templates connection solution now _ _ _ _ _ =>
    connection.handlePushSolution host templates solution now result

end PublicPool
